import LuauAnnotation.Json.Fault
import LuauAnnotation.Json.Value

/-!
# Readings

A reading is what a text holds where a value is due, as far as the text is JSON. Where it stops
being JSON the reading is broken, and nothing behind that place is part of it. Whoever takes a
reading apart from the front therefore meets the first fault of the text first, and a fault
behind the parts that are wanted does no harm before it is reached.

A part may be wanted or passed over. A string with half a surrogate pair and a number out of
range denote nothing, so they are faults only where they are wanted, and so is nesting beyond
the limit.
-/

namespace LuauAnnotation.Json

/-- A scalar or string as it is spelled: what a reader gets who wants its value, and what one
gets who passes over it. -/
structure Spelled (α : Type) where
  wanted : Except Fault α
  passed : Except Fault Unit

/-- A spelling without faults. -/
def Spelled.sound {α : Type} (value : α) : Spelled α := ⟨.ok value, .ok ()⟩

mutual

/-- What a text holds where a value is due. -/
inductive Reading where
  | scalar (spelled : Spelled Scalar)
  | string (spelled : Spelled Text)
  | sequence (items : Items)
  | map (entries : Entries)
  /-- No value starts here. -/
  | broken (fault : Fault)

/-- What a text holds from some item of a sequence on. -/
inductive Items where
  | done
  /-- Neither a comma nor the end of the sequence follows. -/
  | broken (fault : Fault)
  | more (first : Reading) (rest : Items)

/-- What a text holds from some entry of a map on. -/
inductive Entries where
  | done
  /-- Neither the end of the map nor what leads to its next entry follows. -/
  | broken (fault : Fault)
  | more (key : Spelled Text) (value : Reading) (rest : Entries)

end

namespace Reading

mutual

/-- Passing over a value meets its first fault. -/
def pass : Reading → Except Fault Unit
  | .scalar spelled => spelled.passed
  | .string spelled => spelled.passed
  | .sequence items => passItems items
  | .map entries => passEntries entries
  | .broken fault => .error fault

/-- Passing over the items of a sequence. -/
def passItems : Items → Except Fault Unit
  | .done => .ok ()
  | .broken fault => .error fault
  | .more first rest => do
    pass first
    passItems rest

/-- Passing over the entries of a map. -/
def passEntries : Entries → Except Fault Unit
  | .done => .ok ()
  | .broken fault => .error fault
  | .more key value rest => do
    key.passed
    pass value
    passEntries rest

end

mutual

/-- Wanting a whole value meets its first fault. `room` is the number of levels that the value
may nest. -/
def settle (room : Nat) : Reading → Except Fault Unit
  | .scalar spelled => spelled.wanted.map fun _ => ()
  | .string spelled => spelled.wanted.map fun _ => ()
  | .sequence items => if room = 0 then .error .malformed else settleItems (room - 1) items
  | .map entries => if room = 0 then .error .malformed else settleEntries (room - 1) entries
  | .broken fault => .error fault

/-- Wanting all the items of a sequence. -/
def settleItems (room : Nat) : Items → Except Fault Unit
  | .done => .ok ()
  | .broken fault => .error fault
  | .more first rest => do
    settle room first
    settleItems room rest

/-- Wanting all the entries of a map. -/
def settleEntries (room : Nat) : Entries → Except Fault Unit
  | .done => .ok ()
  | .broken fault => .error fault
  | .more key value rest => do
    let _ ← key.wanted
    settle room value
    settleEntries room rest

end

/-- What a reading turns out to be where something else is wanted. A sequence or map counts as
one from its first character on. -/
def found : Reading → Except Fault Found
  | .scalar spelled => spelled.wanted.map .scalar
  | .string spelled => spelled.wanted.map .string
  | .sequence _ => .ok .sequence
  | .map _ => .ok .map
  | .broken fault => .error fault

/-- The fault of a reading that is not of the wanted type. -/
def mismatch {α : Type} (reading : Reading) (wanted : String) : Except Fault α := do
  let found ← reading.found
  .error (.wrongType found wanted)

/-- The text of a string. -/
def text (reading : Reading) : Except Fault Text :=
  match reading with
  | .string spelled => spelled.wanted
  | _ => reading.mismatch "a string"

/-- The character of a string that holds just one. -/
def character (reading : Reading) : Except Fault Char :=
  match reading with
  | .string spelled => do
    match ← spelled.wanted with
    | [c] => .ok c
    | text => .error (.wrongValue (.string text) "a character")
  | _ => reading.mismatch "a character"

/-- A truth value. -/
def boolean (reading : Reading) : Except Fault Bool :=
  match reading with
  | .scalar spelled => do
    match ← spelled.wanted with
    | .boolean value => .ok value
    | other => .error (.wrongType (.scalar other) "a boolean")
  | _ => reading.mismatch "a boolean"

/-- A 64-bit word. -/
def word (reading : Reading) : Except Fault UInt64 :=
  match reading with
  | .scalar spelled => do
    match ← spelled.wanted with
    | .number (.integer (.ofNat value)) => .ok (UInt64.ofNat value)
    | .number (.integer value) => .error (.wrongValue (.scalar (.number (.integer value))) "usize")
    | other => .error (.wrongType (.scalar other) "usize")
  | _ => reading.mismatch "usize"

mutual

/-- The reading of a value's text, without faults as long as its numbers are in range. -/
def ofValue : Value → Reading
  | .null => .scalar (.sound .null)
  | .boolean value => .scalar (.sound (.boolean value))
  | .number numeral =>
    .scalar ⟨(numeral.number?.map Scalar.number).elim (.error .malformed) .ok, .ok ()⟩
  | .string text => .string (.sound text)
  | .sequence items => .sequence (ofItems items)
  | .map entries => .map (ofEntries entries)

/-- The reading of the text of a sequence's items. -/
def ofItems : List Value → Items
  | [] => .done
  | item :: rest => .more (ofValue item) (ofItems rest)

/-- The reading of the text of a map's entries. -/
def ofEntries : List (Text × Value) → Entries
  | [] => .done
  | (key, value) :: rest => .more (.sound key) (ofValue value) (ofEntries rest)

end

end Reading

namespace Items

/-- The items of a sequence, each read in its turn. -/
def each {α : Type} (read : Reading → Except Fault α) : Items → Except Fault (List α)
  | .done => .ok []
  | .broken fault => .error fault
  | .more first rest => do
    let value ← read first
    let values ← each read rest
    return value :: values

end Items

end LuauAnnotation.Json
