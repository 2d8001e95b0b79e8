import LuauAnnotation.Bracket
import LuauAnnotation.Json.Reader

/-!
# Bracket kinds as JSON

A kind is written as the string of its name. It is read from that string, or from a map whose
only key is the name and whose value is null.
-/

namespace LuauAnnotation

open Json (Reading Entries Value)

namespace BracketKind

/-- The name of a kind as a string. -/
def toJson (kind : BracketKind) : Value := .string kind.name.toList

/-- The kind with a name that was read. -/
def ofJsonName (word : Text) : Except Json.Fault BracketKind :=
  match ofName? word with
  | some kind => .ok kind
  | none => .error (.unknownVariant word (all.map name))

/-- The kind named by the only key of a map. -/
def ofEntries : Entries → Except Json.Fault BracketKind
  | .done => .error .malformed
  | .broken fault => .error fault
  | .more key value rest => do
    let kind ← key.wanted >>= ofJsonName
    match value with
    | .scalar spelled =>
      match ← spelled.wanted with
      | .null => pure ()
      | other => .error (.wrongType (.scalar other) "unit")
    | _ => value.mismatch "unit"
    match rest with
    | .done => return kind
    | .broken fault => .error fault
    | _ => .error .malformed

/-- A kind from a string or map. Nothing else is taken for a kind. -/
def ofReading : Reading → Except Json.Fault BracketKind
  | .string spelled => spelled.wanted >>= ofJsonName
  | .map entries => ofEntries entries
  | .broken fault => .error fault
  | .scalar _ | .sequence _ => .error .malformed

/-- A kind from its text. -/
def read (text : Text) : Except Json.Fault BracketKind := Json.readText ofReading text

end BracketKind

end LuauAnnotation
