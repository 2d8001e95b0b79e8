import LuauAnnotation.Proofs.JsonParts

/-!
# Printed JSON is read back

A text is read as one value whatever stands behind it, as long as that does not go on with a number.
Words, numbers and strings are read so, and sequences and maps are when their items and entries are.
What is printed for a value is therefore read as the reading of that value, and nesting counts only
where the value is wanted as a whole.
-/

namespace LuauAnnotation.Json

/-! ### Whole values -/

/-- A text is read as one value with a property, in front of what does not go on with a number. -/
structure ReadsAs (text : Text) (holds : Reading → Prop) : Prop where
  starts : ∃ c rest, text = c :: rest ∧ StartsItem c
  reads : ∀ rest, EndsNumber rest →
    ∃ reading, holds reading ∧ readValue (text ++ rest) = (reading, text.length)

/-- What is read as a value with a property has what follows from it. -/
theorem ReadsAs.imp {text : Text} {holds weaker : Reading → Prop} (h : ReadsAs text holds)
    (hweaker : ∀ reading, holds reading → weaker reading) : ReadsAs text weaker := by
  refine ⟨h.starts, fun rest hrest => ?_⟩
  obtain ⟨reading, hreading, hread⟩ := h.reads rest hrest
  exact ⟨reading, hweaker reading hreading, hread⟩

/-- The word for nothing is read. -/
theorem readsAs_null : ReadsAs "null".toList (· = .scalar (.sound .null)) := by
  refine ⟨⟨'n', _, rfl, by decide, by decide⟩, fun rest _ => ⟨_, rfl, ?_⟩⟩
  simp [readValue, isSpace, readWord]

/-- The words for the truth values are read. -/
theorem readsAs_boolean (value : Bool) :
    ReadsAs (Value.boolean value).print (· = .scalar (.sound (.boolean value))) := by
  cases value with
  | true =>
    rw [Value.print]
    refine ⟨⟨'t', _, rfl, by decide, by decide⟩, fun rest _ => ⟨_, rfl, ?_⟩⟩
    simp [readValue, isSpace, readWord]
  | false =>
    rw [Value.print]
    refine ⟨⟨'f', _, rfl, by decide, by decide⟩, fun rest _ => ⟨_, rfl, ?_⟩⟩
    simp [readValue, isSpace, readWord]

/-- A numeral is read as the number that it denotes, if it denotes one. -/
theorem SpellsNumeral.readsAs {text : Text} {numeral : Numeral} (h : SpellsNumeral text numeral) :
    ReadsAs text (· = .scalar
      ⟨(numeral.number?.map Scalar.number).elim (.error .malformed) .ok, .ok ()⟩) := by
  obtain ⟨c, others, rfl, hc, -⟩ := h.exists_cons
  refine ⟨⟨c, others, rfl, startsItem_of_number c hc⟩, fun rest hrest => ⟨_, rfl, ?_⟩⟩
  have hnumber := h.readNumber hrest
  rw [List.cons_append] at hnumber
  rw [List.cons_append, readValue_number _ c hc, hnumber]

/-- A string is read between its marks. -/
theorem ReadsString.readsAs {quoted : Text} {holds : Spelled Text → Prop}
    (h : ReadsString quoted holds) :
    ReadsAs ('"' :: (quoted ++ ['"'])) fun reading =>
      ∃ spelled, holds spelled ∧ reading = .string spelled := by
  refine ⟨⟨'"', _, rfl, by decide, by decide⟩, fun rest _ => ?_⟩
  obtain ⟨spelled, hspelled, hread⟩ := h rest
  refine ⟨_, ⟨spelled, hspelled, rfl⟩, ?_⟩
  rw [List.cons_append, List.append_assoc, List.singleton_append, readValue_mark, hread]
  simp only [List.length_cons, List.length_append, List.length_nil]

/-! ### Sequences and maps -/

/-- What is read as a value is taken as an item. -/
theorem ReadsAs.takes {text : Text} {holds : Reading → Prop} (h : ReadsAs text holds) :
    itemsReader.Takes text holds where
  starts := by
    obtain ⟨c, rest, htext, hc⟩ := h.starts
    exact ⟨c, rest, htext, fun behind => readItems_item behind c hc⟩
  takes := by
    intro rest others count hrest hmore
    obtain ⟨reading, hreading, hread⟩ := h.reads rest hrest
    refine ⟨reading, hreading, ?_⟩
    change readItem (text ++ rest) = (.more reading others, text.length + count)
    have hothers : readMoreItems rest = (others, count) := hmore
    rw [readItem, hread]
    simp only [List.drop_left, hothers]

/-- Behind the blanks around its colon the value of an entry is read. -/
theorem readMember_append {left right value rest : Text} {reading : Reading} (hleft : Spaces left)
    (hright : Spaces right) (hvalue : readValue (value ++ rest) = (reading, value.length)) :
    readMember ((left ++ ':' :: (right ++ value)) ++ rest) =
      (reading, (left ++ ':' :: (right ++ value)).length) := by
  rw [List.append_assoc, List.cons_append, List.append_assoc, skipsSpaces_readMember.append hleft,
    readMember_colon, skipsSpaces_readValue.append hright, hvalue]
  simp only [List.length_append, List.length_cons]

/-- Behind the key and the value of an entry stand its neighbours. -/
theorem readEntry_append {quoted member rest : Text} {key : Spelled Text} {value : Reading}
    {entries : Entries} {count : Nat}
    (hkey : readString (quoted ++ '"' :: (member ++ rest)) = (key, quoted.length + 1))
    (hvalue : readMember (member ++ rest) = (value, member.length))
    (hentries : readMoreEntries rest = (entries, count)) :
    readEntry ('"' :: (quoted ++ '"' :: member) ++ rest) =
      (.more key value entries, ('"' :: (quoted ++ '"' :: member)).length + count) := by
  have hdrop : (quoted ++ '"' :: (member ++ rest)).drop (quoted.length + 1) = member ++ rest := by
    rw [← List.drop_drop, List.drop_left]
    rfl
  rw [List.cons_append, List.append_assoc, List.cons_append, readEntry, if_neg (by decide),
    if_pos rfl, hkey]
  simp only [hdrop, hvalue, List.drop_left, hentries, List.length_cons, List.length_append]
  congr 1
  omega

/-- An entry of a map: a key between its marks, a colon and a value, with blanks around the
colon. -/
inductive SpellsEntry (quoted value : Text) : Text → Prop where
  | parts {left right : Text} (hleft : Spaces left) (hright : Spaces right) :
      SpellsEntry quoted value ('"' :: (quoted ++ '"' :: (left ++ ':' :: (right ++ value))))

/-- What is read as a key and as a value is taken as an entry. -/
theorem SpellsEntry.takes {quoted value text : Text} {holdsKey : Spelled Text → Prop}
    {holds : Reading → Prop} (h : SpellsEntry quoted value text)
    (hkey : ReadsString quoted holdsKey) (hvalue : ReadsAs value holds) :
    entriesReader.Takes text fun entry => holdsKey entry.1 ∧ holds entry.2 := by
  cases h with
  | parts hleft hright =>
    refine ⟨⟨'"', _, rfl, readEntries_mark⟩, fun rest others count hrest hmore => ?_⟩
    obtain ⟨reading, hreading, hread⟩ := hvalue.reads rest hrest
    obtain ⟨key, hkey, hstring⟩ := hkey _
    exact ⟨(key, reading), ⟨hkey, hreading⟩,
      readEntry_append hstring (readMember_append hleft hright hread) hmore⟩

/-- A sequence is read as the readings of its items. -/
theorem readsAs_sequence {γ : Type} {holds : γ → Reading → Prop} {items : List γ}
    {texts : List Text} {inside : Text}
    (hitems : List.Forall₂ (fun item text => ReadsAs text (holds item)) items texts)
    (hinside : Separated texts inside) :
    ReadsAs ('[' :: (inside ++ [']'])) fun reading =>
      ∃ parts, List.Forall₂ holds items parts ∧ reading = .sequence (parts.foldr .more .done) := by
  refine ⟨⟨'[', _, rfl, by decide, by decide⟩, fun rest _ => ?_⟩
  have htakes := hitems.imp fun item text => ReadsAs.takes
  obtain ⟨parts, hparts, hread⟩ := PartsReader.exists_all_eq htakes hinside rest
  have hitemsRead : readItems (inside ++ ']' :: rest) =
      (parts.foldr .more .done, inside.length + 1) := hread
  refine ⟨_, ⟨parts, hparts, rfl⟩, ?_⟩
  rw [List.cons_append, List.append_assoc, List.singleton_append, readValue_bracket, hitemsRead]
  simp only [List.length_cons, List.length_append, List.length_nil]

/-- The entries of a map from the readings of its keys and values. -/
def entriesOf (parts : List (Spelled Text × Reading)) : Entries :=
  parts.foldr (fun entry => .more entry.1 entry.2) .done

/-- A map is read as the readings of its keys and values. -/
theorem readsAs_map {γ : Type} {holds : γ → Spelled Text × Reading → Prop} {members : List γ}
    {texts : List Text} {inside : Text}
    (hmembers : List.Forall₂ (fun member text => entriesReader.Takes text (holds member))
      members texts)
    (hinside : Separated texts inside) :
    ReadsAs ('\x7b' :: (inside ++ ['\x7d'])) fun reading =>
      ∃ parts, List.Forall₂ holds members parts ∧ reading = .map (entriesOf parts) := by
  refine ⟨⟨'\x7b', _, rfl, by decide, by decide⟩, fun rest _ => ?_⟩
  obtain ⟨parts, hparts, hread⟩ := PartsReader.exists_all_eq hmembers hinside rest
  have hentries : readEntries (inside ++ '\x7d' :: rest) = (entriesOf parts, inside.length + 1) :=
    hread
  refine ⟨_, ⟨parts, hparts, rfl⟩, ?_⟩
  rw [List.cons_append, List.append_assoc, List.singleton_append, readValue_brace, hentries]
  simp only [List.length_cons, List.length_append, List.length_nil]

/-! ### Printed values -/

/-- Behind the first of several parts the others follow without blanks. -/
theorem Separated.cons {part next inside : Text} {parts : List Text}
    (h : Separated (next :: parts) inside) :
    Separated (part :: next :: parts) (part ++ ',' :: inside) :=
  .more spaces_nil spaces_nil h

/-- A single part has no comma. -/
theorem Separated.singleton (part : Text) : Separated [part] part := by
  have h : Separated [part] ([] ++ (part ++ [])) := .last spaces_nil spaces_nil
  rwa [List.nil_append, List.append_nil] at h

/-- Printed items have a comma between neighbours, and no blanks. -/
theorem separated_printItems (items : List Value) :
    Separated (items.map Value.print) (Value.printItems items) := by
  induction items with
  | nil => exact .none spaces_nil
  | cons item items ih =>
    cases items with
    | nil => exact .singleton item.print
    | cons next items =>
      rw [Value.printItems]
      exact ih.cons

/-- The text of an entry, without blanks. -/
def Value.printEntry (entry : Text × Value) : Text :=
  printString entry.1 ++ ':' :: entry.2.print

/-- A printed entry is an entry. -/
theorem spellsEntry_printEntry (entry : Text × Value) :
    SpellsEntry (entry.1.flatMap escapedInString) entry.2.print (Value.printEntry entry) := by
  rw [Value.printEntry, printString_append]
  exact .parts spaces_nil spaces_nil

/-- Printed entries have a comma between neighbours, and no blanks. -/
theorem separated_printEntries (entries : List (Text × Value)) :
    Separated (entries.map Value.printEntry) (Value.printEntries entries) := by
  induction entries with
  | nil => exact .none spaces_nil
  | cons entry entries ih =>
    cases entries with
    | nil => exact .singleton (Value.printEntry entry)
    | cons next entries =>
      rw [Value.printEntries]
      exact ih.cons

/-- The readings of values are the items of their sequence. -/
theorem ofItems_eq (items : List Value) :
    Reading.ofItems items = (items.map Reading.ofValue).foldr .more .done := by
  induction items with
  | nil => rfl
  | cons item items ih =>
    rw [Reading.ofItems, ih]
    rfl

/-- The readings of keys and values are the entries of their map. -/
theorem ofEntries_eq (entries : List (Text × Value)) :
    Reading.ofEntries entries =
      entriesOf (entries.map fun entry => (.sound entry.1, Reading.ofValue entry.2)) := by
  induction entries with
  | nil => rfl
  | cons entry entries ih =>
    rw [Reading.ofEntries, ih]
    rfl

/-- What is found for each of several items is found for all of them. -/
theorem eq_map_of_forall₂ {α β : Type} {f : α → β} {items : List α} {parts : List β}
    (h : List.Forall₂ (fun item part => part = f item) items parts) : parts = items.map f := by
  have hmap : List.Forall₂ Eq (items.map f) parts :=
    List.forall₂_map_left_iff.mpr (h.imp fun _ _ => Eq.symm)
  rw [List.forall₂_eq_eq_eq] at hmap
  exact hmap.symm

/-- A printed value is read back, in front of what does not go on with a number. -/
theorem readsAs_print (value : Value) : ReadsAs value.print (· = Reading.ofValue value) := by
  match value with
  | .null =>
    rw [Value.print]
    exact readsAs_null
  | .boolean value => exact readsAs_boolean value
  | .number numeral =>
    rw [Value.print]
    exact (spellsNumeral_print numeral).readsAs
  | .string text =>
    rw [Value.print]
    refine (quotes_written text).readsString.readsAs.imp ?_
    rintro _ ⟨_, rfl, rfl⟩
    rfl
  | .sequence items =>
    have hitems : List.Forall₂ (fun item text => ReadsAs text (· = Reading.ofValue item)) items
        (items.map Value.print) :=
      List.forall₂_map_right_iff.mpr (List.forall₂_same.mpr fun item _ => readsAs_print item)
    rw [Value.print]
    refine (readsAs_sequence hitems (separated_printItems items)).imp ?_
    rintro _ ⟨parts, hparts, rfl⟩
    rw [eq_map_of_forall₂ hparts, Reading.ofValue, ofItems_eq]
  | .map entries =>
    have hentries : List.Forall₂ (fun entry text => entriesReader.Takes text
        fun part => part.1 = .sound entry.1 ∧ part.2 = Reading.ofValue entry.2) entries
        (entries.map Value.printEntry) := by
      refine List.forall₂_map_right_iff.mpr (List.forall₂_same.mpr ?_)
      rintro ⟨key, value⟩ hentry
      have hsize : 1 + sizeOf key + sizeOf value < sizeOf entries := List.sizeOf_lt_of_mem hentry
      exact (spellsEntry_printEntry (key, value)).takes (quotes_written key).readsString
        (readsAs_print value)
    rw [Value.print]
    refine (readsAs_map hentries (separated_printEntries entries)).imp ?_
    rintro _ ⟨parts, hparts, rfl⟩
    have hreadings : parts =
        entries.map fun entry => (.sound entry.1, Reading.ofValue entry.2) :=
      eq_map_of_forall₂ (hparts.imp fun _ _ h => Prod.ext h.1 h.2)
    rw [hreadings, Reading.ofValue, ofEntries_eq]

/-- What is made of the text of a value is made of its reading, whatever blanks stand around it. -/
theorem ReadsAs.readText {text left right : Text} {holds : Reading → Prop} (h : ReadsAs text holds)
    (hleft : Spaces left) (hright : Spaces right) :
    ∃ reading, holds reading ∧ ∀ {α : Type} (decode : Reading → Except Fault α),
      readText decode (left ++ (text ++ right)) = decode reading := by
  have hends : EndsNumber right := by
    have hspaces := endsNumber_spaces hright endsNumber_nil
    rwa [List.append_nil] at hspaces
  obtain ⟨reading, hreading, hread⟩ := h.reads right hends
  have hbehind : (left ++ (text ++ right)).drop (left.length + text.length) = right := by
    rw [← List.append_assoc]
    exact List.drop_left' List.length_append
  refine ⟨reading, hreading, fun decode => ?_⟩
  rw [Json.readText, skipsSpaces_readValue.append hleft, hread]
  simp only [hbehind, List.all_eq_true.mpr hright, if_true]
  cases decode reading <;> rfl

/-- What is made of the text of a printed value is made of its reading. -/
theorem readText_print {α : Type} (decode : Reading → Except Fault α) (value : Value) :
    readText decode value.print = decode (Reading.ofValue value) := by
  obtain ⟨_, rfl, hread⟩ := (readsAs_print value).readText spaces_nil spaces_nil
  have hdecode := hread decode
  rwa [List.nil_append, List.append_nil] at hdecode

/-! ### Nesting -/

namespace Value

mutual

/-- The number of levels of sequences and maps in a value. -/
def nesting : Value → Nat
  | .sequence items => nestingItems items + 1
  | .map entries => nestingEntries entries + 1
  | _ => 0

/-- The number of levels in the deepest of some items. -/
def nestingItems : List Value → Nat
  | [] => 0
  | item :: rest => max (nesting item) (nestingItems rest)

/-- The number of levels in the deepest of some entries. -/
def nestingEntries : List (Text × Value) → Nat
  | [] => 0
  | (_, value) :: rest => max (nesting value) (nestingEntries rest)

end

mutual

/-- Every numeral of a value denotes a number. -/
def InRange : Value → Prop
  | .number numeral => numeral.number?.isSome
  | .sequence items => InRangeItems items
  | .map entries => InRangeEntries entries
  | _ => True

/-- Every numeral of some items denotes a number. -/
def InRangeItems : List Value → Prop
  | [] => True
  | item :: rest => InRange item ∧ InRangeItems rest

/-- Every numeral of some entries denotes a number. -/
def InRangeEntries : List (Text × Value) → Prop
  | [] => True
  | (_, value) :: rest => InRange value ∧ InRangeEntries rest

end

end Value

/-- A result that is there as long as its levels fit the room. -/
def within {α : Type} (levels room : Nat) (result : α) : Except Fault α :=
  if levels ≤ room then .ok result else .error .malformed

/-- Without levels every room is enough. -/
theorem within_zero {α : Type} (room : Nat) (result : α) : within 0 room result = .ok result :=
  if_pos (Nat.zero_le room)

/-- Two results one after the other need the room of the deeper one. -/
theorem within_bind_within {α β : Type} (left right room : Nat) (first : α) (result : α → β) :
    (within left room first >>= fun first => within right room (result first)) =
      within (max left right) room (result first) := by
  simp only [within, Nat.max_le]
  by_cases hleft : left ≤ room
  · by_cases hright : right ≤ room <;> simp [hleft, hright, bind, Except.bind]
  · simp [hleft, bind, Except.bind]

/-- What is made of a result needs the same room. -/
theorem within_bind_ok {α β : Type} (levels room : Nat) (first : α) (result : α → β) :
    (within levels room first >>= fun first => .ok (result first)) =
      within levels room (result first) := by
  simp only [← within_zero room (result _), within_bind_within, Nat.max_zero]

/-- A level around a result needs room of its own. -/
theorem within_succ {α : Type} (levels room : Nat) (result : α) :
    (if room = 0 then .error .malformed else within levels (room - 1) result) =
      within (levels + 1) room result := by
  cases room with
  | zero => simp [within]
  | succ room => simp [within]

mutual

/-- A value with numbers in range is read whole just when its levels fit the room. -/
theorem settle_ofValue (room : Nat) (value : Value) (hrange : value.InRange) :
    (Reading.ofValue value).settle room = within value.nesting room () := by
  match value with
  | .null | .boolean _ | .string _ =>
    rw [Value.nesting, within_zero]
    · rfl
    all_goals exact fun _ h => Value.noConfusion h
  | .number numeral =>
    rw [Value.InRange] at hrange
    obtain ⟨number, hnumber⟩ := Option.isSome_iff_exists.mp hrange
    rw [Reading.ofValue, Reading.settle, hnumber, Value.nesting, within_zero]
    · rfl
    all_goals exact fun _ h => Value.noConfusion h
  | .sequence items =>
    rw [Value.InRange] at hrange
    rw [Reading.ofValue, Reading.settle, settleItems_ofItems (room - 1) items hrange, within_succ,
      Value.nesting]
  | .map entries =>
    rw [Value.InRange] at hrange
    rw [Reading.ofValue, Reading.settle, settleEntries_ofEntries (room - 1) entries hrange,
      within_succ, Value.nesting]

/-- Items with numbers in range are read whole just when their levels fit the room. -/
theorem settleItems_ofItems (room : Nat) (items : List Value)
    (hrange : Value.InRangeItems items) :
    Reading.settleItems room (Reading.ofItems items) =
      within (Value.nestingItems items) room () := by
  match items with
  | [] =>
    rw [Value.nestingItems, within_zero]
    rfl
  | item :: rest =>
    rw [Value.InRangeItems] at hrange
    rw [Reading.ofItems, Reading.settleItems, settle_ofValue room item hrange.1,
      settleItems_ofItems room rest hrange.2, Value.nestingItems]
    exact within_bind_within _ _ room () id

/-- Entries with numbers in range are read whole just when their levels fit the room. -/
theorem settleEntries_ofEntries (room : Nat) (entries : List (Text × Value))
    (hrange : Value.InRangeEntries entries) :
    Reading.settleEntries room (Reading.ofEntries entries) =
      within (Value.nestingEntries entries) room () := by
  match entries with
  | [] =>
    rw [Value.nestingEntries, within_zero]
    rfl
  | (_, value) :: rest =>
    rw [Value.InRangeEntries] at hrange
    rw [Reading.ofEntries, Reading.settleEntries, settle_ofValue room value hrange.1,
      settleEntries_ofEntries room rest hrange.2, Value.nestingEntries]
    exact within_bind_within _ _ room () id

end

end LuauAnnotation.Json
