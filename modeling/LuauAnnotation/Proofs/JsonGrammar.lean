import LuauAnnotation.Proofs.JsonReader

/-!
# Whatever is JSON is passed over

The grammar of JSON says what a value may look like: blanks stand wherever they may, and strings and
numbers are spelled in any way. Each value of the grammar is read and passed over without a fault,
however deep it nests and even where it denotes nothing. A map is given by its members, names with
the texts of their values, where a key may spell its name in any way.
-/

namespace LuauAnnotation.Json

/-! ### Values -/

/-- The text of a JSON value, from its first character to its last. -/
inductive IsValue : Text → Prop where
  | null : IsValue Value.null.print
  | boolean (value : Bool) : IsValue (Value.boolean value).print
  | number {text : Text} {numeral : Numeral} (h : SpellsNumeral text numeral) : IsValue text
  | string {quoted : Text} (h : IsQuoted quoted) : IsValue ('"' :: (quoted ++ ['"']))
  | sequence {items : List Text} {inside : Text} (hitems : ∀ item ∈ items, IsValue item)
      (hinside : Separated items inside) : IsValue ('[' :: (inside ++ [']']))
  | map {entries : List (Text × Text)} {texts : List Text} {inside : Text}
      (hkeys : ∀ entry ∈ entries, IsQuoted entry.1) (hvalues : ∀ entry ∈ entries, IsValue entry.2)
      (hentries : List.Forall₂ (fun entry text => SpellsEntry entry.1 entry.2 text) entries texts)
      (hinside : Separated texts inside) : IsValue ('\x7b' :: (inside ++ ['\x7d']))

/-- What is printed is JSON. -/
theorem isValue_print (value : Value) : IsValue value.print := by
  match value with
  | .null => exact .null
  | .boolean value => exact .boolean value
  | .number numeral =>
    rw [Value.print]
    exact .number (spellsNumeral_print numeral)
  | .string text =>
    rw [Value.print]
    exact .string (quotes_written text).isQuoted
  | .sequence items =>
    have hitems : ∀ text ∈ items.map Value.print, IsValue text := by
      intro text htext
      obtain ⟨item, hitem, rfl⟩ := List.mem_map.mp htext
      exact isValue_print item
    rw [Value.print]
    exact .sequence hitems (separated_printItems items)
  | .map entries =>
    have hentries : List.Forall₂ (fun entry text => SpellsEntry entry.1 entry.2 text)
        (entries.map fun entry => (entry.1.flatMap escapedInString, entry.2.print))
        (entries.map Value.printEntry) := by
      rw [List.forall₂_map_left_iff, List.forall₂_map_right_iff, List.forall₂_same]
      exact fun entry _ => spellsEntry_printEntry entry
    rw [Value.print]
    refine .map ?_ ?_ hentries (separated_printEntries entries)
    · intro entry hentry
      obtain ⟨⟨key, value⟩, -, rfl⟩ := List.mem_map.mp hentry
      exact (quotes_written key).isQuoted
    · intro entry hentry
      obtain ⟨⟨key, value⟩, hmem, rfl⟩ := List.mem_map.mp hentry
      have hsize : 1 + sizeOf key + sizeOf value < sizeOf entries := List.sizeOf_lt_of_mem hmem
      exact isValue_print value

/-- Items that are passed over are passed over together. -/
theorem passItems_foldr {γ : Type} {items : List γ} {parts : List Reading}
    (h : List.Forall₂ (fun _ part => part.pass = .ok ()) items parts) :
    Reading.passItems (parts.foldr .more .done) = .ok () := by
  induction h with
  | nil => rfl
  | cons hfirst _ ih =>
    rw [List.foldr_cons, Reading.passItems, hfirst]
    exact ih

/-- Entries that are passed over are passed over together. -/
theorem passEntries_entriesOf {γ : Type} {entries : List γ}
    {parts : List (Spelled Text × Reading)}
    (h : List.Forall₂ (fun _ part => part.1.passed = .ok () ∧ part.2.pass = .ok ()) entries
      parts) :
    Reading.passEntries (entriesOf parts) = .ok () := by
  induction h with
  | nil => rfl
  | cons hfirst _ ih =>
    rw [entriesOf, List.foldr_cons, Reading.passEntries, hfirst.1]
    change (Reading.pass _ >>= fun _ => Reading.passEntries _) = _
    rw [hfirst.2]
    exact ih

/-- Whatever is JSON is passed over without a fault. -/
theorem IsValue.readsAs {text : Text} (h : IsValue text) : ReadsAs text (·.pass = .ok ()) := by
  induction h with
  | null =>
    refine (readsAs_print .null).imp ?_
    rintro _ rfl
    rfl
  | boolean value =>
    refine (readsAs_print (.boolean value)).imp ?_
    rintro _ rfl
    rfl
  | number h =>
    refine h.readsAs.imp ?_
    rintro _ rfl
    rfl
  | string h =>
    refine h.readsString.readsAs.imp ?_
    rintro _ ⟨spelled, hspelled, rfl⟩
    exact hspelled
  | sequence _ hinside ih =>
    refine (readsAs_sequence (List.forall₂_same.mpr ih) hinside).imp ?_
    rintro _ ⟨parts, hparts, rfl⟩
    exact passItems_foldr hparts
  | @map entries texts _ hkeys _ hentries hinside ih =>
    have htakes : List.Forall₂ (fun _ text => entriesReader.Takes text
        fun part => part.1.passed = .ok () ∧ part.2.pass = .ok ()) entries texts := by
      refine List.Forall₂.imp ?_ ((List.forall₂_and_left _ _).mpr
        ⟨fun entry hentry => And.intro (hkeys entry hentry) (ih entry hentry), hentries⟩)
      rintro entry text ⟨⟨hkey, hvalue⟩, hentry⟩
      exact hentry.takes hkey.readsString hvalue
    refine (readsAs_map htakes hinside).imp ?_
    rintro _ ⟨parts, hparts, rfl⟩
    exact passEntries_entriesOf hparts

/-! ### Maps by their members -/

/-- A map with the given members, names and the texts of their values, in their order. -/
inductive SpellsMap (members : List (Text × Text)) : Text → Prop where
  | parts {texts : List Text} {left inside right : Text}
      (hentries : List.Forall₂ (fun member text => ∃ quoted, Quotes quoted member.1 ∧
        SpellsEntry quoted member.2 text) members texts)
      (hinside : Separated texts inside) (hleft : Spaces left) (hright : Spaces right) :
      SpellsMap members (left ++ ('\x7b' :: (inside ++ ['\x7d']) ++ right))

/-- The compact form of a map has its entries as members. -/
theorem spellsMap_print (entries : List (Text × Value)) :
    SpellsMap (entries.map fun entry => (entry.1, entry.2.print)) (Value.map entries).print := by
  have hentries : List.Forall₂ (fun member text => ∃ quoted, Quotes quoted member.1 ∧
      SpellsEntry quoted member.2 text) (entries.map fun entry => (entry.1, entry.2.print))
      (entries.map Value.printEntry) := by
    rw [List.forall₂_map_left_iff, List.forall₂_map_right_iff, List.forall₂_same]
    exact fun entry _ => ⟨_, quotes_written entry.1, spellsEntry_printEntry entry⟩
  have hspells := SpellsMap.parts hentries (separated_printEntries entries) spaces_nil spaces_nil
  rw [List.nil_append, List.append_nil] at hspells
  rw [Value.print]
  exact hspells

/-- What is made of the text of a map is made of its names and of readings of its values. -/
theorem SpellsMap.readText {members : List (Text × Text)} {text : Text}
    {holds : Text × Text → Reading → Prop} (h : SpellsMap members text)
    (hmembers : ∀ member ∈ members, ReadsAs member.2 (holds member)) :
    ∃ parts, List.Forall₂ (fun member part => part.1 = .sound member.1 ∧ holds member part.2)
        members parts ∧
      ∀ {α : Type} (decode : Reading → Except Fault α),
        readText decode text = decode (.map (entriesOf parts)) := by
  cases h with
  | @parts texts _ _ _ hentries hinside hleft hright =>
    have htakes : List.Forall₂ (fun member text => entriesReader.Takes text
        fun part => part.1 = .sound member.1 ∧ holds member part.2) members texts := by
      refine List.Forall₂.imp ?_ ((List.forall₂_and_left _ _).mpr ⟨hmembers, hentries⟩)
      rintro member text ⟨hvalue, quoted, hquoted, hentry⟩
      exact hentry.takes hquoted.readsString hvalue
    obtain ⟨_, ⟨parts, hparts, rfl⟩, hread⟩ :=
      (readsAs_map htakes hinside).readText hleft hright
    exact ⟨parts, hparts, hread⟩

end LuauAnnotation.Json
