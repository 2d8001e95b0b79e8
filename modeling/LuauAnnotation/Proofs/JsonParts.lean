import LuauAnnotation.Proofs.JsonNumeral
import LuauAnnotation.Proofs.JsonString
import Mathlib.Data.List.Forall2

/-!
# The parts of a list or map are read

Each reader takes one character and hands the rest on, and passes over the blanks where they may
stand. The items of a sequence and the entries of a map are read in the same way, with a comma or a
closing bracket behind each and blanks around, so that one law holds for both: parts that are taken
one by one, whatever follows them, are all taken up to the closing bracket.
-/

namespace LuauAnnotation.Json

/-! ### One character -/

/-- A character that starts an item of a sequence, where a value is due. -/
def StartsItem (c : Char) : Prop := isSpace c = false ∧ c ≠ ']'

/-- A minus sign or a digit is no blank and closes nothing. -/
theorem startsItem_of_number (c : Char) (hc : (c == '-' || c.isDigit) = true) : StartsItem c := by
  have hne : ∀ d : Char, (d == '-' || d.isDigit) = false → c ≠ d := by
    rintro d hd rfl
    exact Bool.noConfusion (hc.symm.trans hd)
  refine ⟨?_, hne _ (by decide)⟩
  rw [isSpace, beq_false_of_ne (hne ' ' (by decide)), beq_false_of_ne (hne '\n' (by decide)),
    beq_false_of_ne (hne '\t' (by decide)), beq_false_of_ne (hne '\r' (by decide))]
  rfl

/-- What closes a list or map, or leads to its next part, does not go on with a number. -/
theorem endsNumber_cons {c : Char} (hc : c = ',' ∨ c = ']' ∨ c = '\x7d') (rest : Text) :
    EndsNumber (c :: rest) := by
  rcases hc with rfl | rfl | rfl <;>
    exact ⟨fun _ h => by cases h; decide, fun _ h => by cases h; decide⟩

/-- Nothing does not go on with a number. -/
theorem endsNumber_nil : EndsNumber [] := ⟨fun _ h => (by cases h), fun _ h => (by cases h)⟩

section

variable (rest : Text)

/-- A bracket leads into the items of a sequence. -/
theorem readValue_bracket :
    readValue ('[' :: rest) = (.sequence (readItems rest).1, (readItems rest).2 + 1) := by
  rw [readValue]
  rfl

/-- A brace leads into the entries of a map. -/
theorem readValue_brace :
    readValue ('\x7b' :: rest) = (.map (readEntries rest).1, (readEntries rest).2 + 1) := by
  rw [readValue]
  rfl

/-- A quotation mark leads into a string. -/
theorem readValue_mark :
    readValue ('"' :: rest) = (.string (readString rest).1, (readString rest).2 + 1) := by
  rw [readValue]
  rfl

/-- A minus sign or a digit starts a number. -/
theorem readValue_number (c : Char) (hc : (c == '-' || c.isDigit) = true) :
    readValue (c :: rest) =
      (.scalar (readNumber (c :: rest)).1, (readNumber (c :: rest)).2) := by
  rw [readValue, if_neg (by simp [(startsItem_of_number c hc).1]), if_pos hc]
  all_goals
    rintro rfl
    exact absurd hc (by decide)

/-- A closing bracket leaves a sequence empty. -/
theorem readItems_close : readItems (']' :: rest) = (.done, 1) := by
  rw [readItems]
  rfl

/-- Any other character than a blank leads to the first item. -/
theorem readItems_item (c : Char) (hc : StartsItem c) :
    readItems (c :: rest) = readItem (c :: rest) := by
  rw [readItems, if_neg (by simp [hc.1]), if_neg hc.2]

/-- A closing bracket ends a sequence behind its items. -/
theorem readMoreItems_close : readMoreItems (']' :: rest) = (.done, 1) := by
  rw [readMoreItems]
  rfl

/-- A comma leads to the next item. -/
theorem readMoreItems_comma :
    readMoreItems (',' :: rest) = ((readItem rest).1, (readItem rest).2 + 1) := by
  rw [readMoreItems]
  rfl

/-- A closing brace leaves a map empty. -/
theorem readEntries_close : readEntries ('\x7d' :: rest) = (.done, 1) := by
  rw [readEntries]
  rfl

/-- A quotation mark starts an entry. -/
theorem readEntries_mark : readEntries ('"' :: rest) = readEntry ('"' :: rest) := by
  rw [readEntries]
  rfl

/-- A closing brace ends a map behind its entries. -/
theorem readMoreEntries_close : readMoreEntries ('\x7d' :: rest) = (.done, 1) := by
  rw [readMoreEntries]
  rfl

/-- A comma leads to the next entry. -/
theorem readMoreEntries_comma :
    readMoreEntries (',' :: rest) = ((readEntry rest).1, (readEntry rest).2 + 1) := by
  rw [readMoreEntries]
  rfl

/-- A colon leads to the value of an entry. -/
theorem readMember_colon :
    readMember (':' :: rest) = ((readValue rest).1, (readValue rest).2 + 1) := by
  rw [readMember]
  rfl

end

/-! ### Blanks -/

/-- A run of blanks. -/
def Spaces (text : Text) : Prop := ∀ c ∈ text, isSpace c = true

/-- Nothing is a run of no blanks. -/
theorem spaces_nil : Spaces [] := List.forall_mem_nil _

/-- A way to read that passes over a blank in front. -/
def SkipsSpaces {α : Type} (read : Text → α × Nat) : Prop :=
  ∀ c rest, isSpace c = true → read (c :: rest) = ((read rest).1, (read rest).2 + 1)

/-- Whatever passes over a blank passes over a run of them. -/
theorem SkipsSpaces.append {α : Type} {read : Text → α × Nat} (h : SkipsSpaces read)
    {spaces : Text} (hspaces : Spaces spaces) (rest : Text) :
    read (spaces ++ rest) = ((read rest).1, spaces.length + (read rest).2) := by
  induction spaces with
  | nil => rw [List.nil_append, List.length_nil, Nat.zero_add]
  | cons c spaces ih =>
    have hc := hspaces c List.mem_cons_self
    rw [List.cons_append, h c _ hc, ih fun d hd => hspaces d (List.mem_cons_of_mem c hd),
      List.length_cons, Nat.add_right_comm]

/-- Blanks stand in front of a value. -/
theorem skipsSpaces_readValue : SkipsSpaces readValue := by
  intro c rest hc
  rw [readValue, if_pos hc]
  all_goals
    rintro rfl
    exact absurd hc (by decide)

/-- Blanks stand behind an opening bracket. -/
theorem skipsSpaces_readItems : SkipsSpaces readItems := by
  intro c rest hc
  rw [readItems, if_pos hc]

/-- Blanks stand in front of an item. -/
theorem skipsSpaces_readItem : SkipsSpaces readItem := by
  intro c rest hc
  rw [readItem, readItem, skipsSpaces_readValue c rest hc]
  simp only [List.drop_succ_cons, Nat.add_right_comm]

/-- Blanks stand behind an item. -/
theorem skipsSpaces_readMoreItems : SkipsSpaces readMoreItems := by
  intro c rest hc
  rw [readMoreItems, if_pos hc]

/-- Blanks stand behind an opening brace. -/
theorem skipsSpaces_readEntries : SkipsSpaces readEntries := by
  intro c rest hc
  rw [readEntries, if_pos hc]

/-- Blanks stand in front of an entry. -/
theorem skipsSpaces_readEntry : SkipsSpaces readEntry := by
  intro c rest hc
  rw [readEntry, if_pos hc]

/-- Blanks stand behind an entry. -/
theorem skipsSpaces_readMoreEntries : SkipsSpaces readMoreEntries := by
  intro c rest hc
  rw [readMoreEntries, if_pos hc]

/-- Blanks stand in front of the colon of an entry. -/
theorem skipsSpaces_readMember : SkipsSpaces readMember := by
  intro c rest hc
  rw [readMember, if_pos hc]

/-- A blank does not go on with a number. -/
theorem endsNumber_spaces {spaces rest : Text} (hspaces : Spaces spaces)
    (hrest : EndsNumber rest) : EndsNumber (spaces ++ rest) := by
  cases spaces with
  | nil => exact hrest
  | cons c spaces =>
    have hc := hspaces c List.mem_cons_self
    simp only [isSpace, Bool.or_eq_true, beq_iff_eq] at hc
    obtain ((rfl | rfl) | rfl) | rfl := hc <;>
      exact ⟨fun _ h => by cases h; decide, fun _ h => by cases h; decide⟩

/-! ### Parts with commas between -/

/-- Texts one after the other, with a comma between neighbours and blanks around each. -/
inductive Separated : List Text → Text → Prop where
  | none {spaces : Text} (hspaces : Spaces spaces) : Separated [] spaces
  | last {left right part : Text} (hleft : Spaces left) (hright : Spaces right) :
      Separated [part] (left ++ (part ++ right))
  | more {left right part next inside : Text} {parts : List Text} (hleft : Spaces left)
      (hright : Spaces right) (hinside : Separated (next :: parts) inside) :
      Separated (part :: next :: parts) (left ++ (part ++ (right ++ ',' :: inside)))

/-- In front of the first part stand only blanks. -/
theorem Separated.exists_eq_append {part inside : Text} {parts : List Text}
    (h : Separated (part :: parts) inside) :
    ∃ left behind, Spaces left ∧ inside = left ++ (part ++ behind) := by
  cases h with
  | last hleft _ => exact ⟨_, _, hleft, rfl⟩
  | more hleft _ _ => exact ⟨_, _, hleft, rfl⟩

/-- A way to read the parts of a list or map up to its closing character: all of them, from the
first one on, or behind one. -/
structure PartsReader (α β : Type) where
  closer : Char
  all : Text → β × Nat
  first : Text → β × Nat
  more : Text → β × Nat
  done : β
  cons : α → β → β
  skips_all : SkipsSpaces all
  skips_first : SkipsSpaces first
  skips_more : SkipsSpaces more
  endsNumber_closer : ∀ rest, EndsNumber (closer :: rest)
  all_closer : ∀ rest, all (closer :: rest) = (done, 1)
  more_closer : ∀ rest, more (closer :: rest) = (done, 1)
  more_comma : ∀ rest, more (',' :: rest) = ((first rest).1, (first rest).2 + 1)

namespace PartsReader

variable {α β γ : Type} (reader : PartsReader α β)

/-- A text is taken as one part with a property, whatever parts follow. -/
structure Takes (text : Text) (holds : α → Prop) : Prop where
  starts : ∃ c rest, text = c :: rest ∧ ∀ behind, reader.all (c :: behind) =
    reader.first (c :: behind)
  takes : ∀ rest others count, EndsNumber rest → reader.more rest = (others, count) →
    ∃ part, holds part ∧
      reader.first (text ++ rest) = (reader.cons part others, text.length + count)

variable {reader}

/-- Behind the last part the closing character is found. -/
theorem more_spaces_closer {spaces : Text} (hspaces : Spaces spaces) (rest : Text) :
    reader.more (spaces ++ reader.closer :: rest) = (reader.done, spaces.length + 1) := by
  rw [reader.skips_more.append hspaces, reader.more_closer]

/-- Separated parts are taken one by one, from the first to the closing character. -/
theorem exists_first_eq {holds : γ → α → Prop} {items : List γ} {texts : List Text} {inside : Text}
    (hitems : List.Forall₂ (fun item text => reader.Takes text (holds item)) items texts)
    (hinside : Separated texts inside) (hsome : texts ≠ []) (rest : Text) :
    ∃ parts, List.Forall₂ holds items parts ∧ reader.first (inside ++ reader.closer :: rest) =
      (parts.foldr reader.cons reader.done, inside.length + 1) := by
  -- What follows a part has to be read before the part can be taken.
  induction hinside generalizing items with
  | none _ => exact absurd rfl hsome
  | @last left right text hleft hright =>
    obtain ⟨item, _, hitem, hnone, rfl⟩ := List.forall₂_cons_right_iff.mp hitems
    cases hnone
    obtain ⟨part, hpart, hfirst⟩ := hitem.takes _ _ _
      (endsNumber_spaces hright (reader.endsNumber_closer rest)) (more_spaces_closer hright rest)
    refine ⟨[part], .cons hpart .nil, ?_⟩
    rw [List.append_assoc, List.append_assoc, reader.skips_first.append hleft, hfirst]
    simp only [List.foldr_cons, List.foldr_nil, List.length_append, Nat.add_assoc]
  | @more left right text next inside texts hleft hright _ ih =>
    obtain ⟨item, items, hitem, hothers, rfl⟩ := List.forall₂_cons_right_iff.mp hitems
    obtain ⟨parts, hparts, hfirst⟩ := ih hothers (List.cons_ne_nil _ _)
    have hmore : reader.more (right ++ ',' :: (inside ++ reader.closer :: rest)) =
        (parts.foldr reader.cons reader.done, right.length + (inside.length + 1 + 1)) := by
      rw [reader.skips_more.append hright, reader.more_comma, hfirst]
    obtain ⟨part, hpart, hfirst⟩ := hitem.takes _ _ _
      (endsNumber_spaces hright (endsNumber_cons (.inl rfl) _)) hmore
    refine ⟨part :: parts, .cons hpart hparts, ?_⟩
    rw [List.append_assoc, List.append_assoc, List.append_assoc, List.cons_append,
      reader.skips_first.append hleft, hfirst]
    simp only [List.foldr_cons, List.length_append, List.length_cons, Nat.add_assoc]

/-- Separated parts are all taken, up to and with the closing character. -/
theorem exists_all_eq {holds : γ → α → Prop} {items : List γ} {texts : List Text} {inside : Text}
    (hitems : List.Forall₂ (fun item text => reader.Takes text (holds item)) items texts)
    (hinside : Separated texts inside) (rest : Text) :
    ∃ parts, List.Forall₂ holds items parts ∧ reader.all (inside ++ reader.closer :: rest) =
      (parts.foldr reader.cons reader.done, inside.length + 1) := by
  cases texts with
  | nil =>
    cases hinside with
    | none hspaces =>
      cases hitems
      refine ⟨[], .nil, ?_⟩
      rw [reader.skips_all.append hspaces, reader.all_closer]
      rfl
  | cons text texts =>
    obtain ⟨parts, hparts, hfirst⟩ := exists_first_eq hitems hinside (List.cons_ne_nil _ _) rest
    obtain ⟨left, behind, hleft, rfl⟩ := hinside.exists_eq_append
    obtain ⟨item, items, hitem, -, rfl⟩ := List.forall₂_cons_right_iff.mp hitems
    obtain ⟨c, others, rfl, hstarts⟩ := hitem.starts
    refine ⟨parts, hparts, ?_⟩
    -- Behind the blanks in front, both ways to read start with the first part.
    rw [← hfirst, List.append_assoc, List.append_assoc, reader.skips_all.append hleft,
      reader.skips_first.append hleft, List.cons_append, hstarts]

end PartsReader

/-! ### Items and entries -/

/-- The items of a sequence are read as parts. -/
def itemsReader : PartsReader Reading Items where
  closer := ']'
  all := readItems
  first := readItem
  more := readMoreItems
  done := .done
  cons := .more
  skips_all := skipsSpaces_readItems
  skips_first := skipsSpaces_readItem
  skips_more := skipsSpaces_readMoreItems
  endsNumber_closer := endsNumber_cons (by decide)
  all_closer := readItems_close
  more_closer := readMoreItems_close
  more_comma := readMoreItems_comma

/-- The entries of a map are read as parts. -/
def entriesReader : PartsReader (Spelled Text × Reading) Entries where
  closer := '\x7d'
  all := readEntries
  first := readEntry
  more := readMoreEntries
  done := .done
  cons := fun entry => .more entry.1 entry.2
  skips_all := skipsSpaces_readEntries
  skips_first := skipsSpaces_readEntry
  skips_more := skipsSpaces_readMoreEntries
  endsNumber_closer := endsNumber_cons (by decide)
  all_closer := readEntries_close
  more_closer := readMoreEntries_close
  more_comma := readMoreEntries_comma

end LuauAnnotation.Json
