import LuauAnnotation.Command.Response
import LuauAnnotation.Proofs.FirstFault

/-!
# Faults and the annotations they are quoted with

A fault of the tokenizer names the byte offset of an opener of the text that is read. The command
reports it together with the annotation as it was given, which is another text if annotations are
squeezed. The offset then counts the bytes of the squeezed text in front of the opener, and belongs to
the opener in the quoted annotation only if no blank stands in front of it.
-/

namespace LuauAnnotation

/-- A fault of an opener of a kind, with an offset. -/
inductive Fault.Blames (kind : BracketKind) (offset : Nat) : Fault → Prop where
  | nestingTooDeep (limit : Nat) : Blames kind offset (.nestingTooDeep limit offset)
  | unterminated : Blames kind offset (.unterminated kind offset)

/-- A fault whose offset is the place of an opener in the text, of the kind that the fault names if it
names one. -/
def Fault.PointsInto (text : Text) (fault : Fault) : Prop :=
  ∃ (front : Text) (kind : BracketKind) (rest : Text),
    text = front ++ kind.opener :: rest ∧ fault.Blames kind (Text.bytes front)

/-- A fault has one offset. -/
theorem Fault.Blames.offset_eq {kind other : BracketKind} {offset offset' : Nat} {fault : Fault}
    (h : fault.Blames kind offset) (h' : fault.Blames other offset') : offset = offset' := by
  cases h <;> cases h' <;> rfl

/-- The fault of an opener that offends has the place of the opener. -/
theorem blames_faultAt (settings : Settings) (text : Text) (i : Nat) (kind : BracketKind) :
    (faultAt settings text i kind).Blames kind (text.offsetAt i) := by
  rw [faultAt]
  split
  · exact .nestingTooDeep _
  · exact .unterminated

/-- A fault of the tokenizer points into the text that it reads. -/
theorem pointsInto_of_tokenize {settings : Settings} {inGroup : Bool} {text : Text} {fault : Fault}
    (h : tokenize settings inGroup text = .error fault) : fault.PointsInto text := by
  obtain ⟨_, houtcome⟩ := tokenize_outcome inGroup text
  obtain ⟨i, kind, hoffends, -, rfl⟩ := ((houtcome settings).2 fault).mp h
  obtain ⟨c, hc, hkind⟩ := Option.bind_eq_some_iff.mp hoffends.1
  obtain rfl := (BracketKind.ofOpener?_eq_some_iff c kind).mp hkind
  obtain ⟨hi, hopener⟩ := List.getElem?_eq_some_iff.mp hc
  refine ⟨text.take i, kind, text.drop (i + 1), ?_, blames_faultAt settings text i kind⟩
  rw [← hopener, List.getElem_cons_drop, List.take_append_drop]

/-! ### Openers of squeezed texts -/

namespace Text

/-- What stands in a squeezed text stands in the text, behind what is left of the text in front of
it. -/
theorem exists_of_squeeze_eq {text front rest : Text} {c : Char}
    (h : text.squeeze = front ++ c :: rest) :
    ∃ before after : Text, text = before ++ c :: after ∧ before.squeeze = front := by
  obtain ⟨left, right, rfl, hleft, hright⟩ := List.filter_eq_append_iff.mp h
  obtain ⟨blanks, after, rfl, hblanks, -, -⟩ := List.filter_eq_cons_iff.mp hright
  refine ⟨left ++ blanks, after, (List.append_assoc _ _ _).symm, ?_⟩
  have hnone : squeeze blanks = [] := List.filter_eq_nil_iff.mpr hblanks
  rw [squeeze_append, hnone, List.append_nil]
  exact hleft

/-- A squeezed text is no wider. -/
theorem bytes_squeeze_le (text : Text) : bytes text.squeeze ≤ bytes text := by
  induction text with
  | nil => exact Nat.le_refl 0
  | cons c rest ih =>
    cases hblank : isBlank c with
    | true =>
      rw [squeeze_cons_blank hblank, bytes_cons]
      omega
    | false =>
      rw [squeeze_cons hblank, bytes_cons, bytes_cons]
      omega

/-- Squeezing keeps the width of a text only if the text holds no blank. -/
theorem bytes_squeeze_eq_iff (text : Text) :
    bytes text.squeeze = bytes text ↔ ∀ c ∈ text, isBlank c = false := by
  induction text with
  | nil => simp [squeeze]
  | cons c rest ih =>
    rw [List.forall_mem_cons]
    cases hblank : isBlank c with
    | true =>
      have hle := bytes_squeeze_le rest
      have hsize := c.utf8Size_pos
      rw [squeeze_cons_blank hblank, bytes_cons]
      constructor
      · intro h
        omega
      · intro h
        cases h.1
    | false =>
      rw [squeeze_cons hblank, bytes_cons, bytes_cons, Nat.add_left_cancel_iff, ih]
      simp

end Text

/-! ### Faults of the command -/

namespace Command

namespace Options

variable {options : Options} {source : Text} {fault : Fault}

/-- The text that is read for an annotation. -/
def textOf (options : Options) (source : Text) : Text :=
  if options.squeeze then source.squeeze else source

/-- Settings that are not loaded are no fault of an annotation. -/
theorem settings_ne_untokenized (files : FileView) :
    options.settings files ≠ .error (.untokenized source fault) := by
  intro h
  rw [settings] at h
  cases hpath : options.configPath with
  | none =>
    rw [hpath] at h
    cases h
  | some path =>
    rw [hpath] at h
    cases hload : Settings.load files path with
    | error reason =>
      simp only [hload] at h
      cases h
    | ok loaded =>
      simp only [hload] at h
      cases h

/-- A record is missing for the fault of the text that is read for its annotation. -/
theorem tokenize_of_record {settings : Settings} {given : Text}
    (h : options.record settings given = .error (.untokenized source fault)) :
    given = source ∧ tokenize settings options.inGroup (options.textOf source) = .error fault := by
  cases htokenize : tokenize settings options.inGroup (options.textOf given) with
  | ok tokens =>
    unfold textOf at htokenize
    simp only [record, htokenize] at h
    cases h
  | error first =>
    have hread := htokenize
    unfold textOf at htokenize
    simp only [record, htokenize] at h
    cases h
    exact ⟨rfl, hread⟩

/-- Records end early with a fault of one of the annotations. -/
theorem tokenize_of_records {settings : Settings} {sources : List (Option Text)}
    (h : (options.records settings sources).fault = some (.untokenized source fault)) :
    some source ∈ sources ∧
      tokenize settings options.inGroup (options.textOf source) = .error fault := by
  induction sources with
  | nil => cases h
  | cons given rest ih =>
    cases given with
    | none => cases h
    | some given =>
      rw [records] at h
      cases hrecord : options.record settings given with
      | error first =>
        rw [hrecord] at h
        obtain rfl := Option.some.inj h
        obtain ⟨rfl, htokenize⟩ := tokenize_of_record hrecord
        exact ⟨List.mem_cons_self, htokenize⟩
      | ok written =>
        rw [hrecord] at h
        obtain ⟨hmem, htokenize⟩ := ih h
        exact ⟨List.mem_cons_of_mem _ hmem, htokenize⟩

/-- An opener of the text that is read is an opener of the annotation. -/
theorem exists_of_textOf_eq {front rest : Text} {kind : BracketKind}
    (h : options.textOf source = front ++ kind.opener :: rest) :
    ∃ before after : Text, source = before ++ kind.opener :: after ∧
      options.textOf before = front := by
  cases hsqueeze : options.squeeze with
  | true =>
    rw [textOf, if_pos hsqueeze] at h
    obtain ⟨before, after, hsource, hfront⟩ := Text.exists_of_squeeze_eq h
    exact ⟨before, after, hsource, (if_pos hsqueeze).trans hfront⟩
  | false =>
    have hnot : ¬ options.squeeze = true := Bool.eq_false_iff.mp hsqueeze
    rw [textOf, if_neg hnot] at h
    exact ⟨front, rest, h, if_neg hnot⟩

/-- The text that is read is as wide as the annotation if nothing is squeezed out of it. -/
theorem bytes_textOf_eq_iff (options : Options) (source : Text) :
    Text.bytes (options.textOf source) = Text.bytes source ↔
      (options.squeeze = true → ∀ c ∈ source, isBlank c = false) := by
  unfold textOf
  split
  · next hsqueeze => rw [Text.bytes_squeeze_eq_iff, imp_iff_right hsqueeze]
  · next hkept => exact iff_of_true rfl fun hsqueeze => absurd hsqueeze hkept

end Options

/-- A call that fails to tokenize an annotation quotes one of its annotations, and names an opener of
this annotation by the width of what is read in front of it. This is the place of the opener exactly
if nothing in front of it is squeezed out. -/
theorem run_untokenized (options : Options) (files : FileView) (input : List UInt8) (source : Text)
    (fault : Fault) (h : (options.run files input).fault = some (.untokenized source fault)) :
    some source ∈ options.sources input ∧
      ∃ (front : Text) (kind : BracketKind) (rest : Text), source = front ++ kind.opener :: rest ∧
        fault.Blames kind (Text.bytes (options.textOf front)) ∧
        (fault.Blames kind (Text.bytes front) ↔
          (options.squeeze = true → ∀ c ∈ front, isBlank c = false)) := by
  rw [Options.run] at h
  cases hsettings : options.settings files with
  | error reason =>
    rw [hsettings] at h
    cases h
    exact absurd hsettings (Options.settings_ne_untokenized files)
  | ok settings =>
    rw [hsettings] at h
    obtain ⟨hmem, htokenize⟩ := Options.tokenize_of_records h
    obtain ⟨front, kind, rest, htext, hblames⟩ := pointsInto_of_tokenize htokenize
    obtain ⟨before, after, hsource, rfl⟩ := Options.exists_of_textOf_eq htext
    refine ⟨hmem, before, kind, after, hsource, hblames, ?_⟩
    rw [← options.bytes_textOf_eq_iff before]
    constructor
    · intro hplace
      exact hblames.offset_eq hplace
    · intro hwidth
      rwa [← hwidth]

/-- The second annotation is quoted with its tab, and the parenthesis in it is said to stand at byte
3, where the brace stands. -/
theorem run_untokenized_tab :
    (Options.run ⟨[[' ', 'a'], ['b', ':', '\t', '{', '(']], .text, false, true, none, some 1, false,
        false⟩ (fun _ => .error .notFound) []).fault =
      some (.untokenized ['b', ':', '\t', '{', '('] (.nestingTooDeep 1 3)) ∧
    ∃ (front : Text) (kind : BracketKind) (rest : Text),
      ['b', ':', '\t', '{', '('] = front ++ kind.opener :: rest ∧
        (Fault.nestingTooDeep 1 3).Blames kind (Text.bytes front.squeeze) := by
  have hfault : (Options.run ⟨[[' ', 'a'], ['b', ':', '\t', '{', '(']], .text, false, true, none,
        some 1, false, false⟩ (fun _ => .error .notFound) []).fault =
      some (.untokenized ['b', ':', '\t', '{', '('] (.nestingTooDeep 1 3)) := by
    decide +kernel
  obtain ⟨-, front, kind, rest, hsource, hblames, -⟩ := run_untokenized _ _ _ _ _ hfault
  exact ⟨hfault, front, kind, rest, hsource, hblames⟩

/-- Squeezed and read strictly, an annotation is quoted with the blank at its start, where no bracket
stands, and the fault is said to be there. -/
theorem not_pointsInto_squeezed :
    (respond (fun _ => .error .notFound) []
        ["--normalize".toList, "--strict".toList, [' ', '(', 'a']]).complaint =
      some (.command (.untokenized [' ', '(', 'a'] (.unterminated .tuple 0))) ∧
    ¬ Fault.PointsInto [' ', '(', 'a'] (.unterminated .tuple 0) := by
  refine ⟨by decide +kernel, ?_⟩
  rintro ⟨front, kind, rest, htext, hblames⟩
  have hwidth := hblames.offset_eq .unterminated
  obtain rfl := (Text.bytes_eq_zero_iff front).mp hwidth
  obtain ⟨hopener, -⟩ := List.cons.inj htext
  cases kind <;> exact absurd hopener (by decide)

end Command

end LuauAnnotation
