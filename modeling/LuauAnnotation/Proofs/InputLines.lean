import LuauAnnotation.Command.Response
import LuauAnnotation.Proofs.Tokenizing
import Mathlib.Data.List.ReduceOption

/-!
# Annotations on the lines of the input

The command takes its annotations from the lines of its input if its arguments name none. The
lines are described here by the line feeds of the input. Up to the first line that is not UTF-8
they count as annotations, but for the blank ones, and a call that reads them answers as a call
that has them among its arguments. The line that is not UTF-8 is met only behind them, when all
their records are written.
-/

namespace LuauAnnotation.Command

/-! ### Lines by their line feeds -/

/-- A line without the carriage return at its end. -/
def dropReturn (line : List UInt8) : List UInt8 :=
  if line.getLast? = some 0x0D then line.dropLast else line

/-- An input by its line feeds: the lines that one of them ends, and what stands behind them. -/
structure Lined (input : List UInt8) (ended : List (List UInt8)) (last : List UInt8) : Prop where
  eq : input = ended.flatMap (· ++ [0x0A]) ++ last
  ended_plain : ∀ line ∈ ended, 0x0A ∉ line
  last_plain : 0x0A ∉ last

/-- The lines of an input by its line feeds. What stands behind the line feeds is a line if it is
not empty, and it keeps a carriage return. -/
def linesBy (ended : List (List UInt8)) (last : List UInt8) : List (List UInt8) :=
  ended.map dropReturn ++ if last = [] then [] else [last]

/-- A carriage return at the end of a line is behind its other bytes. -/
theorem dropReturn_cons (byte : UInt8) (line : List UInt8) (hline : line ≠ []) :
    dropReturn (byte :: line) = byte :: dropReturn line := by
  obtain ⟨next, rest, rfl⟩ := List.exists_cons_of_ne_nil hline
  rw [dropReturn, dropReturn, List.getLast?_cons_cons]
  split <;> rfl

/-- A byte that ends no line stands in front of the first line behind it. -/
theorem lines_cons (byte : UInt8) (rest : List UInt8) (hfeed : byte ≠ 0x0A)
    (hreturn : byte = 0x0D → rest.head? ≠ some 0x0A) :
    lines (byte :: rest) = (byte :: (lines rest).headD []) :: (lines rest).tail := by
  rw [lines]
  · cases lines rest <;> rfl
  · exact hfeed
  · rintro more rfl rfl
    exact hreturn rfl rfl

/-- The first line feed ends the first line. -/
theorem lines_ended (line rest : List UInt8) (hline : 0x0A ∉ line) :
    lines (line ++ 0x0A :: rest) = dropReturn line :: lines rest := by
  induction line with
  | nil => rfl
  | cons byte line ih =>
    rw [List.mem_cons, not_or] at hline
    cases line with
    | nil =>
      by_cases hreturn : byte = 0x0D
      · rw [hreturn]
        rfl
      · have hkept : dropReturn [byte] = [byte] := if_neg (by simpa using hreturn)
        rw [List.cons_append, lines_cons byte _ (Ne.symm hline.1) (absurd · hreturn), ih hline.2,
          hkept]
        rfl
    | cons next line =>
      have hnext : next ≠ 0x0A := fun hnext => hline.2 (hnext ▸ List.mem_cons_self)
      rw [List.cons_append, lines_cons byte _ (Ne.symm hline.1) fun _ => by simpa using hnext,
        ih hline.2, dropReturn_cons byte _ (List.cons_ne_nil _ _)]
      rfl

/-- Without a line feed there is at most one line. -/
theorem lines_last (last : List UInt8) (hlast : 0x0A ∉ last) :
    lines last = if last = [] then [] else [last] := by
  induction last with
  | nil => rfl
  | cons byte last ih =>
    rw [List.mem_cons, not_or] at hlast
    have hhead : last.head? ≠ some 0x0A := fun hhead => hlast.2 (List.mem_of_head? hhead)
    rw [lines_cons byte _ (Ne.symm hlast.1) fun _ => hhead, ih hlast.2,
      if_neg (List.cons_ne_nil _ _)]
    cases last <;> rfl

/-- The lines of an input are those by its line feeds. -/
theorem lines_eq {input last : List UInt8} {ended : List (List UInt8)}
    (h : Lined input ended last) : lines input = linesBy ended last := by
  obtain ⟨rfl, hended, hlast⟩ := h
  induction ended with
  | nil => exact lines_last last hlast
  | cons line ended ih =>
    rw [List.forall_mem_cons] at hended
    rw [List.flatMap_cons, List.append_assoc, List.append_assoc, List.singleton_append,
      lines_ended line _ hended.1, ih hended.2, linesBy, linesBy, List.map_cons, List.cons_append]

/-- Every input has its line feeds. -/
theorem exists_lined (input : List UInt8) : ∃ ended last, Lined input ended last := by
  induction input with
  | nil => exact ⟨[], [], rfl, by simp, by simp⟩
  | cons byte rest ih =>
    obtain ⟨ended, last, rfl, hended, hlast⟩ := ih
    by_cases hfeed : byte = 0x0A
    · refine ⟨[] :: ended, last, ?_, ?_, hlast⟩
      · rw [hfeed]
        rfl
      · exact List.forall_mem_cons.mpr ⟨by simp, hended⟩
    · cases ended with
      | nil =>
        refine ⟨[], byte :: last, rfl, by simp, ?_⟩
        rw [List.mem_cons, not_or]
        exact ⟨Ne.symm hfeed, hlast⟩
      | cons line ended =>
        rw [List.forall_mem_cons] at hended
        refine ⟨(byte :: line) :: ended, last, rfl, ?_, hlast⟩
        refine List.forall_mem_cons.mpr ⟨?_, hended.2⟩
        rw [List.mem_cons, not_or]
        exact ⟨Ne.symm hfeed, hended.1⟩

/-- The lines of an input, as its line feeds make them. -/
def HasLines (input : List UInt8) (pieces : List (List UInt8)) : Prop :=
  ∃ ended last, Lined input ended last ∧ pieces = linesBy ended last

/-- An input has its lines and no others. -/
theorem hasLines_iff (input : List UInt8) (pieces : List (List UInt8)) :
    HasLines input pieces ↔ pieces = lines input := by
  constructor
  · intro h
    obtain ⟨ended, last, hlined, rfl⟩ := h
    exact (lines_eq hlined).symm
  · intro h
    obtain ⟨ended, last, hlined⟩ := exists_lined input
    exact ⟨ended, last, hlined, h.trans (lines_eq hlined)⟩

/-! ### Lines as annotations -/

/-- The annotations on lines in front of the first that is not UTF-8: their texts without the
blank ones. -/
def readable (pieces : List (List UInt8)) : List Text :=
  ((pieces.map decode?).takeWhile Option.isSome).reduceOption.filter fun text => !text.all isBlank

/-- The annotations of the input are those on readable lines, and the first thing behind them is a
line that is not UTF-8, if there is one. -/
theorem exists_inputAnnotations_eq (input : List UInt8) :
    ∃ behind, inputAnnotations input = (readable (lines input)).map some ++ behind ∧
      ((∀ line ∈ lines input, decode? line ≠ none) ∧ behind = [] ∨
        (∃ line ∈ lines input, decode? line = none) ∧ behind.head? = some none) := by
  rw [inputAnnotations, readable]
  induction lines input with
  | nil => exact ⟨[], rfl, Or.inl ⟨by simp, rfl⟩⟩
  | cons line rest ih =>
    cases hline : decode? line with
    | none =>
      refine ⟨_, by rw [List.map_cons, hline]; rfl, Or.inr ⟨⟨line, List.mem_cons_self, hline⟩, rfl⟩⟩
    | some text =>
      obtain ⟨behind, hrest, hcases⟩ := ih
      refine ⟨behind, ?_, ?_⟩
      · rw [List.map_cons, hline, List.filter_cons, hrest, List.takeWhile_cons_of_pos rfl,
          List.reduceOption_cons_of_some, List.filter_cons]
        dsimp only
        split <;> rfl
      · rcases hcases with ⟨hall, hbehind⟩ | ⟨⟨bad, hbad, hdecode⟩, hbehind⟩
        · refine Or.inl ⟨List.forall_mem_cons.mpr ⟨?_, hall⟩, hbehind⟩
          rw [hline]
          exact Option.some_ne_none text
        · exact Or.inr ⟨⟨bad, List.mem_cons_of_mem _ hbad, hdecode⟩, hbehind⟩

/-- What the command has written when it goes on after a first part, unless that ended in a
fault. -/
def Outcome.andThen (first next : Outcome) : Outcome :=
  match first.fault with
  | some _ => first
  | none => ⟨first.output ++ next.output, next.fault⟩

namespace Options

variable {options : Options} {settings : Settings}

/-- Records are written part by part, up to a fault. -/
theorem records_append (left right : List (Option Text)) :
    options.records settings (left ++ right) =
      (options.records settings left).andThen (options.records settings right) := by
  induction left with
  | nil => rfl
  | cons source rest ih =>
    cases source with
    | none => rfl
    | some source =>
      rw [List.cons_append, records, records, ih]
      cases options.record settings source with
      | error fault => rfl
      | ok written =>
        obtain ⟨output, fault⟩ := options.records settings rest
        cases fault with
        | some fault => rfl
        | none => simp [Outcome.andThen]

/-- The records of given sources do not depend on the annotations of a call. -/
theorem records_annotations (annotations : List Text) (sources : List (Option Text)) :
    records { options with annotations } settings sources = options.records settings sources := by
  induction sources with
  | nil => rfl
  | cons source rest ih =>
    cases source with
    | none => rfl
    | some source =>
      have hrecord : record { options with annotations } settings source =
          options.record settings source := rfl
      rw [records, records, hrecord, ih]

/-- Readable lines are taken as annotations, and a line that is not UTF-8 is met behind them. -/
theorem records_inputAnnotations (input : List UInt8) :
    options.records settings (inputAnnotations input) =
      (options.records settings ((readable (lines input)).map some)).andThen
        ⟨[], if ∃ line ∈ lines input, decode? line = none then some .input else none⟩ := by
  obtain ⟨behind, hinput, ⟨hall, rfl⟩ | ⟨hbad, hbehind⟩⟩ := exists_inputAnnotations_eq input
  · have hnone : ¬ ∃ line ∈ lines input, decode? line = none := by
      rintro ⟨line, hline, hdecode⟩
      exact hall line hline hdecode
    rw [hinput, records_append, if_neg hnone]
    rfl
  · obtain ⟨more, rfl⟩ := List.head?_eq_some_iff.mp hbehind
    rw [hinput, records_append, if_pos hbad]
    rfl

/-- Without annotations of its own a call has those of its input. -/
theorem run_input (options : Options) (files : FileView) (input : List UInt8) :
    run { options with annotations := [] } files input =
      match options.settings files with
      | .error fault => ⟨[], some fault⟩
      | .ok settings => options.records settings (inputAnnotations input) := by
  have hsettings : settings { options with annotations := [] } files = options.settings files := rfl
  rw [run, hsettings]
  cases options.settings files with
  | error fault => rfl
  | ok settings => exact records_annotations [] _

/-- With annotations of its own a call does not look at its input. -/
theorem run_annotations (options : Options) (annotations : List Text) (hne : annotations ≠ [])
    (files : FileView) (input : List UInt8) :
    run { options with annotations } files input =
      match options.settings files with
      | .error fault => ⟨[], some fault⟩
      | .ok settings => options.records settings (annotations.map some) := by
  have hsettings : settings { options with annotations } files = options.settings files := rfl
  have hsources : sources { options with annotations } input = annotations.map some :=
    if_neg (by simpa using hne)
  rw [run, hsettings, hsources]
  cases options.settings files with
  | error fault => rfl
  | ok settings => exact records_annotations annotations _

end Options

/-! ### Calls -/

/-- Annotations can be put behind all the arguments that are still to be taken. -/
theorem Draft.exists_takeAll_annotations {options : Options} (more : List Text) (draft : Draft)
    (due : Option OptionName) (arguments : List Text)
    (h : draft.takeAll due arguments = .ok options) :
    ∃ given, draft.takeAll due given =
      .ok { options with annotations := options.annotations ++ more } := by
  fun_induction Draft.takeAll draft due arguments with
  | case1 => cases h
  | case2 draft =>
    cases h
    exact ⟨['-', '-'] :: more, rfl⟩
  | case3 => cases h
  | case4 draft rest option value hvalue ih =>
    obtain ⟨next, hnext, hrest⟩ := (bind_eq_ok_iff _ _ _).mp h
    obtain ⟨given, hgiven⟩ := ih next hrest
    refine ⟨value :: given, ?_⟩
    rw [takeAll, hnext]
    · exact hgiven
    · exact hvalue
  | case5 draft rest =>
    cases h
    refine ⟨['-', '-'] :: (rest ++ more), ?_⟩
    simp [takeAll, annotate]
  | case6 draft rest body hbody ih =>
    obtain ⟨⟨next, due⟩, hnext, hrest⟩ := (bind_eq_ok_iff _ _ _).mp h
    obtain ⟨given, hgiven⟩ := ih next due hrest
    refine ⟨('-' :: '-' :: body) :: given, ?_⟩
    rw [takeAll, hnext]
    · exact hgiven
    · exact hbody
  | case7 draft rest c cluster hseparator hlong ih =>
    obtain ⟨⟨next, due⟩, hnext, hrest⟩ := (bind_eq_ok_iff _ _ _).mp h
    obtain ⟨given, hgiven⟩ := ih next due hrest
    refine ⟨('-' :: c :: cluster) :: given, ?_⟩
    rw [takeAll, hnext]
    · exact hgiven
    · exact hseparator
    · exact hlong
  | case8 draft rest source hseparator hlong hshort ih =>
    obtain ⟨given, hgiven⟩ := ih h
    refine ⟨source :: given, ?_⟩
    rw [takeAll]
    · exact hgiven
    · exact hseparator
    · exact hlong
    · exact hshort

/-- The response to a call whose options are understood. -/
def Outcome.response (outcome : Outcome) : Response :=
  match outcome.fault with
  | none => ⟨0, outcome.output, none⟩
  | some fault => ⟨1, outcome.output, some (.command fault)⟩

/-- A call whose options are understood is answered with the outcome of its run. -/
theorem respond_eq_response {options : Options} (files : FileView) (input : List UInt8)
    (arguments : List Text) (h : Options.ofArguments arguments = .ok options) :
    respond files input arguments = (options.run files input).response := by
  rw [respond, h]
  rfl

/-- A call that names no annotations takes them from the lines of its input. Up to the first line
that is not UTF-8 it answers as a call that has its readable lines among its arguments: what that
call writes is written, and a fault of that call is its fault. If there is none, a line that is not
UTF-8 makes the call fail in the end. -/
theorem respond_lines (files : FileView) (input : List UInt8) (options : Options)
    (arguments : List Text)
    (harguments : Options.ofArguments arguments = .ok { options with annotations := [] }) :
    ∃ pieces, HasLines input pieces ∧
      (readable pieces ≠ [] →
        (∃ given, Options.ofArguments given =
          .ok { options with annotations := readable pieces }) ∧
        ∀ given other, Options.ofArguments given =
            .ok { options with annotations := readable pieces } →
          (respond files input arguments).output = (respond files other given).output ∧
          ((respond files other given).exitCode ≠ 0 →
            respond files input arguments = respond files other given) ∧
          ((respond files other given).exitCode = 0 →
            ((∀ line ∈ pieces, decode? line ≠ none) →
              (respond files input arguments).exitCode = 0 ∧
                (respond files input arguments).complaint = none) ∧
            ((∃ line ∈ pieces, decode? line = none) →
              (respond files input arguments).exitCode = 1 ∧
                (respond files input arguments).complaint = some (.command .input)))) ∧
      (readable pieces = [] → ∀ settings, options.settings files = .ok settings →
        respond files input arguments =
          if ∃ line ∈ pieces, decode? line = none then ⟨1, [], some (.command .input)⟩
          else ⟨0, [], none⟩) := by
  refine ⟨lines input, (hasLines_iff input _).mpr rfl, fun hne => ⟨?_, ?_⟩, ?_⟩
  · exact Draft.exists_takeAll_annotations (readable (lines input)) {} none arguments harguments
  · intro given other hgiven
    rw [respond_eq_response files input arguments harguments,
      respond_eq_response files other given hgiven, Options.run_input,
      Options.run_annotations options _ hne]
    cases options.settings files with
    | error fault => simp [Outcome.response]
    | ok settings =>
      simp only [Options.records_inputAnnotations]
      obtain ⟨output, fault⟩ := options.records settings ((readable (lines input)).map some)
      cases fault with
      | some fault => simp [Outcome.andThen, Outcome.response]
      | none =>
        refine ⟨?_, fun hfails => absurd rfl hfails, fun _ => ⟨fun hall => ?_, fun hbad => ?_⟩⟩
        · simp only [Outcome.andThen, List.append_nil]
          split <;> rfl
        · have hnone : ¬ ∃ line ∈ lines input, decode? line = none := by
            rintro ⟨line, hline, hdecode⟩
            exact hall line hline hdecode
          rw [if_neg hnone]
          exact ⟨rfl, rfl⟩
        · rw [if_pos hbad]
          exact ⟨rfl, rfl⟩
  · intro hnone settings hsettings
    rw [respond_eq_response files input arguments harguments, Options.run_input, hsettings]
    simp only [Options.records_inputAnnotations, hnone]
    split <;> rfl

/-- A blank line is passed over, a carriage return in front of a line feed is dropped, and the line
that is not UTF-8 is met when the records of the lines in front of it are written. -/
theorem respond_lines_undecodable :
    let files : FileView := fun _ => .error .notFound
    let input : List UInt8 :=
      [0x61, 0x2C, 0x0D, 0x0A, 0x20, 0x0A, 0x28, 0x62, 0x0A, 0xFF, 0x0A, 0x63]
    Options.ofArguments [['-', 'g']] =
        .ok { ({ inGroup := true } : Options) with annotations := [] } ∧
      respond files [] [['-', 'g'], ['a', ','], ['(', 'b']] = ⟨0, "a,\n(b)\n".toList, none⟩ ∧
      respond files input [['-', 'g']] = ⟨1, "a,\n(b)\n".toList, some (.command .input)⟩ := by
  intro files input
  have harguments : Options.ofArguments [['-', 'g']] =
      .ok { ({ inGroup := true } : Options) with annotations := [] } := rfl
  have hother : respond files [] [['-', 'g'], ['a', ','], ['(', 'b']] =
      ⟨0, "a,\n(b)\n".toList, none⟩ := by
    decide +kernel
  obtain ⟨pieces, hpieces, hlines, -⟩ :=
    respond_lines files input { inGroup := true } [['-', 'g']] harguments
  obtain rfl := (hasLines_iff _ _).mp hpieces
  have hreadable : readable (lines input) = [['a', ','], ['(', 'b']] := by decide +kernel
  rw [hreadable] at hlines
  obtain ⟨-, hgiven⟩ := hlines (by decide)
  obtain ⟨houtput, -, hbehind⟩ := hgiven [['-', 'g'], ['a', ','], ['(', 'b']] [] rfl
  rw [hother] at houtput hbehind
  obtain ⟨hexit, hcomplaint⟩ := (hbehind rfl).2 (by decide +kernel)
  refine ⟨harguments, hother, ?_⟩
  generalize respond files input [['-', 'g']] = response at houtput hexit hcomplaint
  obtain ⟨exitCode, output, complaint⟩ := response
  rw [Response.mk.injEq]
  exact ⟨hexit, houtput, hcomplaint⟩

/-- The words for a line that is not UTF-8. -/
example : CommandFault.input.message = "failed to read stdin: stream did not contain valid UTF-8" :=
  rfl

end LuauAnnotation.Command
