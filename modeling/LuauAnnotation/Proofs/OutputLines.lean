import LuauAnnotation.Proofs.JsonNumeral
import LuauAnnotation.Proofs.JsonString
import LuauAnnotation.Proofs.Legibility
import LuauAnnotation.Proofs.QuotedFault

/-!
# One line of output for each annotation

A call writes a line for each annotation, in the order of the annotations and up to the first that
is not read. No line break gets into a line from the annotation behind it: names hold no blanks, so
a space is the only blank of the text form, and JSON is printed without control characters.
-/

namespace LuauAnnotation

/-! ### The text form -/

namespace Token

/-- In the text form of legible tokens no blank but the space occurs. -/
theorem count_renderAll_of_isBlank {c : Char} (hblank : isBlank c = true) (hc : c ≠ ' ')
    (inGroup : Bool) (tokens : List Token) (h : LegibleAll inGroup tokens) :
    (renderAll tokens).count c = 0 := by
  have hplain {written : Text} (hwritten : written.all (!isBlank ·) = true) : c ∉ written := by
    intro hmem
    have hnot := List.all_eq_true.mp hwritten c hmem
    simp [hblank] at hnot
  have hname {inGroup : Bool} {name : Text}
      (hchars : ∀ d ∈ name, Lexeme.isAtomChar inGroup d = true) : c ∉ name := by
    intro hmem
    have hatom := hchars c hmem
    simp [Lexeme.not_isAtomChar_of_isBlank inGroup hblank] at hatom
  induction tokens using forest_induction generalizing inGroup with
  | nil => simp [renderAll]
  | leaf token rest hleaf ih =>
    rw [count_renderAll_cons c hc, ih inGroup h.2, Nat.add_zero, List.count_eq_zero]
    have htoken := h.1
    cases token with
    | punctuation d =>
      have hmarks : c ∉ ['}', ')', ']', '<', '>', '-'] := hplain (by decide)
      intro hmem
      rw [render, List.mem_singleton] at hmem
      exact hmarks (hmem ▸ htoken)
    | identifier name =>
      rw [render, List.mem_append, not_or]
      exact ⟨hname htoken, hplain (by decide)⟩
    | typeName name => exact hname htoken.2
    | bracketed kind children => cases hleaf
    | arrow | union | intersection | separator => exact hplain (by decide)
  | bracketed kind children rest ihchildren ihrest =>
    have hbracket (d : Char) (hd : d ∈ Lexeme.punctuationChars) : [d].count c = 0 :=
      List.count_eq_zero.mpr fun hmem =>
        Lexeme.ne_of_isBlank hblank hd (List.mem_singleton.mp hmem)
    rw [count_renderAll_bracketed c hc, ihchildren true h.1, ihrest inGroup h.2,
      hbracket _ (Lexeme.opener_mem_punctuationChars kind),
      hbracket _ (Lexeme.closer_mem_punctuationChars kind)]

end Token

/-! ### JSON -/

namespace Json

/-- No character of the text is a control character. -/
def Printable (text : Text) : Prop := ∀ c ∈ text, 0x20 ≤ c.toNat

/-- There is nothing to print in the empty text. -/
theorem printable_nil : Printable [] := List.forall_mem_nil _

/-- Both parts of a printable text are printable. -/
theorem printable_append {left right : Text} :
    Printable (left ++ right) ↔ Printable left ∧ Printable right :=
  List.forall_mem_append

/-- A printable text starts with a printable character. -/
theorem printable_cons {c : Char} {rest : Text} :
    Printable (c :: rest) ↔ 0x20 ≤ c.toNat ∧ Printable rest :=
  List.forall_mem_cons

/-- Decimal digits are printable. -/
theorem IsDigits.printable {digits : Text} (h : IsDigits digits) : Printable digits := by
  intro c hc
  have hdigit := h.isDigit c hc
  simp only [Char.isDigit, Bool.and_eq_true, decide_eq_true_eq] at hdigit
  exact Nat.le_trans (by decide) (UInt32.le_iff_toNat_le.mp hdigit.1)

/-- Hexadecimal digits are printable. -/
theorem printable_of_hexDigit? {c : Char} {n : Nat} (h : hexDigit? c = some n) :
    0x20 ≤ c.toNat := by
  unfold hexDigit? at h
  split at h
  · next hdigit =>
    simp only [Char.isDigit, Bool.and_eq_true, decide_eq_true_eq] at hdigit
    exact Nat.le_trans (by decide) (UInt32.le_iff_toNat_le.mp hdigit.1)
  · split at h
    · next hlower => exact Nat.le_trans (by decide) (UInt32.le_iff_toNat_le.mp hlower.1)
    · split at h
      · next hupper => exact Nat.le_trans (by decide) (UInt32.le_iff_toNat_le.mp hupper.1)
      · cases h

/-- What may stand between quotation marks needs no control characters. -/
theorem IsQuoted.printable {quoted : Text} (h : IsQuoted quoted) : Printable quoted := by
  induction h with
  | nil => exact printable_nil
  | plain c _ _ hcontrol _ ih => exact printable_cons.mpr ⟨Nat.le_of_not_lt hcontrol, ih⟩
  | short e c he _ ih =>
    have hshort : 0x20 ≤ e.toNat := by
      by_contra hlow
      unfold shortEscape? at he
      split at he <;> simp_all
    exact printable_cons.mpr ⟨by decide, printable_cons.mpr ⟨hshort, ih⟩⟩
  | code hdigits _ ih =>
    cases hdigits with
    | digits hp hq hr hs =>
      simp only [printable_cons, printable_append]
      exact ⟨by decide, by decide, ⟨printable_of_hexDigit? hp, printable_of_hexDigit? hq,
        printable_of_hexDigit? hr, printable_of_hexDigit? hs, printable_nil⟩, ih⟩

/-- A string is printed without control characters, whatever it holds. -/
theorem printable_printString (text : Text) : Printable (printString text) := by
  rw [printString, List.cons_append, printable_cons, printable_append]
  exact ⟨by decide, (quotes_written text).isQuoted.printable,
    printable_cons.mpr ⟨by decide, printable_nil⟩⟩

/-- Neither mark of an exponent is a control character. -/
theorem printable_mark {mark : Char} (h : mark = 'e' ∨ mark = 'E') : 0x20 ≤ mark.toNat := by
  rcases h with rfl | rfl <;> decide

/-- An exponent needs no control characters. -/
theorem SpellsExponent.printable {exponent : Text} {power : Option Int}
    (h : SpellsExponent exponent power) : Printable exponent := by
  cases h with
  | absent => exact printable_nil
  | unsigned hmark hdigits => exact printable_cons.mpr ⟨printable_mark hmark, hdigits.printable⟩
  | plus hmark hdigits =>
    exact printable_cons.mpr
      ⟨printable_mark hmark, printable_cons.mpr ⟨by decide, hdigits.printable⟩⟩
  | minus hmark hdigits =>
    exact printable_cons.mpr
      ⟨printable_mark hmark, printable_cons.mpr ⟨by decide, hdigits.printable⟩⟩

/-- A numeral needs no control characters. -/
theorem SpellsNumeral.printable {text : Text} {numeral : Numeral}
    (h : SpellsNumeral text numeral) : Printable text := by
  cases h with
  | parts negative hwhole _ hfraction hexponent =>
    have hsign : Printable (if negative then ['-'] else []) := by
      cases negative with
      | true => exact printable_cons.mpr ⟨by decide, printable_nil⟩
      | false => exact printable_nil
    simp only [printable_append]
    refine ⟨hsign, hwhole.printable, ?_, hexponent.printable⟩
    cases hfraction with
    | absent => exact printable_nil
    | digits hdigits => exact printable_cons.mpr ⟨by decide, hdigits.printable⟩

mutual

/-- A value is printed without control characters. -/
theorem Value.printable_print : ∀ value : Value, Printable value.print
  | .null => List.all_iff_forall_prop.mp (by decide)
  | .boolean true => List.all_iff_forall_prop.mp (by decide)
  | .boolean false => List.all_iff_forall_prop.mp (by decide)
  | .number numeral => (spellsNumeral_print numeral).printable
  | .string text => printable_printString text
  | .sequence items => by
    rw [Value.print, List.cons_append, printable_cons, printable_append]
    exact ⟨by decide, printable_printItems items, printable_cons.mpr ⟨by decide, printable_nil⟩⟩
  | .map entries => by
    rw [Value.print, List.cons_append, printable_cons, printable_append]
    exact ⟨by decide, printable_printEntries entries,
      printable_cons.mpr ⟨by decide, printable_nil⟩⟩

/-- Items are printed without control characters. -/
theorem Value.printable_printItems : ∀ items : List Value, Printable (printItems items)
  | [] => printable_nil
  | [item] => by
    rw [Value.printItems]
    exact printable_print item
  | item :: next :: rest => by
    rw [Value.printItems, printable_append, printable_cons]
    exact ⟨printable_print item, by decide, printable_printItems (next :: rest)⟩

/-- Entries are printed without control characters. -/
theorem Value.printable_printEntries : ∀ entries : List (Text × Value),
    Printable (printEntries entries)
  | [] => printable_nil
  | [(key, value)] => by
    rw [Value.printEntries, printable_append, printable_cons]
    exact ⟨printable_printString key, by decide, printable_print value⟩
  | (key, value) :: next :: rest => by
    rw [Value.printEntries]
    simp only [printable_append, printable_cons]
    exact ⟨⟨printable_printString key, by decide, printable_print value⟩, by decide,
      printable_printEntries (next :: rest)⟩

end

end Json

/-! ### Lines -/

/-- A text without a line feed and without a carriage return. -/
def Text.OnOneLine (text : Text) : Prop := '\n' ∉ text ∧ '\r' ∉ text

/-- Neither character that breaks lines can be printed in JSON. -/
theorem Json.Printable.onOneLine {text : Text} (h : Printable text) : text.OnOneLine := by
  constructor
  · exact fun hmem => absurd (h '\n' hmem) (by decide)
  · exact fun hmem => absurd (h '\r' hmem) (by decide)

namespace Command

namespace Options

variable {options : Options} {settings : Settings}

/-- What is behind the annotations that are read: nothing, an annotation that is not tokenized, or a
line that is not UTF-8. -/
inductive Stops (options : Options) (settings : Settings) :
    List (Option Text) → Option CommandFault → Prop where
  | finished : Stops options settings [] none
  | untokenized {source : Text} {rest : List (Option Text)} {fault : Fault}
      (h : tokenize settings options.inGroup (options.textOf source) = .error fault) :
      Stops options settings (some source :: rest) (some (.untokenized source fault))
  | undecodable {rest : List (Option Text)} : Stops options settings (none :: rest) (some .input)

/-- What is written for an annotation that is read, without the line feed behind it. -/
theorem record_of_tokenize {source : Text} {tokens : List Token}
    (h : tokenize settings options.inGroup (options.textOf source) = .ok tokens) :
    options.record settings source = .ok (options.write tokens ++ ['\n']) := by
  unfold textOf at h
  simp only [record, h]

/-- An annotation that is not tokenized has no record. -/
theorem record_of_tokenize_error {source : Text} {fault : Fault}
    (h : tokenize settings options.inGroup (options.textOf source) = .error fault) :
    options.record settings source = .error (.untokenized source fault) := by
  unfold textOf at h
  simp only [record, h]

/-- The tokens of an annotation are written on one line, as text and as JSON. -/
theorem onOneLine_write {text : Text} {tokens : List Token} (hformat : options.format ≠ .debug)
    (h : tokenize settings options.inGroup text = .ok tokens) :
    (options.write tokens).OnOneLine := by
  rw [write]
  cases hcase : options.format with
  | text =>
    obtain ⟨hreads, -⟩ := (tokenize_eq_ok_iff settings options.inGroup text tokens).mp h
    have hnone {c : Char} (hblank : isBlank c = true) (hc : c ≠ ' ') :
        c ∉ Token.renderAll tokens :=
      List.count_eq_zero.mp (Token.count_renderAll_of_isBlank hblank hc _ tokens hreads.legibleAll)
    exact ⟨hnone (by decide) (by decide), hnone (by decide) (by decide)⟩
  | json => exact (Json.Value.printable_print (Token.toJsonAll tokens)).onOneLine
  | debug => exact absurd hcase hformat

/-- The annotations in front of the first that is not read are written in their order, each with a
line feed behind it. -/
theorem exists_records_eq (options : Options) (settings : Settings)
    (sources : List (Option Text)) :
    ∃ (read : List (Text × List Token)) (behind : List (Option Text)),
      sources = read.map (fun entry => some entry.1) ++ behind ∧
      (∀ entry ∈ read,
        tokenize settings options.inGroup (options.textOf entry.1) = .ok entry.2) ∧
      options.Stops settings behind (options.records settings sources).fault ∧
      (options.records settings sources).output =
        read.flatMap fun entry => options.write entry.2 ++ ['\n'] := by
  induction sources with
  | nil => exact ⟨[], [], rfl, nofun, .finished, rfl⟩
  | cons source rest ih =>
    cases source with
    | none => exact ⟨[], none :: rest, rfl, nofun, .undecodable, rfl⟩
    | some source =>
      cases htokenize : tokenize settings options.inGroup (options.textOf source) with
      | error fault =>
        rw [records, record_of_tokenize_error htokenize]
        exact ⟨[], some source :: rest, rfl, nofun, .untokenized htokenize, rfl⟩
      | ok tokens =>
        obtain ⟨read, behind, rfl, hread, hstops, houtput⟩ := ih
        rw [records, record_of_tokenize htokenize]
        refine ⟨(source, tokens) :: read, behind, rfl, ?_, hstops, ?_⟩
        · exact List.forall_mem_cons.mpr ⟨htokenize, hread⟩
        · rw [List.flatMap_cons, ← houtput]

end Options

/-- A call that writes text or JSON writes one line for each annotation that it reads, in order and
up to the first that it does not read. The line is the text form or the JSON of the tokens of its
annotation alone, without line breaks, and ends with a line feed. A call whose settings are not
loaded writes nothing. -/
theorem exists_run_lines (options : Options) (files : FileView) (input : List UInt8)
    (hformat : options.format ≠ .debug) :
    match options.settings files with
    | .error fault => options.run files input = ⟨[], some fault⟩
    | .ok settings =>
      ∃ (read : List (Text × List Token)) (behind : List (Option Text)) (lines : List Text),
        options.sources input = read.map (fun entry => some entry.1) ++ behind ∧
        (∀ entry ∈ read,
          tokenize settings options.inGroup (options.textOf entry.1) = .ok entry.2) ∧
        options.Stops settings behind (options.run files input).fault ∧
        (options.format = .text → lines = read.map fun entry => Token.renderAll entry.2) ∧
        (options.format = .json → lines = read.map fun entry => (Token.toJsonAll entry.2).print) ∧
        (∀ line ∈ lines, line.OnOneLine) ∧
        (options.run files input).output = lines.flatMap fun line => line ++ ['\n'] := by
  rw [Options.run]
  cases options.settings files with
  | error fault => rfl
  | ok settings =>
    obtain ⟨read, behind, hsources, hread, hstops, houtput⟩ :=
      options.exists_records_eq settings (options.sources input)
    refine ⟨read, behind, read.map fun entry => options.write entry.2, hsources, hread, hstops,
      fun htext => ?_, fun hjson => ?_, ?_, ?_⟩
    · simp only [Options.write, htext]
    · simp only [Options.write, hjson]
    · rintro _ hline
      obtain ⟨entry, hentry, rfl⟩ := List.mem_map.mp hline
      exact Options.onOneLine_write hformat (hread entry hentry)
    · rw [houtput, List.flatMap_map]

/-- A line feed in an annotation parts two types of one line, and a bracket that is not closed ends
the output in front of the third annotation, whether text or JSON is written. -/
theorem exists_run_lines_broken :
    let annotations := [['a', '\n', 'b'], ['(', '\r'], ['c']]
    let text : Options := { annotations, strict := true }
    let json : Options := { text with format := .json }
    let files : FileView := fun _ => .error .notFound
    let fault : CommandFault := .untokenized ['(', '\r'] (.unterminated .tuple 0)
    let printed :=
      "[\x7b\"type\":\"lua_type\",\"lua_type\":\"a\"\x7d," ++
        "\x7b\"type\":\"lua_type\",\"lua_type\":\"b\"\x7d]"
    text.format ≠ .debug ∧ json.format ≠ .debug ∧
      text.run files [] = ⟨"a b\n".toList, some fault⟩ ∧
      json.run files [] = ⟨printed.toList ++ ['\n'], some fault⟩ ∧
      (∃ (read : List (Text × List Token)) (behind : List (Option Text)),
        annotations.map some = read.map (fun entry => some entry.1) ++ behind ∧
        (∀ entry ∈ read, tokenize ⟨128, true⟩ false entry.1 = .ok entry.2) ∧
        text.Stops ⟨128, true⟩ behind (some fault) ∧
        "a b\n".toList = (read.map fun entry => Token.renderAll entry.2).flatMap (· ++ ['\n'])) ∧
      ∃ (read : List (Text × List Token)) (behind : List (Option Text)),
        annotations.map some = read.map (fun entry => some entry.1) ++ behind ∧
        (∀ entry ∈ read, tokenize ⟨128, true⟩ false entry.1 = .ok entry.2) ∧
        json.Stops ⟨128, true⟩ behind (some fault) ∧
        printed.toList ++ ['\n'] =
          (read.map fun entry => (Token.toJsonAll entry.2).print).flatMap (· ++ ['\n']) := by
  intro annotations text json files fault printed
  have htext : text.run files [] = ⟨"a b\n".toList, some fault⟩ := by decide +kernel
  have hjson : json.run files [] = ⟨printed.toList ++ ['\n'], some fault⟩ := by decide +kernel
  refine ⟨by decide, by decide, htext, hjson, ?_, ?_⟩
  · obtain ⟨read, behind, lines, hsources, hread, hstops, hlines, -, -, houtput⟩ :=
      exists_run_lines text files [] (by decide)
    rw [htext] at hstops houtput
    exact ⟨read, behind, hsources, hread, hstops, hlines rfl ▸ houtput⟩
  · obtain ⟨read, behind, lines, hsources, hread, hstops, -, hlines, -, houtput⟩ :=
      exists_run_lines json files [] (by decide)
    rw [hjson] at hstops houtput
    exact ⟨read, behind, hsources, hread, hstops, hlines rfl ▸ houtput⟩

end Command

end LuauAnnotation
