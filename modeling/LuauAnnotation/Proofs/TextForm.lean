import LuauAnnotation.Proofs.FirstFault
import LuauAnnotation.Proofs.Rereading
import Mathlib.Data.List.SplitBy

/-!
# The text form against the text

But for blanks, the text form of the tokens of a text is the text itself, with two exceptions: a
group that is left open is written with a closer, and an atom without a colon at its end is cut in
front of its second colon. Atoms and open groups are described here on the whole text, by positions
and depths. The tokenizer finds its atoms piece by piece, and the characters of each piece are
accounted for where it is read.
-/

namespace LuauAnnotation

namespace Text

/-! ### Atoms of a text -/

/-- Whether a character may stand in an atom at a position. A comma may not if the text is that of
a group or an interior contains the position. -/
def atomAt (text : Text) (inGroup : Bool) (i : Nat) (c : Char) : Bool :=
  Lexeme.isAtomChar (inGroup || decide (0 < text.depthAt i)) c

/-- The characters of a piece of the text that starts at a position, each with whether it may stand
in an atom there. -/
def marksFrom (text : Text) (inGroup : Bool) : Nat → Text → List (Char × Bool)
  | _, [] => []
  | i, c :: rest => (c, text.atomAt inGroup i c) :: marksFrom text inGroup (i + 1) rest

/-- The maximal runs of characters that may stand in an atom. Every other character is a run of
its own. -/
def runsOf (marks : List (Char × Bool)) : List Text :=
  (marks.splitBy fun left right => left.2 && right.2).map (·.map Prod.fst)

/-- The atoms of a text, and the characters between them. -/
def runs (text : Text) (inGroup : Bool) : List Text := runsOf (text.marksFrom inGroup 0 text)

/-- An atom has a tail if it holds two colons and does not end with a colon. -/
def HasTail (atom : Text) : Prop := 2 ≤ atom.count ':' ∧ atom.getLast? ≠ some ':'

instance (atom : Text) : Decidable (HasTail atom) :=
  inferInstanceAs (Decidable (2 ≤ atom.count ':' ∧ atom.getLast? ≠ some ':'))

/-- What stands in front of the colon that `n` other colons precede, or the whole text if there is
none. -/
def beforeColon : Nat → Text → Text
  | _, [] => []
  | 0, c :: rest => if c = ':' then [] else c :: beforeColon 0 rest
  | n + 1, c :: rest => c :: beforeColon (if c = ':' then n else n + 1) rest

/-- An atom without its tail, which starts with the second colon. -/
def withoutTail (atom : Text) : Text := if HasTail atom then beforeColon 1 atom else atom

/-! ### Open groups of a text -/

/-- The closer that is missing for the opener at a position. -/
def missingAt? (text : Text) (i : Nat) : Option Char :=
  (text.openerAt? i).bind fun kind => if text.Unterminated i kind then some kind.closer else none

/-- The closers that are missing for openers at `n` positions. -/
def missingFrom (text : Text) (start n : Nat) : Text :=
  (List.range' start n).filterMap text.missingAt?

/-- One closer for each opener that is not terminated. -/
def missingClosers (text : Text) : Text := text.missingFrom 0 text.length

/-! ### Tails -/

/-- Without a colon there is no cut. -/
theorem beforeColon_append {left : Text} (hleft : ':' ∉ left) (n : Nat) (right : Text) :
    beforeColon n (left ++ right) = left ++ beforeColon n right := by
  induction left with
  | nil => rfl
  | cons c left ih =>
    rw [List.mem_cons, not_or] at hleft
    have hc : c ≠ ':' := Ne.symm hleft.1
    cases n with
    | zero => rw [List.cons_append, beforeColon, if_neg hc, ih hleft.2, List.cons_append]
    | succ n => rw [List.cons_append, beforeColon, if_neg hc, ih hleft.2, List.cons_append]

/-- An atom that ends with a colon has no tail. -/
theorem withoutTail_name (name : Text) : withoutTail (name ++ [':']) = name ++ [':'] := by
  simp [withoutTail, HasTail]

/-- An atom with no more than one colon has no tail. -/
theorem withoutTail_of_count_le {atom : Text} (h : atom.count ':' ≤ 1) : withoutTail atom = atom := by
  rw [withoutTail, if_neg]
  intro htail
  have hcount := htail.1
  omega

/-- The tail of an atom starts with its second colon. -/
theorem withoutTail_both (name type tail : Text) (hname : ':' ∉ name) (htype : ':' ∉ type)
    (htail : tail = [] ∨ tail.head? = some ':')
    (hlast : (':' :: (type ++ tail)).getLast? ≠ some ':') :
    withoutTail (name ++ ':' :: (type ++ tail)) = name ++ ':' :: type := by
  rcases htail with rfl | hhead
  · rw [List.append_nil]
    apply withoutTail_of_count_le
    rw [List.count_append, List.count_cons_self, List.count_eq_zero.mpr hname,
      List.count_eq_zero.mpr htype]
  · obtain ⟨more, rfl⟩ := List.head?_eq_some_iff.mp hhead
    have hcut : HasTail (name ++ ':' :: (type ++ ':' :: more)) := by
      refine ⟨?_, ?_⟩
      · simp only [List.count_append, List.count_cons_self]
        omega
      · rwa [List.getLast?_append_cons]
    rw [withoutTail, if_pos hcut, beforeColon_append hname, beforeColon, if_pos rfl]
    simp only [beforeColon_append htype, beforeColon, if_true, List.append_nil]

/-! ### Runs -/

/-- Marks of a concatenation. -/
theorem marksFrom_append (text : Text) (inGroup : Bool) (i : Nat) (left right : Text) :
    text.marksFrom inGroup i (left ++ right) =
      text.marksFrom inGroup i left ++ text.marksFrom inGroup (i + left.length) right := by
  induction left generalizing i with
  | nil => rfl
  | cons c left ih =>
    rw [List.cons_append, marksFrom, marksFrom, ih, List.cons_append, List.length_cons,
      Nat.add_assoc, Nat.add_comm 1]

/-- The runs of two parts that no run joins. -/
theorem runsOf_append {left right : List (Char × Bool)}
    (h : ∀ x ∈ left.getLast?, ∀ y ∈ right.head?, (x.2 && y.2) = false) :
    runsOf (left ++ right) = runsOf left ++ runsOf right := by
  rw [runsOf, List.splitBy_append h, List.map_append]
  rfl

/-- A character that stands in no atom is a run of its own. -/
theorem runsOf_append_cons (left right : List (Char × Bool)) (c : Char) :
    runsOf (left ++ (c, false) :: right) = runsOf left ++ [c] :: runsOf right := by
  rw [runsOf_append (by simp), ← List.singleton_append, runsOf_append (by simp)]
  rfl

/-- Characters of an atom are one run. -/
theorem runsOf_atom (run : Text) (hrun : run ≠ []) : runsOf (run.map (·, true)) = [run] := by
  have hchain : (run.map (·, true)).IsChain fun left right : Char × Bool => left.2 && right.2 := by
    apply List.Pairwise.isChain
    rw [List.pairwise_map]
    exact List.pairwise_iff_forall_sublist.mpr fun _ => rfl
  rw [runsOf, List.splitBy_of_isChain (by simpa using hrun) hchain, List.map_singleton, List.map_map]
  exact congrArg (fun run => [run]) (List.map_id run)

/-- The runs of a text make up the text. -/
theorem flatten_runs (text : Text) (inGroup : Bool) : (text.runs inGroup).flatten = text := by
  have hmarks (i : Nat) (piece : Text) : (text.marksFrom inGroup i piece).map Prod.fst = piece := by
    induction piece generalizing i with
    | nil => rfl
    | cons c rest ih => rw [marksFrom, List.map_cons, ih]
  rw [runs, runsOf, ← List.map_flatten, List.flatten_splitBy, hmarks]

/-- Where no run has a tail, the runs without their tails make up the text. -/
theorem flatMap_withoutTail_runs (text : Text) (inGroup : Bool)
    (htails : ∀ run ∈ text.runs inGroup, ¬ HasTail run) :
    (text.runs inGroup).flatMap withoutTail = text := by
  have hsame : (text.runs inGroup).map withoutTail = (text.runs inGroup).map id :=
    List.map_congr_left fun run hrun => if_neg (htails run hrun)
  rw [List.flatMap_def, hsame, List.map_id, flatten_runs]

/-! ### What is kept -/

/-- What is kept of a piece of the text that starts at a position: its runs without their tails. -/
def keptFrom (text : Text) (inGroup : Bool) (i : Nat) (piece : Text) : Text :=
  (runsOf (text.marksFrom inGroup i piece)).flatMap withoutTail

variable {text : Text} {inGroup : Bool} {i : Nat} {c : Char}

/-- A character that stands in no atom is kept, and so are the parts around it. -/
theorem keptFrom_append_cons (left rest : Text)
    (hc : text.atomAt inGroup (i + left.length) c = false) :
    text.keptFrom inGroup i (left ++ c :: rest) =
      text.keptFrom inGroup i left ++ c :: text.keptFrom inGroup (i + left.length + 1) rest := by
  have hkept : withoutTail [c] = [c] := by
    apply withoutTail_of_count_le
    exact List.count_le_length
  rw [keptFrom, marksFrom_append, marksFrom, hc, runsOf_append_cons, List.flatMap_append,
    List.flatMap_cons, hkept]
  rfl

/-- An atom in front of a piece is kept without its tail. -/
theorem keptFrom_atom {run rest : Text} (hrun : run ≠ [])
    (hmarks : text.marksFrom inGroup i run = run.map (·, true))
    (hends : ∀ d, rest.head? = some d → text.atomAt inGroup (i + run.length) d = false) :
    text.keptFrom inGroup i (run ++ rest) =
      withoutTail run ++ text.keptFrom inGroup (i + run.length) rest := by
  have hsplit : ∀ x ∈ (run.map (·, true)).getLast?,
      ∀ y ∈ (text.marksFrom inGroup (i + run.length) rest).head?, (x.2 && y.2) = false := by
    intro x _ y hy
    cases rest with
    | nil => cases hy
    | cons d rest =>
      rw [marksFrom, hends d rfl, List.head?_cons, Option.mem_some_iff] at hy
      rw [← hy, Bool.and_false]
  rw [keptFrom, marksFrom_append, hmarks, runsOf_append hsplit, runsOf_atom run hrun,
    List.flatMap_append, List.flatMap_singleton]
  rfl

/-! ### Atoms of a piece -/

variable {whole front piece here rest : Text} {depth : Nat}

/-- In a piece that interiors contain, a comma stands in no atom. -/
theorem Level.atomAt_eq {d : Char} (h : Level whole front (d :: rest) depth) (inGroup : Bool)
    (c : Char) : whole.atomAt inGroup front.length c =
      Lexeme.isAtomChar (inGroup || decide (0 < depth)) c := by
  rw [atomAt, h.depthAt_eq]

/-- Characters that open nothing are marked alike. -/
theorem Level.marksFrom_plain (h : Level whole front (here ++ rest) depth) (inGroup : Bool)
    (hplain : ∀ c ∈ here, BracketKind.ofOpener? c = none) :
    whole.marksFrom inGroup front.length here =
      here.map fun c => (c, Lexeme.isAtomChar (inGroup || decide (0 < depth)) c) := by
  induction here generalizing front with
  | nil => rfl
  | cons c here ih =>
    rw [List.forall_mem_cons] at hplain
    have hpiece : Level whole front ([c] ++ (here ++ rest)) depth := h
    obtain ⟨-, hbehind⟩ := hpiece.behind_plain (by simpa using hplain.1)
    have hothers := ih hbehind hplain.2
    rw [List.length_append, List.length_singleton] at hothers
    rw [marksFrom, hpiece.atomAt_eq, hothers, List.map_cons]

/-! ### Missing closers -/

/-- Closers that are missing in front come first. -/
theorem missingFrom_add (text : Text) (start m n : Nat) :
    text.missingFrom start (m + n) = text.missingFrom start m ++ text.missingFrom (start + m) n := by
  rw [missingFrom, ← List.range'_append_1, List.filterMap_append, missingFrom, missingFrom]

/-- The closers that are missing at one position more. -/
theorem missingFrom_succ (text : Text) (start n : Nat) :
    text.missingFrom start (n + 1) =
      (text.missingAt? start).toList ++ text.missingFrom (start + 1) n := by
  rw [Nat.add_comm, missingFrom_add, missingFrom, List.range'_one, List.filterMap_cons]
  cases text.missingAt? start <;> rfl

/-- Where no openers stand no closer is missing. -/
theorem Level.missingFrom_plain (h : Level whole front (here ++ rest) depth)
    (hplain : ∀ c ∈ here, BracketKind.ofOpener? c = none) :
    whole.missingFrom front.length (here ++ rest).length =
      whole.missingFrom (front ++ here).length rest.length := by
  have hnone : whole.missingFrom front.length here.length = [] := by
    rw [missingFrom, List.filterMap_eq_nil_iff]
    intro i hi
    rw [List.mem_range'_1] at hi
    rw [missingAt?, (h.behind_plain hplain).1 i hi.1 hi.2, Option.bind_none]
  rw [List.length_append, missingFrom_add, hnone, List.nil_append, List.length_append]

/-- The closers that are missing in a closed group are those of its interior. -/
theorem Level.missingFrom_closed {kind : BracketKind} {interior : Text}
    (h : Level whole front (kind.opener :: (interior ++ kind.closer :: rest)) depth)
    (hinterior : kind.Balanced interior) :
    whole.missingFrom front.length (kind.opener :: (interior ++ kind.closer :: rest)).length =
      whole.missingFrom (front ++ [kind.opener]).length interior.length ++
        whole.missingFrom (front ++ kind.opener :: (interior ++ [kind.closer])).length
          rest.length := by
  have hopener : whole.missingAt? front.length = none := by
    rw [missingAt?, h.openerAt?, kind.ofOpener?_opener, Option.bind_some, if_neg]
    rw [Unterminated, h.closerOf?_closed hinterior]
    exact Option.some_ne_none _
  have hcloser : whole.missingAt? (front.length + 1 + interior.length) = none := by
    rw [missingAt?, h.openerAt?_closer, Option.bind_none]
  rw [List.length_cons, List.length_append, List.length_cons, missingFrom_succ, missingFrom_add,
    missingFrom_succ, hopener, hcloser, length_append_group, List.length_append,
    List.length_singleton]
  rfl

/-- In a group that is never closed its own closer is missing. -/
theorem Level.missingFrom_unclosed {kind : BracketKind}
    (h : Level whole front (kind.opener :: rest) depth) (hrest : kind.Unclosed rest) :
    whole.missingFrom front.length (kind.opener :: rest).length =
      kind.closer :: whole.missingFrom (front ++ [kind.opener]).length rest.length := by
  have hopener : whole.missingAt? front.length = some kind.closer := by
    rw [missingAt?, h.openerAt?, kind.ofOpener?_opener, Option.bind_some, if_pos]
    exact h.closerOf?_unclosed hrest
  rw [List.length_cons, missingFrom_succ, hopener, List.length_append, List.length_singleton]
  rfl

/-- If the strict tokenizer accepts a text, no closer is missing. -/
theorem missingClosers_eq_nil {limit : UInt64} {inGroup : Bool} {text : Text} {tokens : List Token}
    (h : tokenize ⟨limit, true⟩ inGroup text = .ok tokens) : text.missingClosers = [] := by
  obtain ⟨reading, hreading⟩ := exists_reads inGroup text
  have houtcome : tokenize ⟨limit, true⟩ inGroup text =
      outcome (firstFault? ⟨limit, true⟩ text 0 text.length) reading :=
    scan_eq_outcome hreading (level_whole text)
  rw [houtcome, outcome_eq_ok_iff, firstFault?_eq_none_iff] at h
  rw [missingClosers, missingFrom, List.filterMap_eq_nil_iff]
  intro i _
  rw [missingAt?, Option.bind_eq_none_iff]
  intro kind hopener
  exact if_neg fun hopen => h.2 i kind ⟨hopener, Or.inr ⟨rfl, hopen⟩⟩

/-! ### Completed texts -/

/-- The written text holds the kept text in its order, and besides just what is missing there. -/
structure Completed (kept missing written : Text) : Prop where
  sublist : kept.Sublist written
  perm : written.Perm (kept ++ missing)

/-- What is missing may be added where nothing is kept. -/
theorem completed_missing (text : Text) : Completed [] text text :=
  ⟨List.nil_sublist text, List.Perm.refl text⟩

/-- Completed texts one after the other, with what is missing in any order. -/
theorem Completed.append {kept kept' missing missing' all written written' : Text}
    (h : Completed kept missing written) (h' : Completed kept' missing' written')
    (hall : all.Perm (missing ++ missing')) :
    Completed (kept ++ kept') all (written ++ written') := by
  refine ⟨h.sublist.append h'.sublist, List.perm_iff_count.mpr fun c => ?_⟩
  have hleft := h.perm.count_eq c
  have hright := h'.perm.count_eq c
  have hboth := hall.count_eq c
  rw [List.count_append] at hleft hright hboth
  rw [List.count_append, List.count_append, List.count_append]
  omega

/-- A completed text behind another text that misses nothing. -/
theorem Completed.behind {kept missing written : Text} (h : Completed kept missing written)
    (text : Text) : Completed (text ++ kept) missing (text ++ written) := by
  refine ⟨h.sublist.append_left text, ?_⟩
  rw [List.append_assoc]
  exact h.perm.append_left text

/-- A text that misses nothing is complete. -/
theorem Completed.eq {kept written : Text} (h : Completed kept [] written) : written = kept := by
  have hlength := h.perm.length_eq
  rw [List.append_nil] at hlength
  exact (h.sublist.eq_of_length hlength.symm).symm

end Text

/-! ### The text form without blanks -/

namespace Token

/-- Without blanks it does not matter that other tokens stand in front. -/
theorem squeeze_renderRest (tokens : List Token) :
    (renderRest tokens).squeeze = (renderAll tokens).squeeze := by
  rcases renderRest_cases tokens with h | h
  · rw [h]
  · rw [h]
    rfl

/-- Without blanks tokens are written one after the other. -/
theorem squeeze_renderAll_cons (token : Token) (rest : List Token) :
    (renderAll (token :: rest)).squeeze = (render token).squeeze ++ (renderAll rest).squeeze := by
  rw [renderAll, Text.squeeze_append, squeeze_renderRest]

/-- Without blanks parts are written one after the other. -/
theorem squeeze_renderAll_append (left right : List Token) :
    (renderAll (left ++ right)).squeeze = (renderAll left).squeeze ++ (renderAll right).squeeze := by
  induction left with
  | nil => rfl
  | cons token left ih =>
    rw [List.cons_append, squeeze_renderAll_cons, squeeze_renderAll_cons, ih, List.append_assoc]

/-- Without blanks a group is written as its interior between the brackets. -/
theorem squeeze_renderAll_bracketed (kind : BracketKind) (children rest : List Token) :
    (renderAll (.bracketed kind children :: rest)).squeeze =
      Text.squeeze [kind.opener] ++ ((renderAll children).squeeze ++
        (Text.squeeze [kind.closer] ++ (renderAll rest).squeeze)) := by
  rw [squeeze_renderAll_cons, render, List.cons_append, ← List.singleton_append,
    Text.squeeze_append, Text.squeeze_append, List.append_assoc, List.append_assoc]

/-- Without blanks the tokens of an atom are written as the atom without its tail. -/
theorem squeeze_renderAll_ofAtom (run : Text) :
    (renderAll (ofAtom run)).squeeze = (Text.withoutTail run).squeeze := by
  obtain ⟨name, rfl, htokens⟩ | ⟨hcolon, htokens⟩ |
    ⟨name, type, tail, rfl, hname, htype, htail, hlast, htokens⟩ := ofAtom_cases run
  · rw [htokens, Text.withoutTail_name]
    simp [renderAll, renderRest, render]
  · rw [htokens, Text.withoutTail_of_count_le (by simp [List.count_eq_zero.mpr hcolon])]
    simp [renderAll, renderRest, render]
  · rw [htokens, Text.withoutTail_both name type tail hname htype htail hlast,
      squeeze_renderAll_cons, squeeze_renderAll_cons, List.append_cons, Text.squeeze_append]
    simp [renderAll, render, Text.squeeze]

end Token

/-! ### Pieces of a text and their text form -/

namespace Text

variable {whole front piece here rest : Text} {depth : Nat} {inGroup : Bool}

/-- No punctuation character stands in an atom. -/
theorem atomAt_of_mem_punctuationChars {c : Char} (text : Text) (inGroup : Bool) (i : Nat)
    (hc : c ∈ Lexeme.punctuationChars) : text.atomAt inGroup i c = false :=
  Lexeme.not_isAtomChar_of_mem _ hc

/-- No blank stands in an atom. -/
theorem atomAt_of_isBlank {c : Char} (text : Text) (inGroup : Bool) (i : Nat)
    (hc : isBlank c = true) : text.atomAt inGroup i c = false :=
  Lexeme.not_isAtomChar_of_isBlank _ hc

/-- A character that stands in no atom is kept between the parts around it, if it is not blank. -/
theorem squeeze_keptFrom_append_cons {text : Text} {i : Nat} {c : Char} (left rest : Text)
    (hc : text.atomAt inGroup (i + left.length) c = false) :
    (text.keptFrom inGroup i (left ++ c :: rest)).squeeze =
      (text.keptFrom inGroup i left).squeeze ++
        (squeeze [c] ++ (text.keptFrom inGroup (i + left.length + 1) rest).squeeze) := by
  rw [keptFrom_append_cons left rest hc, squeeze_append, ← squeeze_append [c], List.singleton_append]

/-- A character that stands in no atom is kept in front of a piece, if it is not blank. -/
theorem squeeze_keptFrom_cons {text : Text} {i : Nat} {c : Char} (rest : Text)
    (hc : text.atomAt inGroup i c = false) :
    (text.keptFrom inGroup i (c :: rest)).squeeze =
      squeeze [c] ++ (text.keptFrom inGroup (i + 1) rest).squeeze :=
  squeeze_keptFrom_append_cons [] rest hc

/-- Of a lexeme its tokens are kept. -/
theorem Level.squeeze_keptFrom_lexeme {lexeme : Text} {tokens : List Token}
    (h : Level whole front (lexeme ++ rest) depth)
    (hlexeme : Lexeme.StandsFor (inGroup || decide (0 < depth)) lexeme tokens rest) :
    (whole.keptFrom inGroup front.length (lexeme ++ rest)).squeeze =
      (Token.renderAll tokens).squeeze ++
        (whole.keptFrom inGroup (front ++ lexeme).length rest).squeeze := by
  have hplain := hlexeme.ofOpener?_eq_none
  rw [List.length_append]
  cases hlexeme with
  | separator _ hgroup =>
    have hcomma : whole.atomAt inGroup front.length ',' = false := by
      rw [Level.atomAt_eq h, hgroup]
      decide
    rw [List.singleton_append, squeeze_keptFrom_cons rest hcomma]
    rfl
  | arrow =>
    have hdash := whole.atomAt_of_mem_punctuationChars inGroup front.length (by decide : '-' ∈ _)
    have hhead := whole.atomAt_of_mem_punctuationChars inGroup (front.length + 1)
      (by decide : '>' ∈ _)
    rw [List.cons_append, squeeze_keptFrom_cons _ hdash, List.singleton_append,
      squeeze_keptFrom_cons _ hhead]
    rfl
  | punctuation c _ hc _ _ =>
    have hpunctuation := whole.atomAt_of_mem_punctuationChars inGroup front.length hc
    rw [List.singleton_append, squeeze_keptFrom_cons rest hpunctuation, Token.renderAll,
      Token.render_ofPunctuation]
    rfl
  | atom _ _ hrun hchars hends =>
    -- An interior that contains the start of the atom contains all of it, and the text behind.
    have hmarks : whole.marksFrom inGroup front.length lexeme = lexeme.map (·, true) := by
      rw [h.marksFrom_plain inGroup hplain]
      exact List.map_congr_left fun c hc => by rw [hchars c hc]
    have hbehind : ∀ d, rest.head? = some d →
        whole.atomAt inGroup (front.length + lexeme.length) d = false := by
      intro d hd
      obtain ⟨others, rfl⟩ := List.head?_eq_some_iff.mp hd
      have hnext := (h.behind_plain hplain).2.atomAt_eq inGroup d
      rw [List.length_append] at hnext
      rw [hnext]
      exact hends d hd
    rw [keptFrom_atom hrun hmarks hbehind, squeeze_append, Token.squeeze_renderAll_ofAtom]

/-- Of a closed group both brackets are kept. -/
theorem squeeze_keptFrom_closed (kind : BracketKind) (interior : Text) :
    (whole.keptFrom inGroup front.length (kind.opener :: (interior ++ kind.closer :: rest))).squeeze =
      squeeze [kind.opener] ++
        ((whole.keptFrom inGroup (front ++ [kind.opener]).length interior).squeeze ++
          (squeeze [kind.closer] ++ (whole.keptFrom inGroup
            (front ++ kind.opener :: (interior ++ [kind.closer])).length rest).squeeze)) := by
  have hopener := whole.atomAt_of_mem_punctuationChars inGroup front.length
    (Lexeme.opener_mem_punctuationChars kind)
  have hcloser := whole.atomAt_of_mem_punctuationChars inGroup (front.length + 1 + interior.length)
    (Lexeme.closer_mem_punctuationChars kind)
  rw [squeeze_keptFrom_cons _ hopener, squeeze_keptFrom_append_cons interior rest hcloser,
    length_append_group, List.length_append, List.length_singleton]

/-- The text form of a piece is what is kept of the piece, with a closer for each group that is
left open in it. -/
theorem Level.completed {flag : Bool} {tokens : List Token} (h : Level whole front piece depth)
    (hreading : Reads false flag piece tokens) (hflag : flag = (inGroup || decide (0 < depth))) :
    Completed (whole.keptFrom inGroup front.length piece).squeeze
      (whole.missingFrom front.length piece.length) (Token.renderAll tokens).squeeze := by
  -- By induction on the reading, where each piece that is read on its own is a level again.
  induction hreading generalizing front depth with
  | nil => exact completed_missing []
  | @blank flag c rest tokens hblank _ ih =>
    have hplain : ∀ d ∈ [c], BracketKind.ofOpener? d = none := by
      simpa using BracketKind.ofOpener?_of_isBlank hblank
    have hpiece : Level whole front ([c] ++ rest) depth := h
    have hnone : squeeze [c] = [] := by simp [squeeze, hblank]
    have hbehind := ih (hpiece.behind_plain hplain).2 hflag
    rw [← hpiece.missingFrom_plain hplain, List.length_append, List.length_singleton] at hbehind
    rwa [squeeze_keptFrom_cons rest (whole.atomAt_of_isBlank inGroup _ hblank), hnone]
  | @lexeme flag lexeme rest here others hlexeme _ ih =>
    have hplain := hlexeme.ofOpener?_eq_none
    rw [h.squeeze_keptFrom_lexeme (hflag ▸ hlexeme), Token.squeeze_renderAll_append,
      h.missingFrom_plain hplain]
    exact (ih (h.behind_plain hplain).2 hflag).behind _
  | @closed flag interior rest children others kind hinterior _ _ ihchildren ihrest =>
    obtain ⟨hinside, hbehind⟩ := h.closed hinterior
    have hdeeper : true = (inGroup || decide (0 < depth + 1)) := by simp
    have hchildren := ihchildren hinside hdeeper
    have hrest := (ihrest hbehind hflag).behind (squeeze [kind.closer])
    rw [squeeze_keptFrom_closed, Token.squeeze_renderAll_bracketed, h.missingFrom_closed hinterior]
    exact (hchildren.append hrest (List.Perm.refl _)).behind _
  | @unclosed flag interior children kind _ hinterior _ ih =>
    have hopener := whole.atomAt_of_mem_punctuationChars inGroup front.length
      (Lexeme.opener_mem_punctuationChars kind)
    have hcloser : squeeze [kind.closer] = [kind.closer] := by cases kind <;> decide
    have hdeeper : true = (inGroup || decide (0 < depth + 1)) := by simp
    have hchildren := ih (h.unclosed hinterior) hdeeper
    -- The closer is missing at the opener, but is written behind the interior.
    have hgroup := hchildren.append (completed_missing [kind.closer])
      (List.perm_append_singleton _ _).symm
    rw [List.append_nil, List.length_append, List.length_singleton] at hgroup
    rw [squeeze_keptFrom_cons _ hopener, Token.squeeze_renderAll_bracketed,
      h.missingFrom_unclosed hinterior, hcloser, List.length_append, List.length_singleton]
    exact hgroup.behind _

end Text

/-! ### Accepted texts -/

/-- The text form of accepted tokens is the text without the tails of its atoms, with a closer for
each group that is left open. -/
theorem completed_renderAll {settings : Settings} {inGroup : Bool} {text : Text}
    {tokens : List Token} (h : tokenize settings inGroup text = .ok tokens) :
    Text.Completed (Text.squeeze ((text.runs inGroup).flatMap Text.withoutTail))
      text.missingClosers (Token.renderAll tokens).squeeze := by
  obtain ⟨hreading, -⟩ := (tokenize_eq_ok_iff settings inGroup text tokens).mp h
  exact (Text.level_whole text).completed hreading.lenient (Bool.or_false inGroup).symm

/-- No character of a text but the tails of its atoms is missing in the text form of its tokens, and
the characters stand there in the same order. What the text form holds besides is one closer for
each group that is left open, hence nothing if the strict tokenizer accepts the text. -/
theorem tokenize_squeeze_renderAll (settings : Settings) (inGroup : Bool) (text : Text)
    (tokens : List Token) (h : tokenize settings inGroup text = .ok tokens) :
    ((∀ run ∈ text.runs inGroup, ¬ Text.HasTail run) →
      text.squeeze.Sublist (Token.renderAll tokens).squeeze ∧
        (Token.renderAll tokens).squeeze.Perm (text.squeeze ++ text.missingClosers)) ∧
    ((∃ limit closed, tokenize ⟨limit, true⟩ inGroup text = .ok closed) →
      ((∀ run ∈ text.runs inGroup, ¬ Text.HasTail run) →
        (Token.renderAll tokens).squeeze = text.squeeze) ∧
      (Token.renderAll tokens).squeeze =
        Text.squeeze ((text.runs inGroup).flatMap Text.withoutTail)) := by
  have hcompleted := completed_renderAll h
  refine ⟨fun htails => ?_, fun hstrict => ?_⟩
  · rw [Text.flatMap_withoutTail_runs text inGroup htails] at hcompleted
    exact ⟨hcompleted.sublist, hcompleted.perm⟩
  · obtain ⟨limit, closed, hclosed⟩ := hstrict
    rw [Text.missingClosers_eq_nil hclosed] at hcompleted
    have hcut := hcompleted.eq
    refine ⟨fun htails => ?_, hcut⟩
    rwa [Text.flatMap_withoutTail_runs text inGroup htails] at hcut

/-- Two groups are left open in the first text, and one of the atoms in parentheses has a tail in
the second. -/
theorem tokenize_squeeze_renderAll_open_tail :
    (Text.missingClosers ['f', ':', '(', 'a', ',', ' ', '{', 'b', ':'] = [')', '}'] ∧
      (Text.squeeze ['f', ':', '(', 'a', ',', ' ', '{', 'b', ':']).Sublist
        (Token.renderAll [.identifier ['f'], .bracketed .tuple
          [.typeName ['a'], .separator, .bracketed .table [.identifier ['b']]]]).squeeze) ∧
    (Text.runs ['(', 'a', ':', 'b', ':', 'c', ',', 'd', ')'] false =
        [['('], ['a', ':', 'b', ':', 'c'], [','], ['d'], [')']] ∧
      (Token.renderAll [.bracketed .tuple
        [.identifier ['a'], .typeName ['b'], .separator, .typeName ['d']]]).squeeze =
          Text.squeeze ((Text.runs ['(', 'a', ':', 'b', ':', 'c', ',', 'd', ')'] false).flatMap
            Text.withoutTail)) := by
  have hopen : tokenize ⟨2, false⟩ false ['f', ':', '(', 'a', ',', ' ', '{', 'b', ':'] =
      .ok [.identifier ['f'], .bracketed .tuple
        [.typeName ['a'], .separator, .bracketed .table [.identifier ['b']]]] := by decide +kernel
  have hclosed : tokenize ⟨1, true⟩ false ['(', 'a', ':', 'b', ':', 'c', ',', 'd', ')'] =
      .ok [.bracketed .tuple
        [.identifier ['a'], .typeName ['b'], .separator, .typeName ['d']]] := by decide +kernel
  exact ⟨⟨by decide +kernel, ((tokenize_squeeze_renderAll _ _ _ _ hopen).1 (by decide +kernel)).1⟩,
    by decide +kernel, ((tokenize_squeeze_renderAll _ _ _ _ hclosed).2 ⟨1, _, hclosed⟩).2⟩

end LuauAnnotation
