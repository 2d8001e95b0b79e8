import LuauAnnotation.Lexeme
import LuauAnnotation.Settings

/-!
# The tokenizer

A text is read from left to right. Blanks are passed over, an opening bracket starts a group,
and anything else starts a lexeme. The interior of a group runs to the closer that balances its
opener, where brackets of other kinds do not count, and is read on its own as a text inside a
group.

The first fault from left to right ends the reading. The depth of a bracket is checked before
its closer is looked for, and its closer before the interior is read.
-/

namespace LuauAnnotation

/-- The number of characters in the interior of a group, given the text behind its opener. -/
def BracketKind.interiorSpan (kind : BracketKind) (text : Text) : Nat :=
  balancedSpan kind.opener kind.closer 0 text

/-- The tokens of a text that stands inside `depth` brackets and starts `offset` bytes into the
annotation. -/
def scan (settings : Settings) (inGroup : Bool) (depth offset : Nat) :
    Text → Except Fault (List Token)
  | [] => .ok []
  | c :: rest =>
    if isBlank c then scan settings inGroup depth (offset + c.utf8Size) rest
    else
      match BracketKind.ofOpener? c with
      | some kind =>
        let width := kind.interiorSpan rest
        if settings.maxDepth.toNat ≤ depth then
          .error (.nestingTooDeep settings.maxDepth.toNat offset)
        else if settings.strict && (rest.drop width).isEmpty then
          .error (.unterminated kind offset)
        else do
          let start := offset + c.utf8Size
          let children ← scan settings true (depth + 1) start (rest.take width)
          let others ← scan settings inGroup depth (start + Text.bytes (rest.take (width + 1)))
            (rest.drop (width + 1))
          return .bracketed kind children :: others
      | none =>
        match Lexeme.read? inGroup (c :: rest) with
        | some (tokens, n + 1) => do
          let others ← scan settings inGroup depth
            (offset + c.utf8Size + Text.bytes (rest.take n)) (rest.drop n)
          return tokens ++ others
        | _ => .error (.unclassified (some c) [] inGroup)
termination_by text => text.length
decreasing_by
  all_goals simp only [List.length_take, List.length_drop, List.length_cons]; omega

/-- The tokens of an annotation. `inGroup` says that the text is the inside of a bracket pair,
where commas separate. -/
def tokenize (settings : Settings) (inGroup : Bool) (text : Text) : Except Fault (List Token) :=
  scan settings inGroup 0 0 text

end LuauAnnotation
