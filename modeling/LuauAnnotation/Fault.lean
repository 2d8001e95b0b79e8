import LuauAnnotation.Bracket
import LuauAnnotation.Text.Quoted

/-!
# Faults

A fault is the cause for which an annotation is not read or settings are not accepted. Each
cause has one message, and an outline that shows its parts.
-/

namespace LuauAnnotation

/-- Why no result was given. Offsets count bytes from the start of the annotation. -/
inductive Fault where
  /-- A matcher found something other than what it looks for. -/
  | expected (what : String)
  /-- A character, or the end of the input, starts no token. -/
  | unclassified (character : Option Char) (buffer : Text) (inGroup : Bool)
  /-- A bracket opens below the deepest level that the settings admit. -/
  | nestingTooDeep (limit offset : Nat)
  /-- A bracket is never closed and the settings ask for its closer. -/
  | unterminated (kind : BracketKind) (offset : Nat)
  /-- Settings could not be loaded. -/
  | settings (reason : String)
deriving DecidableEq

namespace Fault

/-- The message for readers. -/
def message : Fault → String
  | .expected what => s!"expected {what}"
  | .unclassified character buffer inGroup =>
    let found := match character with
      | some c => String.ofList (quotedChar c)
      | none => "end of input"
    let rest := String.ofList (quotedText buffer)
    s!"reached bottom of tokenizer with no match: {found} {rest} (group: {inGroup})"
  | .nestingTooDeep limit offset =>
    s!"brackets nested deeper than {limit} levels at byte {offset}"
  | .unterminated kind offset => s!"unterminated {kind.name} opened at byte {offset}"
  | .settings reason => s!"invalid tokenizer config: {reason}"

/-- The parts of a fault by name. -/
def outline : Fault → Outline
  | .expected what => .call "Expected" [.leaf (quotedText what.toList)]
  | .unclassified character buffer inGroup =>
    .record "UnclassifiedCharacter"
      [("character", match character with
        | some c => .call "Some" [.leaf (quotedChar c)]
        | none => .leaf "None".toList),
       ("buffer", .leaf (quotedText buffer)),
       ("is_group", .leaf (toString inGroup).toList)]
  | .nestingTooDeep limit offset =>
    .record "NestingTooDeep"
      [("limit", .leaf (toString limit).toList), ("offset", .leaf (toString offset).toList)]
  | .unterminated kind offset =>
    .record "UnterminatedBracket"
      [("kind", kind.outline), ("offset", .leaf (toString offset).toList)]
  | .settings reason => .call "Config" [.leaf (quotedText reason.toList)]

/-- A fault found in a part of a text, seen from the whole: its offset grows by the number of
bytes in front of the part. -/
def shift (before : Nat) : Fault → Fault
  | .nestingTooDeep limit offset => .nestingTooDeep limit (before + offset)
  | .unterminated kind offset => .unterminated kind (before + offset)
  | fault => fault

end Fault

end LuauAnnotation
