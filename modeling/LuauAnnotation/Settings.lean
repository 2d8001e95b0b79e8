/-!
# Settings

Settings bound the nesting of brackets and say whether a bracket may be left open.
-/

namespace LuauAnnotation

/-- What the tokenizer accepts. -/
structure Settings where
  /-- The deepest level of brackets: a pair is one level, a pair inside a pair two. -/
  maxDepth : UInt64 := 128
  /-- A bracket without its closer is a fault and does not reach to the end of its text. -/
  strict : Bool := false
deriving DecidableEq

end LuauAnnotation
