import LuauAnnotation.Fault

/-!
# Matchers

A matcher describes the start of a text. It either does not match, or matches a definite number
of characters there, chosen greedily and without going back. The tokenizer's character classes
are matchers.

Repetitions count non-empty matches only, so that every matcher gives an answer on every text.
-/

namespace LuauAnnotation

/-- One end of a range of counts. -/
inductive CountBound where
  | included (count : UInt64)
  | excluded (count : UInt64)
  | unbounded
deriving DecidableEq

/-- A range of counts by its two ends. -/
structure CountRange where
  lower : CountBound
  upper : CountBound
deriving DecidableEq

namespace CountRange

/-- The range from a count upwards. -/
def atLeast (count : UInt64) : CountRange := ⟨.included count, .unbounded⟩

/-- The smallest count in the range. Counts are 64-bit words, so the successor of the greatest
word is zero; a build that checks for overflow panics there instead. -/
def minimum (range : CountRange) : Nat :=
  match range.lower with
  | .included count => count.toNat
  | .excluded count => (count + 1).toNat
  | .unbounded => 0

/-- The count just above the range. A range that includes the greatest word has none. -/
def ceiling? (range : CountRange) : Option Nat :=
  match range.upper with
  | .included count => if count.toNat + 1 < UInt64.size then some (count.toNat + 1) else none
  | .excluded count => some count.toNat
  | .unbounded => none

/-- The largest count below the ceiling, if there is a ceiling. -/
def maximum? (range : CountRange) : Option Nat := range.ceiling?.map (· - 1)

/-- The range in words. -/
def words (range : CountRange) : String :=
  match range.maximum? with
  | some maximum => s!"between {range.minimum} and {maximum}"
  | none => s!"at least {range.minimum}"

end CountRange

/-- A description of the start of a text. -/
inductive Matcher where
  /-- One character with a property. -/
  | satisfying (property : Char → Bool)
  /-- One given character. -/
  | char (c : Char)
  /-- A given text. -/
  | literal (text : Text)
  /-- One character out of several. -/
  | oneOf (chars : Text)
  /-- Successive non-empty matches, as many as a range of counts allows. -/
  | repetition (matcher : Matcher) (range : CountRange)
  /-- The first of several matchers that matches. -/
  | firstOf (matchers : List Matcher)
  /-- Matchers one after the other. -/
  | sequence (matchers : List Matcher)
  /-- Nothing, where a matcher does not match. -/
  | absence (matcher : Matcher)
  /-- Everything before the closer that balances an opener in front of the text, or the whole
  text if there is none. -/
  | balanced (opener closer : Char)

/-- The lengths of the successive non-empty matches from the start of a text, no more of them
than a limit allows. -/
def successive (step : Text → Option Nat) (limit : Option Nat) : Text → List Nat
  | [] => []
  | c :: rest =>
    if limit = some 0 then []
    else
      match step (c :: rest) with
      | some (n + 1) => (n + 1) :: successive step (limit.map (· - 1)) (rest.drop n)
      | _ => []
termination_by text => text.length
decreasing_by
  simp only [List.length_drop, List.length_cons]
  omega

/-- A limit keeps the first matches and changes none of them. -/
theorem successive_some (step : Text → Option Nat) (limit : Nat) (text : Text) :
    successive step (some limit) text = (successive step none text).take limit := by
  induction size : text.length using Nat.strongRecOn generalizing limit text with
  | _ size shorter =>
    cases text with
    | nil => simp [successive]
    | cons c rest =>
      cases limit with
      | zero => simp [successive]
      | succ limit =>
        rw [successive, successive]
        simp only [Option.some.injEq, Nat.succ_ne_zero, if_false, reduceCtorEq, Option.map_some,
          Option.map_none, Nat.add_sub_cancel]
        split
        · rw [List.take_succ_cons, shorter _ ?_ limit _ rfl]
          simp only [List.length_drop, ← size, List.length_cons]
          omega
        · rfl

/-- The number of characters in the successive non-empty matches up to the largest count of a range,
if they are no fewer than its smallest count. -/
def repeatedSpan? (step : Text → Option Nat) (range : CountRange) (text : Text) : Option Nat :=
  let lengths := successive step range.maximum? text
  if range.minimum ≤ lengths.length then some (lengths.foldr (· + ·) 0) else none

/-- The number of characters before the closer that balances `depth + 1` openers in front of
the text. A character that both opens and closes counts as an opener. -/
def balancedSpan (opener closer : Char) : Nat → Text → Nat
  | _, [] => 0
  | depth, c :: rest =>
    if c = opener then balancedSpan opener closer (depth + 1) rest + 1
    else if c = closer then
      match depth with
      | 0 => 0
      | outer + 1 => balancedSpan opener closer outer rest + 1
    else balancedSpan opener closer depth rest + 1

namespace Matcher

/-- One or more matches. -/
def oneOrMore (matcher : Matcher) : Matcher := .repetition matcher (.atLeast 1)

/-- Any number of matches. -/
def zeroOrMore (matcher : Matcher) : Matcher := .repetition matcher ⟨.unbounded, .unbounded⟩

/-- One or more matches, none of which starts where `stop` matches. -/
def oneOrMoreUntil (matcher stop : Matcher) : Matcher :=
  oneOrMore (.sequence [.absence stop, matcher])

/-- One character with a property, at the start of a text. -/
def headSpan? (property : Char → Bool) : Text → Option Nat
  | [] => none
  | c :: _ => if property c then some 1 else none

mutual

/-- The number of characters matched at the start of a text, if any match. -/
def span? : Matcher → Text → Option Nat
  | .satisfying property, text => headSpan? property text
  | .char c, text => headSpan? (· == c) text
  | .literal wanted, text => if wanted.isPrefixOf text then some wanted.length else none
  | .oneOf chars, text => headSpan? chars.contains text
  | .repetition matcher range, text => repeatedSpan? (span? matcher) range text
  | .firstOf matchers, text => firstSpan? matchers text
  | .sequence matchers, text => totalSpan? matchers text
  | .absence matcher, text => if (span? matcher text).isNone then some 0 else none
  | .balanced opener closer, text => some (balancedSpan opener closer 0 text)

/-- The match of the first matcher that matches. -/
def firstSpan? : List Matcher → Text → Option Nat
  | [], _ => none
  | matcher :: rest, text =>
    match span? matcher text with
    | some n => some n
    | none => firstSpan? rest text

/-- The match of all the matchers, each where the one before it ended. -/
def totalSpan? : List Matcher → Text → Option Nat
  | [], _ => some 0
  | matcher :: rest, text =>
    match span? matcher text with
    | some n => (totalSpan? rest (text.drop n)).map (n + ·)
    | none => none

end

/-- The number of bytes matched at the start of a text, if any match. -/
def length? (matcher : Matcher) (text : Text) : Option Nat :=
  (matcher.span? text).map fun n => Text.bytes (text.take n)

mutual

/-- A consuming matcher never matches without taking a character. -/
def consumes : Matcher → Bool
  | .satisfying _ => true
  | .char _ => true
  | .literal wanted => !wanted.isEmpty
  | .oneOf _ => true
  | .repetition matcher range => 1 ≤ range.minimum && consumes matcher
  | .firstOf matchers => everyConsumes matchers
  | .sequence matchers => someConsumes matchers
  | .absence _ => false
  | .balanced _ _ => false

/-- All the matchers are consuming. -/
def everyConsumes : List Matcher → Bool
  | [] => true
  | matcher :: rest => consumes matcher && everyConsumes rest

/-- One of the matchers is consuming. -/
def someConsumes : List Matcher → Bool
  | [] => false
  | matcher :: rest => consumes matcher || someConsumes rest

end

/-- Descriptions as a choice, a comma before each and the word for a choice before the last. -/
def choice : List String → String
  | [] => ""
  | [only] => only
  | [first, second] => first ++ ", or " ++ second
  | first :: rest => first ++ ", " ++ choice rest

mutual

/-- What the matcher looks for, in words. A sequence looks for its first consuming part. -/
def expected : Matcher → String
  | .satisfying _ => "character matching predicate"
  | .char c => s!"'{c}'"
  | .literal wanted => s!"the string \"{String.ofList wanted}\""
  | .oneOf chars => "one of " ++ choice (chars.map fun c => s!"'{c}'")
  | .repetition matcher range => range.words ++ " " ++ expected matcher
  | .firstOf matchers => choice (expectedEach matchers)
  | .sequence matchers => expectedFirst matchers
  | .absence matcher => "anything but " ++ expected matcher
  | .balanced opener closer => s!"text balanced between '{opener}' and '{closer}'"

/-- What each matcher looks for. -/
def expectedEach : List Matcher → List String
  | [] => []
  | matcher :: rest => expected matcher :: expectedEach rest

/-- What the first consuming matcher looks for. -/
def expectedFirst : List Matcher → String
  | [] => ""
  | matcher :: rest => if consumes matcher then expected matcher else expectedFirst rest

end

/-- The number of bytes matched at the start of a text, or the fault that says what was
expected there. -/
def length (matcher : Matcher) (text : Text) : Except Fault Nat :=
  match matcher.length? text with
  | some n => .ok n
  | none => .error (.expected matcher.expected)

end Matcher

end LuauAnnotation
