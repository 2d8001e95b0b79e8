import LuauAnnotation.Json.Spelling

/-!
# Reading JSON

A text is read from left to right. Blanks may stand before and behind every value, key, comma
and colon. Each function says how many characters it takes; behind a fault that number does not
matter, since nobody looks further.
-/

namespace LuauAnnotation.Json

/-- The blanks of JSON. -/
def isSpace (c : Char) : Bool := c == ' ' || c == '\n' || c == '\t' || c == '\r'

mutual

/-- A value. -/
def readValue (text : Text) : Reading × Nat :=
  match text with
  | [] => (.broken .ended, 0)
  | c :: rest =>
    if isSpace c then
      let (reading, count) := readValue rest
      (reading, count + 1)
    else
      match c with
      | '[' =>
        let (items, count) := readItems rest
        (.sequence items, count + 1)
      | '\x7b' =>
        let (entries, count) := readEntries rest
        (.map entries, count + 1)
      | '"' =>
        let (spelled, count) := readString rest
        (.string spelled, count + 1)
      | 'n' =>
        let (spelled, count) := readWord "null".toList .null (c :: rest)
        (.scalar spelled, count)
      | 't' =>
        let (spelled, count) := readWord "true".toList (.boolean true) (c :: rest)
        (.scalar spelled, count)
      | 'f' =>
        let (spelled, count) := readWord "false".toList (.boolean false) (c :: rest)
        (.scalar spelled, count)
      | _ =>
        if c == '-' || c.isDigit then
          let (spelled, count) := readNumber (c :: rest)
          (.scalar spelled, count)
        else (.broken .malformed, 0)
termination_by 3 * text.length

/-- The items of a sequence behind its opening bracket. -/
def readItems (text : Text) : Items × Nat :=
  match text with
  | [] => (.broken .ended, 0)
  | c :: rest =>
    if isSpace c then
      let (items, count) := readItems rest
      (items, count + 1)
    else if c = ']' then (.done, 1)
    else readItem (c :: rest)
termination_by 3 * text.length + 2

/-- An item and the items behind it. -/
def readItem (text : Text) : Items × Nat :=
  let (item, width) := readValue text
  let (items, count) := readMoreItems (text.drop width)
  (.more item items, width + count)
termination_by 3 * text.length + 1

/-- The items of a sequence behind one of them. -/
def readMoreItems (text : Text) : Items × Nat :=
  match text with
  | [] => (.broken .ended, 0)
  | c :: rest =>
    if isSpace c then
      let (items, count) := readMoreItems rest
      (items, count + 1)
    else if c = ']' then (.done, 1)
    else if c = ',' then
      let (items, count) := readItem rest
      (items, count + 1)
    else (.broken .malformed, 0)
termination_by 3 * text.length

/-- The entries of a map behind its opening bracket. -/
def readEntries (text : Text) : Entries × Nat :=
  match text with
  | [] => (.broken .ended, 0)
  | c :: rest =>
    if isSpace c then
      let (entries, count) := readEntries rest
      (entries, count + 1)
    else if c = '\x7d' then (.done, 1)
    else readEntry (c :: rest)
termination_by 3 * text.length + 2

/-- An entry and the entries behind it, where a key is due. -/
def readEntry (text : Text) : Entries × Nat :=
  match text with
  | [] => (.more ⟨.error .ended, .error .ended⟩ (.broken .ended) .done, 0)
  | c :: rest =>
    if isSpace c then
      let (entries, count) := readEntry rest
      (entries, count + 1)
    else if c = '"' then
      let (key, width) := readString rest
      let (value, length) := readMember (rest.drop width)
      let (entries, count) := readMoreEntries ((rest.drop width).drop length)
      (.more key value entries, 1 + width + length + count)
    else (.broken .malformed, 0)
termination_by 3 * text.length + 1

/-- The entries of a map behind one of them. -/
def readMoreEntries (text : Text) : Entries × Nat :=
  match text with
  | [] => (.broken .ended, 0)
  | c :: rest =>
    if isSpace c then
      let (entries, count) := readMoreEntries rest
      (entries, count + 1)
    else if c = '\x7d' then (.done, 1)
    else if c = ',' then
      let (entries, count) := readEntry rest
      (entries, count + 1)
    else (.broken .malformed, 0)
termination_by 3 * text.length

/-- A colon and the value behind it. -/
def readMember (text : Text) : Reading × Nat :=
  match text with
  | [] => (.broken .ended, 0)
  | c :: rest =>
    if isSpace c then
      let (reading, count) := readMember rest
      (reading, count + 1)
    else if c = ':' then
      let (reading, count) := readValue rest
      (reading, count + 1)
    else (.broken .malformed, 0)
termination_by 3 * text.length

end

/-- The deepest nesting of a text that is read. -/
def nestingLimit : Nat := 127

/-- What is made of the value of a text, which ends behind it. -/
def readText {α : Type} (decode : Reading → Except Fault α) (text : Text) : Except Fault α := do
  let (reading, count) := readValue text
  let value ← decode reading
  if (text.drop count).all isSpace then return value else .error .malformed

end LuauAnnotation.Json
