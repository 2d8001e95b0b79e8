import LuauAnnotation.Json.Number

/-!
# JSON values

A value is printed in its compact form, without blanks. In a string the quotation mark, the
backslash and the control characters are escaped, and every other character stands for itself.
-/

namespace LuauAnnotation.Json

/-- A JSON value. A map keeps the order of its entries. -/
inductive Value where
  | null
  | boolean (value : Bool)
  | number (numeral : Numeral)
  | string (text : Text)
  | sequence (items : List Value)
  | map (entries : List (Text × Value))

/-- How a character is written in a string. -/
def escapedInString (c : Char) : Text :=
  match c with
  | '"' => ['\\', '"']
  | '\\' => ['\\', '\\']
  | '\x08' => ['\\', 'b']
  | '\t' => ['\\', 't']
  | '\n' => ['\\', 'n']
  | '\x0c' => ['\\', 'f']
  | '\r' => ['\\', 'r']
  | _ =>
    if c.toNat < 0x20 then
      ['\\', 'u', '0', '0', Nat.digitChar (c.toNat / 16), Nat.digitChar (c.toNat % 16)]
    else [c]

/-- A text as a string. -/
def printString (text : Text) : Text := '"' :: text.flatMap escapedInString ++ ['"']

namespace Value

mutual

/-- The compact form of a value. -/
def print : Value → Text
  | .null => "null".toList
  | .boolean true => "true".toList
  | .boolean false => "false".toList
  | .number numeral => numeral.print
  | .string text => printString text
  | .sequence items => '[' :: printItems items ++ [']']
  | .map entries => '\x7b' :: printEntries entries ++ ['\x7d']

/-- The compact forms of items, a comma between neighbours. -/
def printItems : List Value → Text
  | [] => []
  | [item] => print item
  | item :: next :: rest => print item ++ ',' :: printItems (next :: rest)

/-- The compact forms of entries, a comma between neighbours. -/
def printEntries : List (Text × Value) → Text
  | [] => []
  | [(key, value)] => printString key ++ ':' :: print value
  | (key, value) :: next :: rest =>
    printString key ++ ':' :: print value ++ ',' :: printEntries (next :: rest)

end

end Value

end LuauAnnotation.Json
