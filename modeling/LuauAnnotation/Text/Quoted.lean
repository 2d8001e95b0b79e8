import LuauAnnotation.Text.Basic
import LuauAnnotation.Text.Plain

/-!
# Quoted texts

A quoted text stands between two delimiters on one line. Tab, carriage return, line feed and
the null character have short escapes, the delimiter and the backslash are escaped by a
backslash, and every other character that would not stand for itself is written by its code.
-/

namespace LuauAnnotation

/-- The lower-case hexadecimal digits of a number, without leading zeros. -/
def hexDigits (n : Nat) : Text := Nat.toDigits 16 n

/-- How one character is written between two delimiters. -/
def escapedChar (delimiter c : Char) : Text :=
  match c with
  | '\x00' => ['\\', '0']
  | '\t' => ['\\', 't']
  | '\n' => ['\\', 'n']
  | '\r' => ['\\', 'r']
  | _ =>
    if c = delimiter ∨ c = '\\' then ['\\', c]
    else if isPlain c then [c]
    else "\\u\x7b".toList ++ hexDigits c.toNat ++ "\x7d".toList

/-- The text between two delimiters, every character escaped where it needs to be. -/
def delimited (delimiter : Char) (text : Text) : Text :=
  delimiter :: text.flatMap (escapedChar delimiter) ++ [delimiter]

/-- A text in double quotes, as messages show it. -/
def quotedText (text : Text) : Text := delimited '"' text

/-- A character in single quotes, as messages show it. -/
def quotedChar (c : Char) : Text := delimited '\x27' [c]

end LuauAnnotation
