import LuauAnnotation.Text.Basic

/-!
# Outlines of nested values

An outline is the shape of a value's written form: leaves, labelled parts, and groups between
two brackets. It is laid out on one line, with commas between the entries of a group, or over
several lines, one entry a line and four more blanks of indentation a level.
-/

namespace LuauAnnotation

/-- The shape of a value's written form. A padded group keeps a blank inside its brackets when
it stands on one line. -/
inductive Outline where
  | leaf (text : Text)
  | labelled (label : Text) (body : Outline)
  | group (opening closing : Text) (padded : Bool) (entries : List Outline)

namespace Outline

/-- A constructor applied to unnamed arguments. -/
def call (name : String) (arguments : List Outline) : Outline :=
  .group (name.toList ++ ['(']) [')'] false arguments

/-- A constructor applied to named arguments. -/
def record (name : String) (fields : List (String × Outline)) : Outline :=
  .group (name.toList ++ [' ', '{']) ['}'] true
    (fields.map fun field => .labelled field.1.toList field.2)

/-- A sequence of values. -/
def list (entries : List Outline) : Outline := .group ['['] [']'] false entries

mutual

/-- The outline on one line. -/
def inline : Outline → Text
  | .leaf text => text
  | .labelled label body => label ++ [':', ' '] ++ inline body
  | .group opening closing padded entries =>
    let gap := if padded then [' '] else []
    opening ++ gap ++ inlineEntries entries ++ gap ++ closing

/-- Entries on one line, a comma and a blank between neighbours. -/
def inlineEntries : List Outline → Text
  | [] => []
  | [entry] => inline entry
  | entry :: next :: rest => inline entry ++ [',', ' '] ++ inlineEntries (next :: rest)

end

/-- The blanks in front of a line at a level of indentation. -/
def margin (level : Nat) : Text := List.replicate (4 * level) ' '

mutual

/-- The outline over several lines in front of a text. Its first line continues a line at the
given level, where a group without entries stays. -/
def layOut (level : Nat) : Outline → (after : Text) → Text
  | .leaf text, after => text ++ after
  | .labelled label body, after => label ++ ':' :: ' ' :: layOut level body after
  | .group opening closing _ [], after => opening ++ closing ++ after
  | .group opening closing _ (entry :: rest), after =>
    opening ++ '\n' :: layOutEntries (level + 1) (entry :: rest)
      (margin level ++ closing ++ after)

/-- Entries in front of a text, one a line, each followed by a comma. -/
def layOutEntries (level : Nat) : List Outline → (after : Text) → Text
  | [], after => after
  | entry :: rest, after =>
    margin level ++ layOut level entry (',' :: '\n' :: layOutEntries level rest after)

end

/-- The outline over several lines. -/
def indented (outline : Outline) : Text := outline.layOut 0 []

end Outline

end LuauAnnotation
