import LuauAnnotation.Json.Reader
import LuauAnnotation.Token.Basic

/-!
# Tokens as JSON

A token is written as a map that starts with its tag, under the key `type`, followed by its one
part if it has one. It is read from such a map with the tag at any place, or from a sequence of
the tag and the part.

The parts of a token in the outermost list are read whole before any of them is understood, so
a fault in the text of a part comes before a part that does not fit its tag. Tokens inside a
bracket token are understood after that; their tags may also be numbers, in the order of the
list of tags.
-/

namespace LuauAnnotation

open Json (Reading Items Entries Value)

namespace Token

/-- The constructor of a token, as the data names it. -/
inductive Tag where
  | punctuation
  | arrow
  | union
  | intersection
  | separator
  | identifier
  | typeName
  | group (kind : BracketKind)
deriving DecidableEq

namespace Tag

/-- All tags, in the order in which messages list them. -/
def all : List Tag :=
  [.punctuation, .arrow, .union, .intersection, .separator, .identifier, .typeName,
    .group .tuple, .group .indexer, .group .table]

/-- The word for a tag. -/
def name : Tag → String
  | .punctuation => "punc"
  | .arrow => "arrow"
  | .union => "union"
  | .intersection => "intersection"
  | .separator => "separator"
  | .identifier => "identifier"
  | .typeName => "lua_type"
  | .group kind => kind.name

/-- What a sequence with the wrong number of parts behind its tag should have been. -/
def sequenceWords : Tag → String
  | .punctuation => "struct variant WireToken::Punc with 1 element"
  | .identifier => "struct variant WireToken::Identifier with 1 element"
  | .typeName => "struct variant WireToken::LuaType with 1 element"
  | .group .tuple => "struct variant WireToken::Tuple with 1 element"
  | .group .indexer => "struct variant WireToken::Indexer with 1 element"
  | .group .table => "struct variant WireToken::Table with 1 element"
  | _ => "0 elements in sequence"

/-- What is wanted where a tag is due. -/
def wanted : String := "variant identifier"

/-- The tag with a word that was read. -/
def ofName (word : Text) : Except Json.Fault Tag :=
  match all.find? fun tag => tag.name.toList = word with
  | some tag => .ok tag
  | none => .error (.unknownVariant word (all.map name))

/-- The tag at a position that was read. -/
def ofPosition (position : Int) : Except Json.Fault Tag :=
  if position < 0 then .error (.wrongType (.scalar (.number (.integer position))) wanted)
  else
    match all[position.toNat]? with
    | some tag => .ok tag
    | none =>
      .error (.wrongValue (.scalar (.number (.integer position)))
        s!"variant index 0 <= i < {all.length}")

/-- A tag from its word, or inside a bracket token also from its position. -/
def ofReading (inside : Bool) (reading : Reading) : Except Json.Fault Tag :=
  match reading with
  | .string spelled => spelled.wanted >>= ofName
  | .scalar spelled => do
    match ← spelled.wanted with
    | .number (.integer position) =>
      if inside then ofPosition position
      else .error (.wrongType (.scalar (.number (.integer position))) wanted)
    | other => .error (.wrongType (.scalar other) wanted)
  | _ => reading.mismatch wanted

end Tag

/-- The key of a tag. -/
def tagKey : String := "type"

/-- The key of a punctuation character. -/
def characterKey : String := "token"

/-- The key of an identifier's name. -/
def identifierKey : String := "identifier"

/-- The key of a type's name. -/
def typeNameKey : String := "lua_type"

/-- The key of the tokens between brackets. -/
def childrenKey : String := "unseparated_tokens"

/-! ### Writing -/

/-- The map of a tag and the parts that go with it. -/
def tagged (tag : Tag) (parts : List (Text × Value)) : Value :=
  .map ((tagKey.toList, .string tag.name.toList) :: parts)

mutual

/-- A token as a map. -/
def toJson : Token → Value
  | .punctuation c => tagged .punctuation [(characterKey.toList, .string [c])]
  | .arrow => tagged .arrow []
  | .union => tagged .union []
  | .intersection => tagged .intersection []
  | .separator => tagged .separator []
  | .identifier name => tagged .identifier [(identifierKey.toList, .string name)]
  | .typeName name => tagged .typeName [(typeNameKey.toList, .string name)]
  | .bracketed kind children =>
    tagged (.group kind) [(childrenKey.toList, .sequence (toJsonEach children))]

/-- The tokens of a sequence as maps. -/
def toJsonEach : List Token → List Value
  | [] => []
  | token :: rest => toJson token :: toJsonEach rest

end

/-- A token sequence as a sequence of maps. -/
def toJsonAll (tokens : List Token) : Value := .sequence (toJsonEach tokens)

/-! ### Reading -/

/-- The tag and the other entries of a map, whose values are read whole. -/
def splitEntries (inside : Bool) (room : Nat) (tag? : Option Tag) :
    Entries → Except Json.Fault (Tag × List (Text × Reading))
  | .done =>
    match tag? with
    | some tag => .ok (tag, [])
    | none => .error (.missingField tagKey)
  | .broken fault => .error fault
  | .more key value rest => do
    let name ← key.wanted
    if name = tagKey.toList then
      if tag?.isSome then .error (.duplicateField tagKey)
      else
        let tag ← Tag.ofReading inside value
        splitEntries inside room (some tag) rest
    else
      value.settle room
      let (tag, others) ← splitEntries inside room tag? rest
      return (tag, (name, value) :: others)

/-- The tag and the other items of a sequence, which are read whole. -/
def splitItems (inside : Bool) (room : Nat) :
    Items → Except Json.Fault (Tag × List Reading)
  | .done => .error (.missingField tagKey)
  | .broken fault => .error fault
  | .more first rest => do
    let tag ← Tag.ofReading inside first
    let others ← rest.each fun item => (item.settle room).map fun _ => item
    return (tag, others)

/-- The part under a key, which stands just once among the entries. -/
def partOfEntries {α : Type} (key : String) (read : Reading → Except Json.Fault α)
    (part? : Option α) : List (Text × Reading) → Except Json.Fault α
  | [] =>
    match part? with
    | some part => .ok part
    | none => .error (.missingField key)
  | (name, value) :: rest =>
    if name = key.toList then
      if part?.isSome then .error (.duplicateField key)
      else do
        let part ← read value
        partOfEntries key read (some part) rest
    else partOfEntries key read part? rest

/-- The part that is the only item behind a tag. -/
def partOfItems {α : Type} (tag : Tag) (read : Reading → Except Json.Fault α) :
    List Reading → Except Json.Fault α
  | [] => .error (.wrongLength 0 tag.sequenceWords)
  | item :: rest => do
    let part ← read item
    if rest.isEmpty then return part
    else .error (.wrongLength (rest.length + 1) "1 element in sequence")

/-- The parts of a token behind its tag. -/
inductive Parts where
  | entries (others : List (Text × Reading))
  | items (others : List Reading)

namespace Parts

/-- The one part that goes with a tag, under its key in a map. -/
def single {α : Type} (tag : Tag) (key : String) (read : Reading → Except Json.Fault α) :
    Parts → Except Json.Fault α
  | .entries others => partOfEntries key read none others
  | .items others => partOfItems tag read others

/-- No parts. Entries of a map that are not known do no harm. -/
def absent (tag : Tag) : Parts → Except Json.Fault Unit
  | .entries _ => .ok ()
  | .items others =>
    if others.isEmpty then .ok () else .error (.wrongLength others.length tag.sequenceWords)

end Parts

/-- The token of a tag and its parts, given the reading of tokens inside brackets. -/
def ofParts (children : Reading → Except Json.Fault (List Token)) (tag : Tag) (parts : Parts) :
    Except Json.Fault Token :=
  match tag with
  | .punctuation => (parts.single tag characterKey Reading.character).map .punctuation
  | .arrow => (parts.absent tag).map fun _ => .arrow
  | .union => (parts.absent tag).map fun _ => .union
  | .intersection => (parts.absent tag).map fun _ => .intersection
  | .separator => (parts.absent tag).map fun _ => .separator
  | .identifier => (parts.single tag identifierKey Reading.text).map .identifier
  | .typeName => (parts.single tag typeNameKey Reading.text).map .typeName
  | .group kind => (parts.single tag childrenKey children).map (.bracketed kind)

/-- A list of tokens, given the reading of one unless no room is left. -/
def ofSequence (token? : Option (Reading → Except Json.Fault Token)) (reading : Reading) :
    Except Json.Fault (List Token) :=
  match reading with
  | .sequence items =>
    match token? with
    | some token => items.each token
    | none => .error .malformed
  | _ => reading.mismatch "a sequence"

/-- A token from a map or sequence. `room` is the number of levels that it may nest, of which
its own takes one and the list of its children another. -/
def ofReading (inside : Bool) : (room : Nat) → Reading → Except Json.Fault Token
  | 0, .map _ => .error .malformed
  | 0, .sequence _ => .error .malformed
  | room + 1, .map entries => do
    let (tag, others) ← splitEntries inside room none entries
    ofParts (childrenOf room) tag (.entries others)
  | room + 1, .sequence items => do
    let (tag, others) ← splitItems inside room items
    ofParts (childrenOf room) tag (.items others)
  | _, reading => reading.mismatch "internally tagged enum WireToken"
where
  /-- The children of a bracket token. -/
  childrenOf : (room : Nat) → Reading → Except Json.Fault (List Token)
    | 0 => ofSequence none
    | room + 1 => ofSequence (some (ofReading true room))

/-- A token list from its text. -/
def readAll (text : Text) : Except Json.Fault (List Token) :=
  Json.readText (ofSequence (some (ofReading false (Json.nestingLimit - 1)))) text

end Token

end LuauAnnotation
