import LuauAnnotation.Proofs.Forest
import LuauAnnotation.Proofs.JsonReader
import LuauAnnotation.Token.Json

/-!
# Tokens written as JSON are read back

A token is written as a map with its tag in front and at most one part behind it. The tag is read
from its word, the entries behind it are read whole, and the one part is then understood: a
character from a string that holds just one, a name from a string, and children from a sequence
of tokens. So a token list comes back as it was, as long as its lists and maps do not nest deeper
than the reader goes, and is refused for its nesting otherwise.
-/

namespace LuauAnnotation

open Json (Reading Items Entries Value within)

namespace Token

/-! ### Nesting -/

/-- A token without children takes a level for its map. -/
theorem nesting_toJson_leaf (token : Token) (hleaf : token.children? = none) :
    (toJson token).nesting = 1 := by
  cases token with
  | bracketed kind children => cases hleaf
  | _ => rfl

/-- A bracket token takes a level for its map and one for the list of its children. -/
theorem nesting_toJson_bracketed (kind : BracketKind) (children : List Token) :
    (toJson (.bracketed kind children)).nesting = Value.nestingItems (toJsonEach children) + 2 := by
  simp [toJson, tagged, Value.nesting, Value.nestingEntries]

/-- Every level of brackets takes two levels of maps and lists, and the innermost tokens take one
more. -/
theorem nestingItems_toJsonEach_bounds (tokens : List Token) :
    2 * depthAll tokens ≤ Value.nestingItems (toJsonEach tokens) ∧
      Value.nestingItems (toJsonEach tokens) ≤ 2 * depthAll tokens + 1 := by
  induction tokens using forest_induction with
  | nil => simp [depthAll, toJsonEach, Value.nestingItems]
  | leaf token rest hleaf hrest =>
    have hdepth : depth token = 0 := by
      cases token with
      | bracketed kind children => cases hleaf
      | _ => rfl
    rw [toJsonEach, Value.nestingItems, depthAll, nesting_toJson_leaf token hleaf, hdepth]
    omega
  | bracketed kind children rest hchildren hrest =>
    rw [toJsonEach, Value.nestingItems, depthAll, nesting_toJson_bracketed, depth]
    omega

/-- The lists and maps of a written token list nest twice as deep as its brackets, and one or two
levels more. -/
theorem nesting_toJsonAll_bounds (tokens : List Token) :
    2 * depthAll tokens + 1 ≤ (toJsonAll tokens).nesting ∧
      (toJsonAll tokens).nesting ≤ 2 * depthAll tokens + 2 := by
  have hitems := nestingItems_toJsonEach_bounds tokens
  rw [toJsonAll, Value.nesting]
  omega

example : (toJsonAll [.bracketed .tuple [.arrow]]).nesting = 4 := rfl

/-! ### Reading one token -/

/-- A tag is read from its word. -/
theorem Tag.ofName_name (tag : Tag) : Tag.ofName tag.name.toList = .ok tag := by
  cases tag with
  | group kind => cases kind <;> rfl
  | _ => rfl

/-- The entries behind a tag are read whole, and are left to be understood. -/
theorem splitEntries_ofEntries (inside : Bool) (room : Nat) (tag : Tag)
    (parts : List (Text × Value)) (hkeys : ∀ part ∈ parts, part.1 ≠ tagKey.toList)
    (hrange : Value.InRangeEntries parts) :
    splitEntries inside room (some tag) (Reading.ofEntries parts) =
      within (Value.nestingEntries parts) room
        (tag, parts.map fun part => (part.1, Reading.ofValue part.2)) := by
  induction parts with
  | nil =>
    rw [Value.nestingEntries, Json.within_zero]
    rfl
  | cons part parts ih =>
    obtain ⟨key, value⟩ := part
    rw [Value.InRangeEntries] at hrange
    have hkey : key ≠ tagKey.toList := hkeys (key, value) List.mem_cons_self
    have hrest := ih (fun part hpart => hkeys part (List.mem_cons_of_mem _ hpart)) hrange.2
    rw [Reading.ofEntries, splitEntries, Value.nestingEntries, List.map_cons]
    change (if key = tagKey.toList then _ else _) = _
    rw [if_neg hkey, Json.settle_ofValue room value hrange.1, hrest]
    change (within value.nesting room () >>= fun _ => within _ room (tag, _) >>= fun read =>
      Except.ok (read.1, (key, Reading.ofValue value) :: read.2)) = _
    rw [Json.within_bind_ok, Json.within_bind_within]

/-- A map with its tag in front is read whole, and its parts are then understood. -/
theorem ofReading_tagged (inside : Bool) (room : Nat) (tag : Tag) (parts : List (Text × Value))
    (hkeys : ∀ part ∈ parts, part.1 ≠ tagKey.toList) (hrange : Value.InRangeEntries parts) :
    ofReading inside room (Reading.ofValue (tagged tag parts)) =
      (within (Value.nestingEntries parts + 1) room () >>= fun _ =>
        ofParts (ofReading.childrenOf (room - 1)) tag
          (.entries (parts.map fun part => (part.1, Reading.ofValue part.2)))) := by
  rw [tagged, Reading.ofValue, Reading.ofEntries]
  cases room with
  | zero => rfl
  | succ room =>
    rw [ofReading, splitEntries]
    change ((Tag.ofName tag.name.toList >>= fun tag => splitEntries inside room (some tag) _) >>=
      _) = _
    rw [Tag.ofName_name]
    change (splitEntries inside room (some tag) _ >>= _) = _
    rw [splitEntries_ofEntries inside room tag parts hkeys hrange, within, within]
    by_cases hroom : Value.nestingEntries parts ≤ room
    · rw [if_pos hroom, if_pos (by omega)]
      rfl
    · rw [if_neg hroom, if_neg (by omega)]
      rfl

/-- The one part of a token is understood under its key. -/
theorem partOfEntries_singleton {α : Type} (key : String) (read : Reading → Except Json.Fault α)
    (value : Reading) : partOfEntries key read none [(key.toList, value)] = read value := by
  rw [partOfEntries, if_pos rfl]
  cases read value <;> simp [bind, Except.bind, partOfEntries]

/-- A token that is only its tag comes back from its map. -/
theorem ofReading_bare (inside : Bool) (room : Nat) (tag : Tag) (token : Token)
    (hparts : ∀ children, ofParts children tag (.entries []) = .ok token) :
    ofReading inside room (Reading.ofValue (tagged tag [])) = within 1 room token := by
  rw [ofReading_tagged inside room tag [] (by simp) trivial, List.map_nil]
  simp only [hparts]
  exact Json.within_bind_ok 1 room () fun _ => token

/-- A token with a text as its part comes back from its map. -/
theorem ofReading_spelled (inside : Bool) (room : Nat) (tag : Tag) (key : String)
    (hkey : key.toList ≠ tagKey.toList) (text : Text) (token : Token)
    (hparts : ∀ children, ofParts children tag
      (.entries [(key.toList, .string (.sound text))]) = .ok token) :
    ofReading inside room (Reading.ofValue (tagged tag [(key.toList, .string text)])) =
      within 1 room token := by
  have hrange : Value.InRangeEntries [(key.toList, .string text)] := by
    simp [Value.InRangeEntries, Value.InRange]
  rw [ofReading_tagged inside room tag _ (List.forall_mem_singleton.mpr hkey) hrange,
    List.map_singleton, Reading.ofValue]
  simp only [hparts]
  exact Json.within_bind_ok 1 room () fun _ => token

/-- A token without children comes back from its map. -/
theorem ofReading_toJson_leaf (inside : Bool) (room : Nat) (token : Token)
    (hleaf : token.children? = none) :
    ofReading inside room (Reading.ofValue (toJson token)) =
      within (toJson token).nesting room token := by
  rw [nesting_toJson_leaf token hleaf]
  cases token with
  | punctuation c =>
    refine ofReading_spelled inside room _ characterKey (by decide) [c] _ fun children => ?_
    rw [ofParts, Parts.single, partOfEntries_singleton]
    rfl
  | identifier name =>
    refine ofReading_spelled inside room _ identifierKey (by decide) name _ fun children => ?_
    rw [ofParts, Parts.single, partOfEntries_singleton]
    rfl
  | typeName name =>
    refine ofReading_spelled inside room _ typeNameKey (by decide) name _ fun children => ?_
    rw [ofParts, Parts.single, partOfEntries_singleton]
    rfl
  | bracketed kind children => cases hleaf
  | _ => exact ofReading_bare inside room _ _ fun _ => rfl

/-- Every numeral in the maps of tokens denotes a number, since there is none. -/
theorem inRangeItems_toJsonEach (tokens : List Token) :
    Value.InRangeItems (toJsonEach tokens) := by
  induction tokens using forest_induction with
  | nil => rw [toJsonEach, Value.InRangeItems]; trivial
  | leaf token rest hleaf hrest =>
    rw [toJsonEach, Value.InRangeItems]
    refine ⟨?_, hrest⟩
    cases token with
    | bracketed kind children => cases hleaf
    | _ => simp [toJson, tagged, Value.InRange, Value.InRangeEntries]
  | bracketed kind children rest hchildren hrest =>
    rw [toJsonEach, Value.InRangeItems]
    refine ⟨?_, hrest⟩
    simp [toJson, tagged, Value.InRange, Value.InRangeEntries, hchildren]

/-- A bracket token comes back from its map when its children come back from theirs. -/
theorem ofReading_toJson_bracketed (inside : Bool) (room : Nat) (kind : BracketKind)
    (children : List Token)
    (hchildren : ∀ room, (Reading.ofItems (toJsonEach children)).each (ofReading true room) =
      within (Value.nestingItems (toJsonEach children)) room children) :
    ofReading inside room (Reading.ofValue (toJson (.bracketed kind children))) =
      within (toJson (.bracketed kind children)).nesting room (.bracketed kind children) := by
  have hrange : Value.InRangeEntries
      [(childrenKey.toList, .sequence (toJsonEach children))] := by
    simp [Value.InRangeEntries, Value.InRange, inRangeItems_toJsonEach]
  have hkey : childrenKey.toList ≠ tagKey.toList := by decide
  have hlevels : Value.nestingEntries [(childrenKey.toList, .sequence (toJsonEach children))] + 1 =
      Value.nestingItems (toJsonEach children) + 2 := by
    simp [Value.nestingEntries, Value.nesting]
  rw [nesting_toJson_bracketed, toJson,
    ofReading_tagged inside room _ _ (List.forall_mem_singleton.mpr hkey) hrange, hlevels,
    List.map_singleton, ofParts, Parts.single, partOfEntries_singleton, Reading.ofValue]
  by_cases hroom : Value.nestingItems (toJsonEach children) + 2 ≤ room
  · obtain ⟨room, rfl⟩ : ∃ inner, room = inner + 2 := ⟨room - 2, by omega⟩
    have hinner : Value.nestingItems (toJsonEach children) ≤ room := by omega
    rw [within, within, if_pos hroom, if_pos hroom]
    change (ofReading.childrenOf (room + 1) _).map _ = _
    rw [ofReading.childrenOf, ofSequence, hchildren room, within, if_pos hinner]
    rfl
  · rw [within, within, if_neg hroom, if_neg hroom]
    rfl

/-! ### Reading a list -/

/-- A token list comes back from its maps when its first token and the others do. -/
theorem each_toJsonEach_cons {inside : Bool} {room : Nat} {token : Token} {rest : List Token}
    (htoken : ofReading inside room (Reading.ofValue (toJson token)) =
      within (toJson token).nesting room token)
    (hrest : (Reading.ofItems (toJsonEach rest)).each (ofReading inside room) =
      within (Value.nestingItems (toJsonEach rest)) room rest) :
    (Reading.ofItems (toJsonEach (token :: rest))).each (ofReading inside room) =
      within (Value.nestingItems (toJsonEach (token :: rest))) room (token :: rest) := by
  rw [toJsonEach, Reading.ofItems, Items.each, htoken, hrest, Value.nestingItems]
  change (within _ room token >>= fun token => within _ room rest >>= fun rest =>
    Except.ok (token :: rest)) = _
  simp only [Json.within_bind_ok]
  exact Json.within_bind_within _ _ room token (· :: rest)

/-- The tokens of a list come back from their maps. -/
theorem each_toJsonEach (tokens : List Token) (inside : Bool) (room : Nat) :
    (Reading.ofItems (toJsonEach tokens)).each (ofReading inside room) =
      within (Value.nestingItems (toJsonEach tokens)) room tokens := by
  induction tokens using forest_induction generalizing inside room with
  | nil =>
    rw [toJsonEach, Value.nestingItems, Json.within_zero]
    rfl
  | leaf token rest hleaf hrest =>
    exact each_toJsonEach_cons (ofReading_toJson_leaf inside room token hleaf) (hrest inside room)
  | bracketed kind children rest hchildren hrest =>
    exact each_toJsonEach_cons
      (ofReading_toJson_bracketed inside room kind children (hchildren true)) (hrest inside room)

/-- A token list written as JSON is read back as it was when its lists and maps nest at most 127
deep, and refused for its nesting otherwise. -/
theorem readAll_print_toJsonAll (tokens : List Token) :
    readAll (toJsonAll tokens).print =
      if (toJsonAll tokens).nesting ≤ 127 then .ok tokens else .error .malformed := by
  have hroom : Value.nestingItems (toJsonEach tokens) ≤ Json.nestingLimit - 1 ↔
      (toJsonAll tokens).nesting ≤ 127 := by
    rw [toJsonAll, Value.nesting, Json.nestingLimit]
    omega
  have hread : readAll (toJsonAll tokens).print =
      within (Value.nestingItems (toJsonEach tokens)) (Json.nestingLimit - 1) tokens := by
    rw [readAll, Json.readText_print, toJsonAll, Reading.ofValue, ofSequence, each_toJsonEach]
  simp only [hread, within, hroom]

end Token

end LuauAnnotation
