import LuauAnnotation.Json.Reader
import LuauAnnotation.Settings

/-!
# Settings as JSON

Settings are written as a map with both fields. They are read from a map, where a field that is
left out has its default, keys that are not known are passed over and a known key stands at most
once, or from a sequence of the fields in order that may stop early.
-/

namespace LuauAnnotation

open Json (Reading Items Entries Value Numeral)

namespace Settings

/-- The key of the nesting bound. -/
def depthKey : String := "max_depth"

/-- The key of strictness. -/
def strictKey : String := "strict_brackets"

/-- Settings with every field written out. -/
def toJson (settings : Settings) : Value :=
  .map [(depthKey.toList, .number (Numeral.ofNat settings.maxDepth.toNat)),
    (strictKey.toList, .boolean settings.strict)]

/-- The fields that a map has given so far. -/
structure Given where
  maxDepth : Option UInt64 := none
  strict : Option Bool := none

/-- The settings with the fields that were given, and the defaults of the others. -/
def Given.settings (given : Given) : Settings :=
  let default : Settings := {}
  ⟨given.maxDepth.getD default.maxDepth, given.strict.getD default.strict⟩

/-- Settings from the entries of a map. -/
def ofEntries (given : Given) : Entries → Except Json.Fault Settings
  | .done => .ok given.settings
  | .broken fault => .error fault
  | .more key value rest => do
    let name ← key.wanted
    if name = depthKey.toList then
      if given.maxDepth.isSome then .error (.duplicateField depthKey)
      else
        let maxDepth ← value.word
        ofEntries { given with maxDepth := some maxDepth } rest
    else if name = strictKey.toList then
      if given.strict.isSome then .error (.duplicateField strictKey)
      else
        let strict ← value.boolean
        ofEntries { given with strict := some strict } rest
    else
      value.pass
      ofEntries given rest

/-- Settings from the items of a sequence. -/
def ofItems : Items → Except Json.Fault Settings
  | .done => .ok {}
  | .broken fault => .error fault
  | .more first rest => do
    let maxDepth ← first.word
    match rest with
    | .done => return { maxDepth }
    | .broken fault => .error fault
    | .more second rest =>
      let strict ← second.boolean
      match rest with
      | .done => return { maxDepth, strict }
      | .broken fault => .error fault
      | .more _ _ => .error .malformed

/-- Settings from a map or a sequence. -/
def ofReading (reading : Reading) : Except Json.Fault Settings :=
  match reading with
  | .map entries => ofEntries {} entries
  | .sequence items => ofItems items
  | _ => reading.mismatch "struct TokenizerConfig"

/-- Settings from their text. -/
def read (text : Text) : Except Json.Fault Settings := Json.readText ofReading text

end Settings

end LuauAnnotation
