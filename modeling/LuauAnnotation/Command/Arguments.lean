import LuauAnnotation.Text.Basic

/-!
# Command-line arguments

Options and annotations may be mixed. An option is written in short form, where flags may share
one hyphen, or in long form; its value follows as the next argument, behind an equals sign, or
in short form directly. An argument that starts with a hyphen is an option, also where a value is
due, unless it is the hyphen alone or stands behind two hyphens.

Arguments are taken from left to right. Each option may be given once, and the first argument
that is not understood or asks for help or the version ends the reading.
-/

namespace LuauAnnotation.Command

/-- The form in which tokens are written. -/
inductive Format where
  | text
  | debug
  | json
deriving DecidableEq

/-- The form with a given name. -/
def Format.ofName? (name : Text) : Option Format :=
  if name = "text".toList then some .text
  else if name = "debug".toList then some .debug
  else if name = "json".toList then some .json
  else none

/-- What a call of the command asks for. -/
structure Options where
  /-- The annotations; none of them means the lines of the input. -/
  annotations : List Text := []
  format : Format := .text
  inGroup : Bool := false
  squeeze : Bool := false
  configPath : Option Text := none
  maxDepth : Option UInt64 := none
  strict : Bool := false
  verbose : Bool := false
deriving DecidableEq

/-- The options by name. -/
inductive OptionName where
  | format
  | group
  | normalize
  | config
  | maxDepth
  | strict
  | verbose
  | help
  | version
deriving DecidableEq

namespace OptionName

/-- The option with a given letter. -/
def ofShort? : Char → Option OptionName
  | 'f' => some .format
  | 'g' => some .group
  | 'n' => some .normalize
  | 'c' => some .config
  | 'v' => some .verbose
  | 'h' => some .help
  | 'V' => some .version
  | _ => none

/-- The long name of an option. -/
def long : OptionName → String
  | .format => "format"
  | .group => "group"
  | .normalize => "normalize"
  | .config => "config"
  | .maxDepth => "max-depth"
  | .strict => "strict"
  | .verbose => "verbose"
  | .help => "help"
  | .version => "version"

/-- All options. -/
def all : List OptionName :=
  [.format, .group, .normalize, .config, .maxDepth, .strict, .verbose, .help, .version]

/-- The option with a given long name, which is written in full. -/
def ofLong? (name : Text) : Option OptionName :=
  all.find? fun option => option.long.toList = name

/-- Whether an option has a value. -/
def hasValue : OptionName → Bool
  | .format | .config | .maxDepth => true
  | _ => false

end OptionName

/-- Why arguments are not understood. -/
inductive UsageFault where
  | unknownOption (argument : Text)
  | repeated (option : OptionName)
  | missingValue (option : OptionName)
  | unexpectedValue (option : OptionName) (value : Text)
  | badValue (option : OptionName) (value : Text)
deriving DecidableEq

/-- The reason in words. -/
def UsageFault.message : UsageFault → String
  | .unknownOption argument => s!"unexpected argument '{String.ofList argument}' found"
  | .repeated option => s!"the argument '--{option.long}' cannot be used multiple times"
  | .missingValue option => s!"a value is required for '--{option.long}' but none was supplied"
  | .unexpectedValue option value =>
    s!"unexpected value '{String.ofList value}' for '--{option.long}' found"
  | .badValue option value =>
    s!"invalid value '{String.ofList value}' for '--{option.long}'"

/-- What ends the reading of arguments early. -/
inductive Halt where
  | misuse (fault : UsageFault)
  | help
  | version
deriving DecidableEq

/-- A word in decimal, with an optional plus sign in front. -/
def wordOfDecimal? (text : Text) : Option UInt64 :=
  let digits := match text with
    | '+' :: rest => rest
    | _ => text
  if digits.isEmpty ∨ !digits.all Char.isDigit then none
  else
    let value := digits.foldl (fun value c => value * 10 + (c.toNat - '0'.toNat)) 0
    if value < UInt64.size then some (UInt64.ofNat value) else none

/-- The options taken so far. -/
structure Draft where
  options : Options := {}
  given : List OptionName := []

namespace Draft

/-- Another annotation. -/
def annotate (draft : Draft) (annotations : List Text) : Draft :=
  { draft with
    options := { draft.options with annotations := draft.options.annotations ++ annotations } }

/-- A flag, which has no value. -/
def setFlag (draft : Draft) (option : OptionName) : Except Halt Draft :=
  if option ∈ draft.given then .error (.misuse (.repeated option))
  else
    let next (options : Options) : Except Halt Draft := .ok ⟨options, option :: draft.given⟩
    match option with
    | .group => next { draft.options with inGroup := true }
    | .normalize => next { draft.options with squeeze := true }
    | .strict => next { draft.options with strict := true }
    | .verbose => next { draft.options with verbose := true }
    | .help => .error .help
    | .version => .error .version
    | .format | .config | .maxDepth => .error (.misuse (.missingValue option))

/-- An option with its value. -/
def setValue (draft : Draft) (option : OptionName) (value : Text) : Except Halt Draft :=
  if option ∈ draft.given then .error (.misuse (.repeated option))
  else
    let next (options : Options) : Except Halt Draft := .ok ⟨options, option :: draft.given⟩
    let bad : Except Halt Draft := .error (.misuse (.badValue option value))
    match option with
    | .format =>
      match Format.ofName? value with
      | some format => next { draft.options with format }
      | none => bad
    | .config => if value.isEmpty then bad else next { draft.options with configPath := some value }
    | .maxDepth =>
      match wordOfDecimal? value with
      | some maxDepth => next { draft.options with maxDepth := some maxDepth }
      | none => bad
    | _ => .error (.misuse (.unexpectedValue option value))

/-- The options that share one hyphen, and the option whose value is due in the next argument. -/
def takeCluster (draft : Draft) : Text → Except Halt (Draft × Option OptionName)
  | [] => .ok (draft, none)
  | c :: rest =>
    match OptionName.ofShort? c with
    | none => .error (.misuse (.unknownOption ['-', c]))
    | some option =>
      if option.hasValue then
        match rest with
        | [] => .ok (draft, some option)
        | '=' :: value => (draft.setValue option value).map (·, none)
        | value => (draft.setValue option value).map (·, none)
      else do
        let draft ← draft.setFlag option
        draft.takeCluster rest

/-- A long option, and the option whose value is due in the next argument. -/
def takeLong (draft : Draft) (body : Text) : Except Halt (Draft × Option OptionName) :=
  let name := body.takeWhile (· != '=')
  match OptionName.ofLong? name with
  | none => .error (.misuse (.unknownOption ('-' :: '-' :: name)))
  | some option =>
    match body.dropWhile (· != '=') with
    | [] =>
      if option.hasValue then .ok (draft, some option)
      else (draft.setFlag option).map (·, none)
    | _ :: value => (draft.setValue option value).map (·, none)

/-- The rest of the arguments, where the value of an option may be due. -/
def takeAll (draft : Draft) (due : Option OptionName) : List Text → Except Halt Options
  | [] =>
    match due with
    | some option => .error (.misuse (.missingValue option))
    | none => .ok draft.options
  | argument :: rest =>
    match due, argument with
    | some option, '-' :: _ :: _ => .error (.misuse (.missingValue option))
    | some option, value => do
      let draft ← draft.setValue option value
      draft.takeAll none rest
    | none, ['-', '-'] => .ok (draft.annotate rest).options
    | none, '-' :: '-' :: body => do
      let (draft, due) ← draft.takeLong body
      draft.takeAll due rest
    | none, '-' :: c :: cluster => do
      let (draft, due) ← draft.takeCluster (c :: cluster)
      draft.takeAll due rest
    | none, source => (draft.annotate [source]).takeAll none rest

end Draft

/-- The options that arguments ask for. -/
def Options.ofArguments (arguments : List Text) : Except Halt Options :=
  Draft.takeAll {} none arguments

end LuauAnnotation.Command
