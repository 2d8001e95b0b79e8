import LuauAnnotation.Command.Arguments
import LuauAnnotation.Command.Input
import LuauAnnotation.Settings.Load
import LuauAnnotation.Token.Json
import LuauAnnotation.Token.Outline
import LuauAnnotation.Token.Render
import LuauAnnotation.Tokenizer

/-!
# The command

The command loads its settings and writes one record for each annotation, up to the first one
that is not read. Records written before a fault stay written.
-/

namespace LuauAnnotation.Command

/-- Why the command stops. -/
inductive CommandFault where
  | settings (path : Text) (fault : Fault)
  | untokenized (source : Text) (fault : Fault)
  /-- A line of the input is not UTF-8. -/
  | input
deriving DecidableEq

/-- The reason in words, from the outermost cause to the innermost. An annotation is quoted as
it was given. -/
def CommandFault.message : CommandFault → String
  | .settings path fault =>
    s!"failed to load config {String.ofList path}: {fault.message}"
  | .untokenized source fault =>
    s!"failed to tokenize {String.ofList (quotedText source)}: {fault.message}"
  | .input => "failed to read stdin: stream did not contain valid UTF-8"

/-- What the command has written, and why it stopped early if it did. -/
structure Outcome where
  output : Text
  fault : Option CommandFault
deriving DecidableEq

namespace Options

/-- The settings of a call: those of the file if one is given, with the bounds that the
arguments set. -/
def settings (options : Options) (files : FileView) : Except CommandFault Settings := do
  let loaded ← match options.configPath with
    | some path => (Settings.load files path).mapError (.settings path)
    | none => pure {}
  return ⟨options.maxDepth.getD loaded.maxDepth, options.strict || loaded.strict⟩

/-- Tokens in the form of a call. -/
def write (options : Options) (tokens : List Token) : Text :=
  match options.format with
  | .text => Token.renderAll tokens
  | .debug => (Token.outlineAll tokens).indented
  | .json => (Token.toJsonAll tokens).print

/-- The record of an annotation. -/
def record (options : Options) (settings : Settings) (source : Text) :
    Except CommandFault Text :=
  let text := if options.squeeze then source.squeeze else source
  match tokenize settings options.inGroup text with
  | .ok tokens => .ok (options.write tokens ++ ['\n'])
  | .error fault => .error (.untokenized source fault)

/-- The records of annotations up to the first fault. Nothing in the place of an annotation is
a line that is not UTF-8. -/
def records (options : Options) (settings : Settings) : List (Option Text) → Outcome
  | [] => ⟨[], none⟩
  | none :: _ => ⟨[], some .input⟩
  | some source :: rest =>
    match options.record settings source with
    | .error fault => ⟨[], some fault⟩
    | .ok written =>
      let others := options.records settings rest
      ⟨written ++ others.output, others.fault⟩

/-- The annotations of a call: those among its arguments, or the lines of the input if there
are none. -/
def sources (options : Options) (input : List UInt8) : List (Option Text) :=
  if options.annotations.isEmpty then inputAnnotations input else options.annotations.map some

/-- The outcome of a call. -/
def run (options : Options) (files : FileView) (input : List UInt8) : Outcome :=
  match options.settings files with
  | .error fault => ⟨[], some fault⟩
  | .ok settings => options.records settings (options.sources input)

end Options

/-- What goes to the error stream. -/
inductive Complaint where
  | usage (fault : UsageFault)
  | command (fault : CommandFault)
deriving DecidableEq

/-- A complaint in words. -/
def Complaint.message : Complaint → String
  | .usage fault => "error: " ++ fault.message
  | .command fault => "Error: " ++ fault.message

/-- What the command says in the end. -/
structure Response where
  exitCode : UInt8
  output : Text
  complaint : Option Complaint
deriving DecidableEq

/-- The name and version of the command. -/
def versionLine : Text := "luatype 0.1.0\n".toList

/-- How the command is called, with what each argument and option means. The summary stands in for
the longer text too, which also says what the formats are. -/
def usage : Text :=
  ("Tokenizer for Luau type annotations in generated API docs\n\n" ++
   "Usage: luatype [OPTIONS] [ANNOTATIONS]...\n\n" ++
   "Arguments:\n" ++
   "  [ANNOTATIONS]...  " ++
   "Annotations to tokenize. Read line by line from stdin when none are given\n\n" ++
   "Options:\n" ++
   "  -f, --format <FORMAT>        [default: text] [possible values: text, debug, json]\n" ++
   "  -g, --group                  " ++
   "Tokenize as the inside of a bracket pair, where commas are separators\n" ++
   "  -n, --normalize              Delete all whitespace before tokenizing\n" ++
   "  -c, --config <CONFIG>        Path to a JSON tokenizer config\n" ++
   "      --max-depth <MAX_DEPTH>  Override the config's nesting limit\n" ++
   "      --strict                 Fail on unterminated brackets\n" ++
   "  -v, --verbose                Enable debug logging\n" ++
   "  -h, --help                   Print help\n" ++
   "  -V, --version                Print version\n").toList

/-- The response to a call. Arguments are understood before anything is loaded or read. -/
def respond (files : FileView) (input : List UInt8) (arguments : List Text) : Response :=
  match Options.ofArguments arguments with
  | .error .help => ⟨0, usage, none⟩
  | .error .version => ⟨0, versionLine, none⟩
  | .error (.misuse fault) => ⟨2, [], some (.usage fault)⟩
  | .ok options =>
    let outcome := options.run files input
    match outcome.fault with
    | none => ⟨0, outcome.output, none⟩
    | some fault => ⟨1, outcome.output, some (.command fault)⟩

/-- Whether a call reads its annotations from the input. -/
def readsInput (arguments : List Text) : Bool :=
  match Options.ofArguments arguments with
  | .ok options => options.annotations.isEmpty
  | .error _ => false

/-- The path of the settings that a call loads. -/
def configPath? (arguments : List Text) : Option Text :=
  match Options.ofArguments arguments with
  | .ok options => options.configPath
  | .error _ => none

end LuauAnnotation.Command
