import Outline.Bounds
import Outline.CommandLine.Help
import Outline.Text.Digits

/-!
# The command line

Three commands: to extract the declarations of sources, to list the languages, and to write a
configuration. Beside these there is the help, for the program and for each command.
-/
namespace Outline.CommandLine

inductive OutputFormat where
  | text
  | json
  deriving DecidableEq, Repr, Inhabited

def OutputFormat.ofTag? : String → Option OutputFormat
  | "text" => some .text
  | "json" => some .json
  | _ => none

structure ExtractArguments where
  paths : List String
  language : Option String := none
  format : OutputFormat := .text
  jobs : Option Nat := none
  dumpNodes : Bool := false
  config : Option String := none
  deriving DecidableEq, Repr, Inhabited

/-- What a command line asks for. -/
inductive Invocation where
  | extract (arguments : ExtractArguments)
  | languages
  | init (force : Bool)
  /-- To print a text about the program. -/
  | print (text : String)
  | misuse
  deriving DecidableEq, Repr, Inhabited

/-! ## The commands and their options -/

/-- A number of 64 bits in base ten; a plus sign may come first. -/
def number? (s : String) : Option Nat :=
  let ds := match s.toList with
    | '+' :: cs => cs
    | cs => cs
  if ds.isEmpty || !ds.all Text.isDigit || wordBound ≤ Text.natOfDigits ds then none
  else some (Text.natOfDigits ds)

def verbose : OptionSpec :=
  { long := "verbose", letter := some 'v', help := "Enable verbose logging" }

def printHelp : OptionSpec := CommandSpec.helpOption "Print help"

def printVersion : OptionSpec :=
  { long := "version", letter := some 'V', help := "Print version" }

def extractCommand : CommandSpec where
  call := "declscope extract"
  about := "Extract declarations from files or directories"
  words := some ("<PATHS>...", "Files or directories to extract")
  options := [
    { long := "language", letter := some 'l', value := some "LANGUAGE"
      help := "Force a language instead of guessing from the extension" },
    verbose,
    { long := "format", letter := some 'f', value := some "FORMAT"
      accepts := fun v => (OutputFormat.ofTag? v).isSome
      help := "Output format [default: text] [possible values: text, json]" },
    { long := "jobs", letter := some 'j', value := some "JOBS"
      accepts := fun v => (number? v).isSome
      help := "Number of worker threads" },
    { long := "dump-nodes", help := "Dump every recognized node to stderr" },
    { long := "config", letter := some 'c', value := some "CONFIG"
      accepts := fun v => !v.isEmpty
      help := "Config file (defaults to ./declscope.toml)" },
    printHelp]

def languagesCommand : CommandSpec where
  call := "declscope languages"
  about := "List supported languages"
  options := [verbose, printHelp]

def initCommand : CommandSpec where
  call := "declscope init"
  about := "Write a default declscope.toml"
  options := [{ long := "force", help := "Overwrite an existing config" }, verbose, printHelp]

def helpCommand : CommandSpec where
  call := "declscope help"
  about := "Print this message or the help of the given subcommand(s)"
  words := some ("[COMMAND]...", "Print help for the subcommand(s)")

/-- The commands by their names. -/
def commands : List (String × CommandSpec) :=
  [("extract", extractCommand), ("languages", languagesCommand), ("init", initCommand),
    ("help", helpCommand)]

def program : CommandSpec where
  call := "declscope"
  about := "Extract class and function declarations with their enclosing scopes"
  description := some <| "\n".intercalate [
    "Declscope parses Python and Java sources and lists every class and",
    "function with its line span and the entity that encloses it.",
    "",
    "Example usage:",
    "  declscope extract src/app.py",
    "  declscope extract --format json --jobs 4 ./src",
    "  declscope extract --language java Legacy.txt",
    ""]
  commands := commands.map fun (name, spec) => (name, spec.about)
  options := [verbose, printHelp, printVersion]

def versionText : String := "declscope 0.1.0\n"

/-! ## Reading a command line -/

def stopped (c : CommandSpec) : Stop → Invocation
  | .help summary => .print (c.help summary)
  | .version => .print versionText
  | .misuse => .misuse

/-- Reads the arguments of a command and makes an invocation of what is given. -/
def readCommand (c : CommandSpec) (args : List String) (make : Given → Invocation) : Invocation :=
  match gather c.options (scan c.options true none args).1 with
  | .error stop => stopped c stop
  | .ok given => make given

def extractInvocation (g : Given) : Invocation :=
  if g.words.isEmpty then .misuse
  else .extract {
    paths := g.words
    language := g.settings.lookup "language"
    format := ((g.settings.lookup "format").bind OutputFormat.ofTag?).getD .text
    jobs := (g.settings.lookup "jobs").bind number?
    dumpNodes := g.flags.contains "dump-nodes"
    config := g.settings.lookup "config" }

/-- An invocation that takes no words. -/
def wordless (i : Invocation) (g : Given) : Invocation := if g.words.isEmpty then i else .misuse

def helpInvocation : List String → Invocation
  | [] => .print (program.help false)
  | [name] =>
    match commands.lookup name with
    | some c => .print (c.help false)
    | none => .misuse
  | _ => .misuse

def commandInvocation (name : String) (args : List String) : Invocation :=
  match name with
  | "extract" => readCommand extractCommand args extractInvocation
  | "languages" => readCommand languagesCommand args (wordless .languages)
  | "init" =>
    readCommand initCommand args fun g => wordless (.init (g.flags.contains "force")) g
  | "help" => helpInvocation args
  | _ => .misuse

/-- What the arguments ask for. The program's own options come before the command. -/
def Invocation.parse (args : List String) : Invocation :=
  let (pieces, rest) := scan program.options false none args
  match gather program.options pieces with
  | .error stop => stopped program stop
  | .ok _ =>
    match rest with
    | name :: args => commandInvocation name args
    | [] => .misuse

end Outline.CommandLine
