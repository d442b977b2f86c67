import Outline.Batch
import Outline.CommandLine
import Outline.Config
import Outline.Discovery
import Outline.Report
import Outline.SourceFile.Json
import Outline.Style

/-!
# Running commands

A command is run on a file system and answers with what it prints and its exit status. Every source
that `extract` finds is accounted for: it is among the files printed, or its failure is reported and
counted.
-/
namespace Outline

/-- What a command prints, and its exit status. -/
structure Transcript where
  exit : Nat := 0
  out : String := ""
  err : String := ""
  deriving DecidableEq, Repr, Inhabited

/-- What commands are run on. -/
structure Session where
  files : FileSystem
  parse : Language → SourceInput → Node
  /-- How many workers there are when no number is asked for. -/
  workers : Nat := 1
  /-- The turns of the workers that write node dumps. -/
  turns : List Nat := []
  theme : Theme := .plain

namespace Command
open CommandLine

/-- A text on a line of its own. -/
def line (text : String) : String := text ++ "\n"

def failure (message : String) : Transcript := { exit := 1, err := line ("Error: " ++ message) }

/-- A configuration that cannot be used. Of an invalid one only its path is told, and the line is
left open. -/
def configFailure (e : ConfigError) : Transcript :=
  match e with
  | .invalid _ => { exit := 1, err := "Error: " ++ e.message }
  | _ => failure e.message

/-! ## Extracting -/

/-- What was asked for, by the command line or else by the configuration. -/
structure Plan where
  paths : List String
  exclude : List String
  language : Option Language
  format : OutputFormat
  jobs : Nat
  dumpNodes : Bool

def plan (s : Session) (a : ExtractArguments) : Except Transcript Plan := do
  let config ← match Config.load s.files (a.config.getD Config.defaultPath) with
    | .ok c => pure (c.getD {})
    | .error e => .error (configFailure e)
  let language ← match a.language <|> config.language with
    | none => pure none
    | some tag =>
      match Language.ofTag? tag with
      | some l => pure (some l)
      | none => .error (failure (ExtractError.unsupported tag).message)
  return {
    paths := a.paths
    exclude := config.exclude
    language
    format := a.format
    jobs := (a.jobs <|> config.jobs).getD s.workers
    dumpNodes := a.dumpNodes || config.dumpNodes.getD false }

/-- The failure that a result is, if it is one. -/
def failure? {ε α : Type} : Except ε α → Option ε
  | .ok _ => none
  | .error e => some e

/-- The sources that can be read, and the failures of the others. -/
def readAll (files : FileSystem) (paths : List String) :
    List SourceInput × List (String × ExtractError) :=
  paths.foldr (fun path (inputs, failures) =>
    match SourceInput.read files path with
    | .ok input => (input :: inputs, failures)
    | .error cause => (inputs, (path, cause) :: failures)) ([], [])

def errorLine (theme : Theme) (message : String) : String :=
  line (theme.error.apply "error:" ++ " " ++ message)

def warningLine (theme : Theme) (message : String) : String :=
  line (theme.warning.apply "warning:" ++ " " ++ message)

def countsLine (theme : Theme) (file : SourceFile) : String :=
  let constructors := file.functions.toList.countP (·.isConstructor)
  line <|
    theme.classLike.apply (toString file.classes.size) ++ " classes, " ++
    theme.function.apply (toString file.functions.size) ++ " functions, " ++
    theme.constructor.apply (toString constructors) ++ " constructors  " ++
    theme.muted.apply file.id

/-- A file as text: a heading, how much there is of what, and the table of the declarations.
mirrors `print_text` -/
def fileText (theme : Theme) (file : SourceFile) : String :=
  let table := Report.declarations file
  line (theme.heading.apply (file.path ++ " (" ++ file.language.displayName ++ ")")) ++
    countsLine theme file ++ (if table.isEmpty then "" else line table) ++ "\n"

def warnings (theme : Theme) (x : Extracted) : String :=
  String.join (x.malformed.toList.map fun m =>
    warningLine theme (x.file.path ++ ": " ++ m.message))

def filesJson (files : List SourceFile) : String :=
  line (Json.Value.array (files.map SourceFile.toJson)).pretty

/-- What is written to a dump, piece by piece. -/
def dumpPieces (o : Outcome) : List String :=
  NodeDump.pieces ((String.fromUTF8? o.dump).getD "")

/-- Extracts from all sources that are found. The workers write their dumps while they are at work,
and all other lines are written when none of them is. -/
def extractAll (s : Session) (p : Plan) (paths : List String) : Transcript :=
  let (inputs, unread) := readAll s.files paths
  let extractor : Extractor := { parse := s.parse }
  let dump := if p.dumpNodes then NodeDump.toSink .unlimited else .disabled
  let outcomes := extractor.extractBatch inputs p.language p.jobs dump
  let dumped :=
    Batch.interleave (Batch.workers p.jobs inputs.length) s.turns (outcomes.map dumpPieces)
  let extracted := outcomes.filterMap fun o => o.result.toOption
  let refused := outcomes.filterMap fun o => failure? o.result
  let failures := unread.length + refused.length
  let text := p.format = .text
  { exit := if failures = 0 then 0 else 1
    out :=
      if text then String.join (extracted.map fun x => fileText s.theme x.file)
      else filesJson (extracted.map (·.file))
    err :=
      String.join (unread.map fun (path, cause) =>
        errorLine s.theme (path ++ ": " ++ cause.message)) ++
      String.join dumped ++
      String.join (refused.map fun cause => errorLine s.theme cause.message) ++
      (if text then String.join (extracted.map (warnings s.theme)) else "") ++
      (if failures = 0 then "" else line ("Error: " ++ toString failures ++ " file(s) failed")) }

/-- mirrors `run_extract` -/
def extract (s : Session) (a : ExtractArguments) : Transcript :=
  match plan s a with
  | .error refusal => refusal
  | .ok p =>
    match Discovery.sources s.files .builtin p.paths p.exclude p.language with
    | [] => failure "no supported source files found"
    | paths => extractAll s p paths

/-! ## Other commands -/

/-- mirrors `run_languages` -/
def languages (s : Session) : Transcript :=
  { out := line (s.theme.heading.apply "Supported languages") ++ line Report.languages }

/-- Writes the default configuration; answers the files as they are then, too.
mirrors `run_init` -/
def init (s : Session) (force : Bool) : Transcript × FileSystem :=
  match Config.write s.files Config.defaultPath {} force with
  | .ok files => ({ out := line ("wrote " ++ Config.defaultPath) }, files)
  | .error e => (configFailure e, s.files)

end Command

/-- Runs the command that the arguments ask for; answers the files as they are afterwards, too.
mirrors `main` -/
def Session.run (s : Session) (args : List String) : Transcript × FileSystem :=
  match CommandLine.Invocation.parse args with
  | .extract a => (Command.extract s a, s.files)
  | .languages => (Command.languages s, s.files)
  | .init force => Command.init s force
  | .print text => ({ out := text }, s.files)
  | .misuse =>
    ({ exit := 2, err := "Usage: " ++ CommandLine.program.usage ++ "\n" }, s.files)

end Outline
