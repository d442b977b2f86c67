import Outline.Bounds
import Outline.FileSystem
import Outline.Toml.Document

/-!
# Configurations

Settings of a project, kept as a TOML file. A setting that is left out takes its default; settings
that are not known are skipped.

A write goes through only as a whole: whether the file is there, whether the settings can be written
down and whether the place can hold a file is all known before anything changes.
-/
namespace Outline

structure Config where
  /-- The language of every file, instead of the one that its extension tells. -/
  language : Option String := none
  jobs : Option Nat := none
  dumpNodes : Option Bool := none
  /-- Ignore rules for directories that are searched. -/
  exclude : List String := []
  deriving DecidableEq, Repr, Inhabited

inductive ConfigError where
  /-- There is a file already. -/
  | alreadyThere (path : String)
  | invalid (path : String)
  /-- A number is too large to be written. -/
  | unwritable
  | file (cause : FileError)
  deriving DecidableEq, Repr, Inhabited

def ConfigError.message : ConfigError → String
  | .alreadyThere path => "config already exists at " ++ path ++ " (use --force to overwrite)"
  | .invalid path => "invalid config " ++ path
  | .unwritable => "out-of-range value for u64 type"
  | .file cause => cause.message

namespace Config

def defaultPath : String := "declscope.toml"

/-! ## Reading -/

/-- The setting under a key, or the default if there is none; no result if it is of another type. -/
def setting {α : Type} (decode : Toml.Value → Option α) (default : α) (key : String)
    (ms : Toml.Members) : Option α :=
  match ms.lookup key with
  | none => some default
  | some v => decode v

def asString : Toml.Value → Option String
  | .string s => some s
  | _ => none

def asNat : Toml.Value → Option Nat
  | .integer (.ofNat n) => some n
  | _ => none

def asBool : Toml.Value → Option Bool
  | .boolean b => some b
  | _ => none

def asStrings : Toml.Value → Option (List String)
  | .array vs => vs.mapM asString
  | _ => none

def ofMembers? (ms : Toml.Members) : Option Config := do
  return {
    language := ← setting (fun v => some <$> asString v) none "language" ms
    jobs := ← setting (fun v => some <$> asNat v) none "jobs" ms
    dumpNodes := ← setting (fun v => some <$> asBool v) none "dump_nodes" ms
    exclude := ← setting asStrings [] "exclude" ms }

def ofText? (text : String) : Option Config := (Toml.read? text).bind ofMembers?

/-- The configuration at a path; `none` if there is no file.
mirrors `load_config` -/
def load (fs : FileSystem) (path : String) : Except ConfigError (Option Config) :=
  if !fs.has path then .ok none
  else
    match fs.readText path with
    | .error cause => .error (.file cause)
    | .ok text =>
      match ofText? text with
      | some c => .ok (some c)
      | none => .error (.invalid path)

/-! ## Writing -/

/-- An array of several items has one on each line. -/
def writeStrings : List String → String
  | [] => "[]"
  | [s] => "[" ++ Toml.writeString s ++ "]"
  | ss => "[\n" ++ String.join (ss.map fun s => "    " ++ Toml.writeString s ++ ",\n") ++ "]"

def line (key value : String) : String := key ++ " = " ++ value ++ "\n"

def lineOf {α : Type} (key : String) (write : α → String) : Option α → String
  | some a => line key (write a)
  | none => ""

/-- The text of a configuration, unless its number of jobs is out of bounds. -/
def toText? (c : Config) : Option String :=
  if c.jobs.any (signedBound ≤ ·) then none
  else
    some <|
      lineOf "language" Toml.writeString c.language ++
      lineOf "jobs" toString c.jobs ++
      lineOf "dump_nodes" (fun b => if b then "true" else "false") c.dumpNodes ++
      line "exclude" (writeStrings c.exclude)

/-- Writes a configuration; an existing file is replaced only by force.
mirrors `write_config` -/
def write (fs : FileSystem) (path : String) (c : Config) (force : Bool) :
    Except ConfigError FileSystem :=
  if fs.has path && !force then .error (.alreadyThere path)
  else
    match c.toText? with
    | none => .error .unwritable
    | some text =>
      match fs.writeText path text with
      | .ok fs => .ok fs
      | .error cause => .error (.file cause)

end Config
end Outline
