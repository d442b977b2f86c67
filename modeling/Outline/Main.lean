import Outline.Command
import Outline.Tree.Json

/-!
# The program

Runs a command on the working directory and on what its arguments name. Syntax trees are made
beforehand: the tree of a source is kept beside it, in a file with `.tree` after the source's name.
A source without one counts as not parsable.
-/
namespace Outline.Program

/-- Stands for the tree of a source that has none. -/
def noTree : Node := {
  kind := "ERROR", field := none, named := true
  isError := true, isMissing := false, hasError := true
  startByte := 0, endByte := 0, start := ⟨0, 0⟩, stop := ⟨0, 0⟩, children := [] }

def storedTree (files : FileSystem) (_ : Language) (i : SourceInput) : Node :=
  ((files.readText (i.path ++ ".tree")).toOption.bind Node.ofJson?).getD noTree

/-- Reads directories with all that is in them. What cannot be read is left out. -/
partial def readEntries (entries : List IO.FS.DirEntry) : IO (List (String × FileTree)) :=
  entries.filterMapM fun e => do
    try
      let tree ←
        if ← e.path.isDir then
          pure (FileTree.directory (← readEntries (← e.path.readDir).toList))
        else pure (FileTree.file (← IO.FS.readBinFile e.path))
      return some (e.fileName, tree)
    catch _ => return none

/-- Reads what a path leads to, and where that is. -/
def readPath? (path : String) : IO (Option (Place × FileTree)) := do
  try
    let real ← IO.FS.realPath path
    let tree ←
      if ← real.isDir then pure (FileTree.directory (← readEntries (← real.readDir).toList))
      else pure (FileTree.file (← IO.FS.readBinFile real))
    return some (Path.names real.toString, tree)
  catch _ => return none

/-- What a directory may hold that counts for all that is below it. -/
def signs : List Place :=
  [[".ignore"], [".gitignore"], [".git"], [".git", "info", "exclude"], [".jj"]]

/-- Puts a file into a tree as it is, and a directory without what is in it. -/
def readSign (t : FileTree) (place : Place) : IO FileTree := do
  try
    let real ← IO.FS.realPath ("/" ++ "/".intercalate place)
    if ← real.isDir then return t.makeDirectory place
    else return FileTree.insert (.file (← IO.FS.readBinFile real)) place t
  catch _ => return t

/-- Reads the working directory and what the paths lead to. Of the directories above only that is
read which counts below. -/
def readFiles (paths : List String) : IO FileSystem := do
  let entries ← ("." :: paths).filterMapM readPath?
  let above := entries.flatMap fun (place, _) => (List.range place.length).map place.take
  let signed ← (above.flatMap fun dir => signs.map (dir ++ ·)).foldlM readSign .empty
  let root := entries.foldl (fun t (place, entry) => FileTree.insert entry place t) signed
  return { root, here := Path.names (← IO.FS.realPath ".").toString }

/-- Stores the configuration if it has changed. -/
def storeConfig (before after : FileSystem) : IO Unit := do
  let path := Config.defaultPath
  match after.readText path with
  | .ok text =>
    if (before.readText path).toOption != some text then IO.FS.writeFile path text
  | .error _ => return

/-- The paths that a command names, and the trees beside them. -/
def namedPaths : CommandLine.Invocation → List String
  | .extract a => a.config.toList ++ a.paths ++ a.paths.map (· ++ ".tree")
  | _ => []

def readsFiles : CommandLine.Invocation → Bool
  | .extract _ | .init _ => true
  | _ => false

def run (args : List String) : IO UInt32 := do
  let invocation := CommandLine.Invocation.parse args
  let files ← if readsFiles invocation then readFiles (namedPaths invocation) else pure default
  let theme := Theme.detect (← (← IO.getStdout).isTty)
  let (transcript, after) := ({ files, parse := storedTree files, theme : Session }).run args
  storeConfig files after
  IO.print transcript.out
  IO.eprint transcript.err
  return UInt32.ofNat transcript.exit

end Outline.Program

def main (args : List String) : IO UInt32 := Outline.Program.run args
