import Outline.FileTree
import Outline.Path

/-!
# File systems

All files as one tree, and the directory that a program works in. A path that starts with a slash
goes from the root directory, any other from the working directory. Above the root directory there
is only itself. There are no links, so that each entry has one place.
-/
namespace Outline

structure FileSystem where
  /-- The directory that all others are in. -/
  root : FileTree
  /-- The place of the working directory. -/
  here : Place := []
  deriving Inhabited

/-- Goes from a place through one part of a path. Only from a directory is there a way on, also to
the directory itself and to the one around it. -/
def FileTree.step (t : FileTree) (place : Place) (segment : List Char) : Except FileError Place :=
  match t.at? place with
  | some (.directory es) =>
    if Path.isVoid segment then .ok place
    else if segment = ['.', '.'] then .ok place.dropLast
    else
      let name := String.ofList segment
      if (es.lookup name).isSome then .ok (place ++ [name]) else .error .notFound
  | some (.file _) => .error .notADirectory
  | none => .error .notFound

namespace FileSystem

/-- Where a path starts. -/
def origin (fs : FileSystem) (path : String) : Place :=
  if Path.isAbsolute path then [] else fs.here

/-- The place that a path leads to. The empty path leads nowhere. -/
def resolve (fs : FileSystem) (path : String) : Except FileError Place :=
  if path.isEmpty then .error .notFound
  else (Path.segments path.toList).foldlM fs.root.step (fs.origin path)

def find (fs : FileSystem) (path : String) : Except FileError FileTree := do
  match fs.root.at? (← fs.resolve path) with
  | some entry => .ok entry
  | none => .error .notFound

def has (fs : FileSystem) (path : String) : Bool := (fs.find path).isOk

def hasDirectory (fs : FileSystem) (path : String) : Bool :=
  match fs.find path with
  | .ok entry => entry.isDirectory
  | .error _ => false

def readText (fs : FileSystem) (path : String) : Except FileError String := do
  match ← fs.find path with
  | .directory _ => .error .isADirectory
  | .file bytes =>
    match String.fromUTF8? bytes with
    | some text => .ok text
    | none => .error .notUtf8

/-- Where a file can be written under a path: its directory is there, and it is not one itself. A
path of slashes is the root directory. -/
def target (fs : FileSystem) (path : String) : Except FileError Place :=
  if path.isEmpty then .error .notFound
  else
    let reversed := (Path.segments path.toList).reverse
    match reversed.dropWhile List.isEmpty with
    | [] => .error .isADirectory
    | last :: before => do
      let place ← before.reverse.foldlM fs.root.step (fs.origin path)
      let name := String.ofList last
      match fs.root.at? place with
      | some (.directory es) =>
        let isNoName := reversed.head? == some [] || last == ['.'] || last == ['.', '.']
        if isNoName || ((es.lookup name).map FileTree.isDirectory).getD false then
          .error .isADirectory
        else .ok (place ++ [name])
      | some (.file _) => .error .notADirectory
      | none => .error .notFound

def writeText (fs : FileSystem) (path text : String) : Except FileError FileSystem := do
  return { fs with root := .insert (.file text.toUTF8) (← fs.target path) fs.root }

end FileSystem
end Outline
