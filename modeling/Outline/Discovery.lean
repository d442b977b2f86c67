import Outline.Adapter
import Outline.FileSystem
import Outline.Ignore.Level

/-!
# Finding source files

All files below a directory that no ignore file, no exclude and no language rules out, in the order
of their names. A path starts with the directory as it was given.
-/
namespace Outline

namespace Discovery

mutual

/-- The paths of the files at and below a place that the ignore files leave. -/
def visible (levels : List IgnoreLevel) (place : Place) (path : String) : FileTree → List String
  | .file _ => [path]
  | .directory entries =>
    visibleAmong (IgnoreLevel.ofDirectory place (.directory entries) :: levels) place path entries

def visibleAmong (levels : List IgnoreLevel) (place : Place) (path : String) :
    List (String × FileTree) → List String
  | [] => []
  | (name, t) :: rest =>
    let here := place ++ [name]
    let below :=
      if IgnoreLevel.verdict? levels here t.isDirectory = some .ignored then []
      else visible levels here (Path.child path name) t
    below ++ visibleAmong levels place path rest

end

/-- Orders paths by their names, one by one. -/
def inOrder (a b : String) : Bool := !decide (Path.names b < Path.names a)

/-- The paths at and below a root that the ignore files leave. The lone dash stands for no file. -/
def candidates (fs : FileSystem) (root : String) : List String :=
  if root = "-" then []
  else
    match fs.resolve root with
    | .error _ => []
    | .ok place =>
      match fs.root.at? place with
      | some entry => visible (IgnoreLevel.above fs.root place) place root entry
      | none => []

/-- The files at and below a root that are not excluded and are wanted.
mirrors `collect_files` -/
def collect (fs : FileSystem) (root : String) (excludes : List String) (wanted : String → Bool) :
    List String :=
  let list := IgnoreList.excluding root excludes
  ((candidates fs root).filter fun path => list.isIgnored? path false == some false && wanted path)
    |>.mergeSort inOrder

/-- Whether a path is a source: in the given language, or in any if none is given. -/
def isSource (registry : Registry) (language : Option Language) (path : String) : Bool :=
  match language with
  | some l =>
    match registry.forLanguage? l with
    | some a => a.handles path
    | none => false
  | none => (registry.find? path).isSome

/-- The sources that some paths name: a directory stands for the sources in it, and any other path
for itself.
mirrors `discover` -/
def sources (fs : FileSystem) (registry : Registry) (paths excludes : List String)
    (language : Option Language) : List String :=
  paths.flatMap fun path =>
    if fs.hasDirectory path then collect fs path excludes (isSource registry language) else [path]

end Discovery
end Outline
