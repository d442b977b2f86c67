import Outline.Entity
import Outline.Language
import Outline.Location

/-!
# Outlined files

A file with the functions and classes found in it, each in the order of discovery. Look-ups take
the first match: ids are unique in a file that was extracted, and need not be in one that was read
from a text.
-/
namespace Outline

structure FunctionDecl where
  id : EntityId
  /-- Empty for an anonymous function. -/
  name : String
  returnType : Option String
  isConstructor : Bool
  location : Location
  parent : Frame
  deriving DecidableEq, Repr, Inhabited

structure ClassDecl where
  id : EntityId
  name : String
  location : Location
  parent : Frame
  deriving DecidableEq, Repr, Inhabited

structure SourceFile where
  id : EntityId
  path : String
  name : String
  language : Language
  functions : Array FunctionDecl
  classes : Array ClassDecl
  deriving DecidableEq, Repr, Inhabited

def FunctionDecl.isAnonymous (f : FunctionDecl) : Bool := f.name.isEmpty

def FunctionDecl.frame (f : FunctionDecl) : Frame := ⟨f.id, .function⟩

def ClassDecl.frame (c : ClassDecl) : Frame := ⟨c.id, .classLike⟩

/-- What follows the last slash or backslash of a path. -/
def baseName (path : String) : String :=
  String.ofList (path.toList.reverse.takeWhile fun c => c != '/' && c != '\\').reverse

namespace SourceFile

/-- A file in which nothing has been found yet.
mirrors `File.new` -/
def empty (id : EntityId) (path : String) (language : Language) : SourceFile :=
  { id, path, name := baseName path, language, functions := #[], classes := #[] }

def frame (f : SourceFile) : Frame := ⟨f.id, .file⟩

def addFunction (f : SourceFile) (d : FunctionDecl) : SourceFile :=
  { f with functions := f.functions.push d }

def addClass (f : SourceFile) (d : ClassDecl) : SourceFile :=
  { f with classes := f.classes.push d }

/-! ## Queries -/

def function? (f : SourceFile) (id : EntityId) : Option FunctionDecl :=
  f.functions.find? (·.id == id)

def class? (f : SourceFile) (id : EntityId) : Option ClassDecl :=
  f.classes.find? (·.id == id)

def functionsNamed (f : SourceFile) (name : String) : Array FunctionDecl :=
  f.functions.filter (·.name == name)

/-- The functions whose parent has this id, whatever the parent's kind.
mirrors `File.functions_in` -/
def functionsIn (f : SourceFile) (parent : EntityId) : Array FunctionDecl :=
  f.functions.filter (·.parent.id == parent)

/-- Whether a frame names this file or a declaration in it.
mirrors `File.resolves` -/
def resolves (f : SourceFile) (frame : Frame) : Bool :=
  match frame.kind with
  | .file => frame.id == f.id
  | .function => (f.function? frame.id).isSome
  | .classLike => (f.class? frame.id).isSome

def entityCount (f : SourceFile) : Nat := f.functions.size + f.classes.size

/-- The parent of the declaration that a frame names, if it names one. -/
def parentOf? (f : SourceFile) (frame : Frame) : Option Frame :=
  match frame.kind with
  | .file => none
  | .function => (f.function? frame.id).map (·.parent)
  | .classLike => (f.class? frame.id).map (·.parent)

end SourceFile
end Outline
