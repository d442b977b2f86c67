import Outline.Adapter
import Outline.NodeDump
import Outline.Scope.Script
import Outline.SourceFile

/-!
# Extractions

An extraction is a file being filled: the declarations recorded so far, the scopes that are open,
the ids still to be given, the declarations that were skipped because a part is missing, and the
dump. A declaration's parent is the innermost open scope at the moment it is recorded.
-/
namespace Outline

/-- A declaration that was skipped. -/
structure Malformed where
  construct : EntityKind
  missing : MissingPart
  line : Nat
  deriving DecidableEq, Repr, Inhabited

def Malformed.message (m : Malformed) : String :=
  "malformed " ++ m.construct.tag ++ " at line " ++ toString m.line ++ ": missing " ++
    m.missing.text

/-- What an extraction yields. -/
structure Extracted where
  file : SourceFile
  malformed : Array Malformed
  deriving DecidableEq, Repr, Inhabited

structure Extraction where
  file : SourceFile
  scopes : ScopeStack
  ids : IdSequence
  malformed : Array Malformed
  dump : NodeDump
  deriving Inhabited

namespace Extraction

/-- mirrors `Extraction.new` -/
def start (file : SourceFile) (dump : NodeDump) : Extraction :=
  { file
    scopes := { root := file.frame }
    ids := { fileId := file.id }
    malformed := #[]
    dump }

instance : ScopeOwner Extraction where
  scopes x := x.scopes
  setScopes x k := { x with scopes := k }
  scopes_setScopes _ _ := rfl
  setScopes_scopes _ := rfl
  setScopes_setScopes _ _ _ := rfl

def skip (x : Extraction) (construct : EntityKind) (missing : MissingPart) (line : Nat) :
    Extraction :=
  { x with malformed := x.malformed.push ⟨construct, missing, line⟩ }

/-- Records a function and answers its frame; a malformed one is skipped and takes no id.
mirrors `Extraction.record_function` -/
def recordFunction (x : Extraction) (s : FunctionShape) : Option Frame × Extraction :=
  match s.check with
  | .error missing => (none, x.skip .function missing s.lines.1)
  | .ok location =>
    let (id, ids) := x.ids.take .function
    let decl : FunctionDecl :=
      { id
        name := s.name.getD ""
        returnType := s.returnType
        isConstructor := s.isConstructor
        location
        parent := x.scopes.peek }
    (some decl.frame, { x with file := x.file.addFunction decl, ids })

/-- Records a class in the same way.
mirrors `Extraction.record_class` -/
def recordClass (x : Extraction) (s : ClassShape) : Option Frame × Extraction :=
  match s.check with
  | .error missing => (none, x.skip .classLike missing s.lines.1)
  | .ok location =>
    let (id, ids) := x.ids.take .classLike
    let decl : ClassDecl := { id, name := s.name.getD "", location, parent := x.scopes.peek }
    (some decl.frame, { x with file := x.file.addClass decl, ids })

def line (x : Extraction) (text : String) : Extraction := { x with dump := x.dump.line text }

def dumpNode (x : Extraction) (kind : EntityKind) (n : Node) (source : ByteArray) : Extraction :=
  { x with dump := x.dump.node kind.tag n source }

/-- Recognises a node and records what it declares.
mirrors `Extraction.visit` -/
def visit (x : Extraction) (a : Adapter) (source : ByteArray) (s : Site) :
    Option Frame × Extraction :=
  match a.recognize s source with
  | .function shape => (x.dumpNode .function s.node source).recordFunction shape
  | .classLike shape => (x.dumpNode .classLike s.node source).recordClass shape
  | .other => (none, x)

/-- mirrors `Extraction.finish` -/
def finish (x : Extraction) : Except Imbalance Extracted :=
  match x.scopes.finish with
  | .ok _ => .ok ⟨x.file, x.malformed⟩
  | .error e => .error e

end Extraction
end Outline
