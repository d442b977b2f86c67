import Outline.Adapter.Builtin
import Outline.Extraction.Walk
import Outline.FileSystem
import Outline.Hash.Blake3
import Outline.Tree.Fault

/-!
# Extracting one source

A source is a path with its text. The language is the one asked for, or else the one that the path's
extension tells; the syntax tree comes from a parser, which is a parameter. A tree with an error or
a missing node is refused.
-/
namespace Outline

structure SourceInput where
  /-- The file id, where the caller supplies one. -/
  id : Option EntityId := none
  path : String
  content : String
  deriving DecidableEq, Repr, Inhabited

namespace SourceInput

def fileName (i : SourceInput) : String := baseName i.path

end SourceInput

/-- The id of a source that is given none: the first sixteen digits of the hash of its path, a zero
byte and its content.
mirrors `EntityId.for_source` -/
def sourceId (path content : String) : EntityId :=
  let digest := Blake3.hash (path.toUTF8 ++ ⟨#[0]⟩ ++ content.toUTF8)
  String.ofList ((Blake3.hex digest).toList.take 16)

def SourceInput.fileId (i : SourceInput) : EntityId := i.id.getD (sourceId i.path i.content)

/-- Why a source yields no file. -/
inductive ExtractError where
  | unparsable (path : String) (fault : Node)
  | unbalanced (cause : Imbalance)
  | unsupported (language : String)
  | unreadable (cause : FileError)
  deriving Inhabited

/-- What is wrong at a fault, and where, counted from one. -/
def faultText (n : Node) : String :=
  (if n.isMissing then "missing " ++ n.kind else "syntax error") ++ " at line " ++
    toString (n.start.row + 1) ++ ", column " ++ toString (n.start.column + 1)

def ExtractError.message : ExtractError → String
  | .unparsable path fault => "parse error in " ++ path ++ ": " ++ faultText fault
  | .unbalanced cause => "scope stack imbalance: " ++ cause.message
  | .unsupported language => "unsupported language: " ++ language
  | .unreadable cause => "IO error: " ++ cause.message

/-- The source at a path.
mirrors `SourceInput.read` -/
def SourceInput.read (fs : FileSystem) (path : String) : Except ExtractError SourceInput :=
  match fs.readText path with
  | .ok content => .ok { path, content }
  | .error cause => .error (.unreadable cause)

/-- The adapters at hand and the parser for their languages. -/
structure Extractor where
  registry : Registry := Registry.builtin
  parse : Language → SourceInput → Node

namespace Extractor

/-- mirrors `Driver.adapter_for` -/
def adapterFor (e : Extractor) (i : SourceInput) (language : Option Language) :
    Except ExtractError Adapter :=
  match language with
  | some l =>
    match e.registry.forLanguage? l with
    | some a => .ok a
    | none => .error (.unsupported l.tag)
  | none =>
    match e.registry.find? i.path with
    | some a => .ok a
    | none => .error (.unsupported i.path)

/-- The tree of a source, unless it has a fault.
mirrors `parse` -/
def tree (e : Extractor) (a : Adapter) (i : SourceInput) : Except ExtractError Node :=
  let root := e.parse a.language i
  match root.fault? with
  | some fault => .error (.unparsable i.path fault)
  | none => .ok root

/-- Extracts with a given adapter and dump; answers the dump as it is after the run.
mirrors `Driver.extract_with` -/
def extractWith (e : Extractor) (i : SourceInput) (a : Adapter) (dump : NodeDump) :
    Except ExtractError Extracted × NodeDump :=
  match e.tree a i with
  | .error err => (.error err, dump)
  | .ok root =>
    let file := SourceFile.empty i.fileId i.path a.language
    let x := (Extraction.start file dump).walk a i.content.toUTF8 (Site.root root)
    match x.finish with
    | .ok extracted => (.ok extracted, x.dump)
    | .error err => (.error (.unbalanced err), x.dump)

def extractDumping (e : Extractor) (i : SourceInput) (language : Option Language)
    (dump : NodeDump) : Except ExtractError Extracted × NodeDump :=
  match e.adapterFor i language with
  | .error err => (.error err, dump)
  | .ok a => e.extractWith i a dump

/-- mirrors `Driver.extract` -/
def extract (e : Extractor) (i : SourceInput) (language : Option Language) :
    Except ExtractError Extracted :=
  (e.extractDumping i language .disabled).1

end Extractor
end Outline
