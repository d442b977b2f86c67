import Outline.SourceFile
import Outline.Table

/-!
# Tables of declarations and languages

The declarations of a file, by their first line, classes before functions where they start on the
same one; otherwise in the order of discovery. A name is indented by two blanks for each declaration
around it.
-/
namespace Outline.Report

/-- The declarations around a frame's own, from the inside out: the frame itself, its parent, and so
on, up to the file or to a frame that names nothing. At most `limit` are followed. -/
def enclosing (file : SourceFile) : (limit : Nat) → Frame → List Frame
  | 0, _ => []
  | limit + 1, frame =>
    if frame.kind = .file then []
    else
      match file.parentOf? frame with
      | some parent => frame :: enclosing file limit parent
      | none => [frame]

/-- How deep a declaration with this parent is nested. A chain of parents that does not run in a
circle has no more members than the file has declarations, and one that names nothing.
mirrors `nesting` -/
def nesting (file : SourceFile) (parent : Frame) : Nat :=
  (enclosing file (file.entityCount + 1) parent).length

def indented (file : SourceFile) (parent : Frame) (name : String) : String :=
  String.ofList (List.replicate (2 * nesting file parent) ' ') ++ name

/-- A row with what it is sorted by: the first line, then the kind. -/
structure Entry where
  line : Nat
  rank : Nat
  cells : List String
  deriving DecidableEq, Repr, Inhabited

def Entry.before (a b : Entry) : Bool :=
  a.line < b.line || (a.line == b.line && a.rank ≤ b.rank)

def classEntry (file : SourceFile) (c : ClassDecl) : Entry :=
  { line := c.location.startLine
    rank := 0
    cells := ["class", indented file c.parent c.name, c.location.render, ""] }

def functionEntry (file : SourceFile) (f : FunctionDecl) : Entry :=
  { line := f.location.startLine
    rank := 1
    cells := [
      if f.isConstructor then "constructor" else "function",
      indented file f.parent (if f.isAnonymous then "<lambda>" else f.name),
      f.location.render,
      f.returnType.getD "-"] }

def entries (file : SourceFile) : List Entry :=
  (file.classes.toList.map (classEntry file) ++ file.functions.toList.map (functionEntry file))
    |>.mergeSort Entry.before

/-- The table of a file's declarations; empty if there are none.
mirrors `declarations_table` -/
def declarations (file : SourceFile) : String :=
  match entries file with
  | [] => ""
  | es => Table.render ["Kind", "Name", "Lines", "Returns"] (es.map (·.cells))

/-- mirrors `languages_table` -/
def languages : String :=
  Table.render ["Language", "Tag", "Extensions"] <|
    Language.all.map fun l => [l.displayName, l.tag, ", ".intercalate l.extensions]

end Outline.Report
