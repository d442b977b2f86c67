/-!
# Syntax trees

A node as a grammar delivers it: its kind, the field under which it sits in its parent, what the
grammar says about errors, and where it lies in the source, in bytes and in rows and columns counted
from zero. Children include the anonymous ones (keywords, punctuation).

A `Site` is a node together with its ancestors, the nearest first. Recognising a declaration may
look upwards, so this is what is handed around.
-/
namespace Outline

structure Point where
  row : Nat
  column : Nat
  deriving DecidableEq, Repr, Inhabited

structure Node where
  kind : String
  field : Option String
  named : Bool
  isError : Bool
  isMissing : Bool
  /-- Whether the node or something below it is an error or missing. -/
  hasError : Bool
  startByte : Nat
  endByte : Nat
  start : Point
  stop : Point
  children : List Node
  deriving Inhabited, Repr

structure Site where
  node : Node
  ancestors : List Node
  deriving Inhabited, Repr

mutual

/-- The number of nodes of a tree. -/
def Node.size : Node → Nat
  | ⟨_, _, _, _, _, _, _, _, _, _, children⟩ => 1 + Node.sizeAll children

def Node.sizeAll : List Node → Nat
  | [] => 0
  | n :: ns => n.size + Node.sizeAll ns

end

namespace Node

theorem size_eq (n : Node) : n.size = 1 + sizeAll n.children := by cases n; rfl

/-- The first child that sits under a field. -/
def childByField? (n : Node) (field : String) : Option Node :=
  n.children.find? (·.field == some field)

def hasField (n : Node) (field : String) : Bool := (n.childByField? field).isSome

/-- The node's text, unless its bytes are no UTF-8. -/
def text? (n : Node) (source : ByteArray) : Option String :=
  String.fromUTF8? (source.extract n.startByte n.endByte)

def fieldText? (n : Node) (field : String) (source : ByteArray) : Option String :=
  (n.childByField? field).bind (·.text? source)

/-- First and last line, counted from one. A node that ends at the very start of a later row does
not reach into that row. -/
def lines (n : Node) : Nat × Nat :=
  let endRow := if n.stop.column = 0 ∧ n.start.row < n.stop.row then n.stop.row - 1 else n.stop.row
  (n.start.row + 1, endRow + 1)

/-- An error, or something that the grammar misses. -/
def isFault (n : Node) : Bool := n.isError || n.isMissing

end Node

namespace Site

def root (n : Node) : Site := ⟨n, []⟩

def children (s : Site) : List Site := s.node.children.map (⟨·, s.node :: s.ancestors⟩)

end Site
end Outline
