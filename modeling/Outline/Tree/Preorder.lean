import Outline.Tree

/-!
# Trees in preorder

A tree as the list of its nodes, each before its children: the sites of a tree in that order, and a
tree rebuilt from rows that say how many children each node has.
-/
namespace Outline

mutual

/-- The nodes of a tree with their ancestors, in document order. -/
def Node.sites (above : List Node) : Node → List Site
  | n@⟨_, _, _, _, _, _, _, _, _, _, children⟩ => ⟨n, above⟩ :: Node.sitesAll (n :: above) children

def Node.sitesAll (above : List Node) : List Node → List Site
  | [] => []
  | n :: ns => n.sites above ++ Node.sitesAll above ns

end

def Node.preorder (root : Node) : List Site := root.sites []

/-- A node without its children, and their number. -/
structure Row where
  node : Node
  childCount : Nat

/-- Puts a row before the trees that follow it: the first of them are its children. -/
def Row.adopt (row : Row) (following : List Node) : List Node :=
  { row.node with children := following.take row.childCount } :: following.drop row.childCount

/-- The tree whose preorder listing is given. -/
def Node.ofRows? (rows : List Row) : Option Node :=
  match rows.foldr Row.adopt [] with
  | [root] => some root
  | _ => none

end Outline
