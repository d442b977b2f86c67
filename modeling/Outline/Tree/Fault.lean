import Outline.Tree

/-!
# The fault of a tree

A tree is refused for the first error or missing node in document order. The search moves a cursor
over the tree, without recursion, and enters only nodes that are said to hold an error. From a node
that it does not enter it goes on to the next sibling, that of the node itself or else of the
nearest node above that has one; where there is none, the search is over.
-/
namespace Outline

/-- A node of a tree, with what comes after it. -/
structure Cursor where
  node : Node
  /-- The siblings that follow the node. -/
  after : List Node
  /-- The siblings that follow each node above, the nearest first. -/
  above : List (List Node)

namespace Cursor

/-- A search stays below the node at which it starts, so nothing follows that. -/
def start (root : Node) : Cursor := ⟨root, [], []⟩

def firstChild? (c : Cursor) : Option Cursor :=
  match c.node.children with
  | [] => none
  | n :: ns => some ⟨n, ns, c.after :: c.above⟩

/-- The first of the siblings that follow, or else of those that follow the nearest node above. -/
def climb? : (after : List Node) → (above : List (List Node)) → Option Cursor
  | n :: ns, above => some ⟨n, ns, above⟩
  | [], after :: above => climb? after above
  | [], [] => none

/-- Where the search goes from a node that is no fault. -/
def advance? (c : Cursor) : Option Cursor :=
  if c.node.hasError then c.firstChild?.or (climb? c.after c.above) else climb? c.after c.above

/-! ## Termination -/

/-- The number of nodes in several lists. -/
def sizeLists (above : List (List Node)) : Nat := above.foldr (fun ns n => Node.sizeAll ns + n) 0

/-- The number of nodes at the cursor and after it. -/
def work (c : Cursor) : Nat := c.node.size + Node.sizeAll c.after + sizeLists c.above

theorem work_climb? {after : List Node} {above : List (List Node)} {d : Cursor}
    (h : climb? after above = some d) :
    d.work = Node.sizeAll after + sizeLists above := by
  fun_induction climb? after above with
  | case1 n ns above =>
    cases h
    rfl
  | case2 after above ih => simpa [Node.sizeAll, sizeLists] using ih h
  | case3 => cases h

theorem work_firstChild? {c d : Cursor} (h : c.firstChild? = some d) : d.work < c.work := by
  have hs := c.node.size_eq
  unfold firstChild? at h
  split at h
  · cases h
  · rename_i n ns hc
    cases h
    simp only [hc, Node.sizeAll] at hs
    simp only [work, sizeLists, List.foldr_cons]
    omega

theorem work_advance? {c d : Cursor} (h : c.advance? = some d) : d.work < c.work := by
  have hclimb : climb? c.after c.above = some d → d.work < c.work := by
    intro h
    have hd := work_climb? h
    have hs := c.node.size_eq
    unfold work at hd ⊢
    omega
  unfold advance? at h
  split at h
  · rcases Option.or_eq_some_iff.mp h with h | ⟨-, h⟩
    · exact work_firstChild? h
    · exact hclimb h
  · exact hclimb h

/-- The first fault at the cursor or after it, as far as the search looks. -/
def firstFault? (c : Cursor) : Option Node :=
  if c.node.isFault then some c.node
  else
    match h : c.advance? with
    | some d =>
      have := work_advance? h
      firstFault? d
    | none => none
termination_by c.work
decreasing_by assumption

end Cursor

/-- The fault for which a tree is refused: a root that is not said to hold one has none.
mirrors `first_error` -/
def Node.fault? (root : Node) : Option Node :=
  if root.hasError then (Cursor.start root).firstFault? else none

end Outline
