import Outline.Extraction

/-!
# Walking a tree

The walk visits the named nodes of a tree in document order, without recursion: it keeps the sites
still to be visited on the current level, and for every node it is inside of, an entry with the
sites that follow it. Anonymous nodes are passed over with all that is below them.

The frame of an open node is pushed only when a child needs it: before each named child the
innermost entry is *aligned*, so that its frame is on the scope stack exactly if the child sits in
the node's own scope. A node that recorded nothing has no frame.
-/
namespace Outline

/-- A node whose children are being visited. -/
structure OpenNode where
  frame : Option Frame
  /-- Whether the frame is on the scope stack. -/
  pushed : Bool
  /-- The siblings that follow the node. -/
  after : List Site

structure Walk where
  /-- The sites still to be visited on the current level. -/
  pending : List Site
  /-- The nodes around them, innermost first. -/
  enclosing : List OpenNode
  extraction : Extraction

namespace Walk

/-- Whether a node belongs to the scope of the node above it. -/
def inOwnScope (a : Adapter) (n : Node) : Bool :=
  match n.field with
  | some field => !a.outsideOwnScope field
  | none => true

/-- Brings the frame of an open node on or off the scope stack.
mirrors `Extraction.align` -/
def align (x : Extraction) (o : OpenNode) (ownScope : Bool) : OpenNode × Extraction :=
  match o.frame with
  | none => (o, x)
  | some f =>
    if ownScope && !o.pushed then
      ({ o with pushed := true }, { x with scopes := x.scopes.push f })
    else if !ownScope && o.pushed then
      ({ o with pushed := false }, { x with scopes := x.scopes.release f })
    else (o, x)

def alignInnermost (x : Extraction) (enclosing : List OpenNode) (ownScope : Bool) :
    List OpenNode × Extraction :=
  match enclosing with
  | [] => ([], x)
  | o :: os =>
    let (o, x) := align x o ownScope
    (o :: os, x)

/-- Takes the frame of a finished node off the scope stack, if it is there.
mirrors `Extraction.close` -/
def close (x : Extraction) (o : OpenNode) : Extraction :=
  match o.frame, o.pushed with
  | some f, true => { x with scopes := x.scopes.release f }
  | _, _ => x

def start (x : Extraction) (s : Site) : Walk :=
  { pending := [s], enclosing := [], extraction := x }

/-- Visits a named site: its parent's frame is aligned first, and its children, if it has any, are
what is pending next. -/
def descend (a : Adapter) (source : ByteArray) (s : Site) (rest : List Site)
    (enclosing : List OpenNode) (x : Extraction) : Walk :=
  let aligned := alignInnermost x enclosing (inOwnScope a s.node)
  let visited := aligned.2.visit a source s
  if s.node.children.isEmpty then ⟨rest, aligned.1, visited.2⟩
  else ⟨s.children, ⟨visited.1, false, rest⟩ :: aligned.1, visited.2⟩

/-- One step: visits the next site of the level, or returns to the level above.
mirrors the loop of `Extraction.walk` -/
def next? (a : Adapter) (source : ByteArray) : Walk → Option Walk
  | ⟨s :: rest, enclosing, x⟩ =>
    if s.node.named then some (descend a source s rest enclosing x) else some ⟨rest, enclosing, x⟩
  | ⟨[], o :: os, x⟩ => some ⟨o.after, os, close x o⟩
  | ⟨[], [], _⟩ => none

/-! ## Termination -/

def siteWork : List Site → Nat
  | [] => 0
  | s :: ss => 2 * s.node.size + siteWork ss

def openWork : List OpenNode → Nat
  | [] => 0
  | o :: os => 1 + siteWork o.after + openWork os

/-- Bounds the steps still to be made: two for each node not yet reached, one for each open node. -/
def work (w : Walk) : Nat := siteWork w.pending + openWork w.enclosing

theorem siteWork_children (s : Site) : siteWork s.children = 2 * Node.sizeAll s.node.children := by
  suffices h : ∀ (above : List Node) (ns : List Node),
      siteWork (ns.map (⟨·, above⟩)) = 2 * Node.sizeAll ns from h _ _
  intro above ns
  induction ns with
  | nil => rfl
  | cons n ns ih =>
    simp only [siteWork, List.map_cons, Node.sizeAll] at ih ⊢
    omega

/-- Aligning changes no entry's siblings. -/
theorem map_after_alignInnermost (x : Extraction) (enclosing : List OpenNode) (ownScope : Bool) :
    (alignInnermost x enclosing ownScope).1.map (·.after) = enclosing.map (·.after) := by
  cases enclosing with
  | nil => rfl
  | cons o os =>
    simp only [alignInnermost, align, List.map_cons, List.cons.injEq, and_true]
    split
    · rfl
    · split
      · rfl
      · split <;> rfl

theorem openWork_congr {os ps : List OpenNode} (h : os.map (·.after) = ps.map (·.after)) :
    openWork os = openWork ps := by
  induction os generalizing ps with
  | nil =>
    cases ps with
    | nil => rfl
    | cons => cases h
  | cons o os ih =>
    cases ps with
    | nil => cases h
    | cons p ps =>
      simp only [List.map_cons, List.cons.injEq] at h
      simp only [openWork, h.1, ih h.2]

theorem work_descend (a : Adapter) (source : ByteArray) (s : Site) (rest : List Site)
    (enclosing : List OpenNode) (x : Extraction) :
    (descend a source s rest enclosing x).work < (Walk.mk (s :: rest) enclosing x).work := by
  have hs := Node.size_eq s.node
  have ha := openWork_congr (map_after_alignInnermost x enclosing (inOwnScope a s.node))
  have hc := siteWork_children s
  unfold descend
  split <;> simp only [work, siteWork, openWork] at ha hc ⊢ <;> omega

theorem work_next? {a : Adapter} {source : ByteArray} {w v : Walk}
    (h : next? a source w = some v) : v.work < w.work := by
  unfold next? at h
  split at h
  · split at h <;> cases h
    · exact work_descend ..
    · simp only [work, siteWork]
      have := Node.size_eq ‹Site›.node
      omega
  · cases h
    simp only [work, siteWork, openWork]
    omega
  · cases h

/-- The extraction after all steps. -/
def run (a : Adapter) (source : ByteArray) (w : Walk) : Extraction :=
  match h : next? a source w with
  | some v =>
    have := work_next? h
    run a source v
  | none => w.extraction
termination_by w.work
decreasing_by assumption

end Walk

/-- Visits a site and all below it. -/
def Extraction.walk (x : Extraction) (a : Adapter) (source : ByteArray) (s : Site) : Extraction :=
  (Walk.start x s).run a source

end Outline
