import Outline.Proofs.Tree
import Outline.Proofs.Walk.Scopes

/-!
# Walking by recursion

The same walk without cursor, open nodes and scope stack: a recursion over the tree that is handed
the parent of what it meets (`Node.outline`). A node that is not named is passed over with all
below it. A named one is recorded under the parent it was handed; its children come next, each
under the node's own frame if it has one and the child belongs to its scope, and otherwise under
the parent that the node itself was handed.

What is compared is everything that an extraction holds besides its scopes (`Findings`).

* `visit_findings`: recording under the innermost open scope is recording under a parent.
* `reaches_site`, `reaches_children`: the steps that a walk spends on a site, and on the children of
  an open node, find what the recursion finds.
* `walk_eq_outline`: a walk ends, and it finds what the recursion finds under the scope it began in.
-/
namespace Outline

/-! ## Findings -/

/-- What an extraction holds besides its scopes. -/
structure Findings where
  file : SourceFile
  ids : IdSequence
  malformed : Array Malformed
  dump : NodeDump

def Extraction.findings (x : Extraction) : Findings := ⟨x.file, x.ids, x.malformed, x.dump⟩

namespace Findings

def skip (r : Findings) (construct : EntityKind) (missing : MissingPart) (line : Nat) : Findings :=
  { r with malformed := r.malformed.push ⟨construct, missing, line⟩ }

/-- The frame that the next declaration of a kind gets. -/
def nextFrame (r : Findings) (kind : EntityKind) : Frame :=
  ⟨entityId r.ids.fileId kind r.ids.next, kind⟩

/-- Records a function under a parent, unless a part of it is missing. -/
def recordFunction (r : Findings) (parent : Frame) (s : FunctionShape) : Option Frame × Findings :=
  match s.check with
  | .error missing => (none, r.skip .function missing s.lines.1)
  | .ok location =>
    (some (r.nextFrame .function),
      { r with
        file := r.file.addFunction
          { id := (r.nextFrame .function).id
            name := s.name.getD ""
            returnType := s.returnType
            isConstructor := s.isConstructor
            location
            parent }
        ids := { r.ids with next := r.ids.next + 1 } })

@[inherit_doc recordFunction]
def recordClass (r : Findings) (parent : Frame) (s : ClassShape) : Option Frame × Findings :=
  match s.check with
  | .error missing => (none, r.skip .classLike missing s.lines.1)
  | .ok location =>
    (some (r.nextFrame .classLike),
      { r with
        file := r.file.addClass
          { id := (r.nextFrame .classLike).id, name := s.name.getD "", location, parent }
        ids := { r.ids with next := r.ids.next + 1 } })

/-- Records under a parent what a site declares, after the lines for the dump. -/
def visit (r : Findings) (a : Adapter) (source : ByteArray) (s : Site) (parent : Frame) :
    Option Frame × Findings :=
  match a.recognize s source with
  | .function shape =>
    recordFunction { r with dump := r.dump.node EntityKind.function.tag s.node source } parent shape
  | .classLike shape =>
    recordClass { r with dump := r.dump.node EntityKind.classLike.tag s.node source } parent shape
  | .other => (none, r)

end Findings

/-! ## The recursion -/

/-- The parent of what a child declares: the frame of the node above it, if that has one and the
child does not sit under a field outside the node's scope, else the parent of the node above. -/
def Adapter.parentBelow (a : Adapter) (parent : Frame) (frame : Option Frame) (child : Node) :
    Frame :=
  if child.field.any a.outsideOwnScope then parent else frame.getD parent

mutual

/-- All that a tree declares, found under a parent. -/
def Node.outline (a : Adapter) (source : ByteArray) (above : List Node) (parent : Frame) :
    Node → Findings → Findings
  | n@⟨_, _, named, _, _, _, _, _, _, _, children⟩, r =>
    if named then
      let visited := r.visit a source ⟨n, above⟩ parent
      Node.outlineAll a source (n :: above) parent visited.1 children visited.2
    else r

/-- The same for the children, from left to right, of a node that has, or has not, a frame. -/
def Node.outlineAll (a : Adapter) (source : ByteArray) (above : List Node) (parent : Frame)
    (frame : Option Frame) : List Node → Findings → Findings
  | [], r => r
  | n :: ns, r =>
    Node.outlineAll a source above parent frame ns
      (n.outline a source above (a.parentBelow parent frame n) r)

end

theorem Node.outline_eq (a : Adapter) (source : ByteArray) (above : List Node) (parent : Frame)
    (n : Node) (r : Findings) :
    n.outline a source above parent r =
      if n.named then
        Node.outlineAll a source (n :: above) parent (r.visit a source ⟨n, above⟩ parent).1
          n.children (r.visit a source ⟨n, above⟩ parent).2
      else r := by
  cases n
  rw [Node.outline]

/-! ## One site -/

namespace Extraction

theorem recordFunction_findings (x : Extraction) (s : FunctionShape) :
    (x.recordFunction s).1 = (x.findings.recordFunction x.scopes.peek s).1 ∧
      (x.recordFunction s).2.findings = (x.findings.recordFunction x.scopes.peek s).2 := by
  unfold recordFunction Findings.recordFunction
  cases s.check <;> exact ⟨rfl, rfl⟩

theorem recordClass_findings (x : Extraction) (s : ClassShape) :
    (x.recordClass s).1 = (x.findings.recordClass x.scopes.peek s).1 ∧
      (x.recordClass s).2.findings = (x.findings.recordClass x.scopes.peek s).2 := by
  unfold recordClass Findings.recordClass
  cases s.check <;> exact ⟨rfl, rfl⟩

theorem visit_findings (x : Extraction) (a : Adapter) (source : ByteArray) (s : Site) :
    (x.visit a source s).1 = (x.findings.visit a source s x.scopes.peek).1 ∧
      (x.visit a source s).2.findings = (x.findings.visit a source s x.scopes.peek).2 := by
  unfold visit Findings.visit
  cases a.recognize s source with
  | function shape => exact recordFunction_findings (x.dumpNode .function s.node source) shape
  | classLike shape => exact recordClass_findings (x.dumpNode .classLike s.node source) shape
  | other => exact ⟨rfl, rfl⟩

end Extraction

/-! ## The parent that a site is recorded under -/

namespace OpenNode

theorem peek_aligned (o : OpenNode) (k : ScopeStack) (ownScope : Bool) :
    ((o.aligned ownScope).onto k).peek = if ownScope then o.frame.getD k.peek else k.peek := by
  obtain ⟨frame, pushed, after⟩ := o
  cases frame <;> cases ownScope <;> rfl

end OpenNode

namespace Walk

variable {a : Adapter} {source : ByteArray} {k : ScopeStack}

theorem inOwnScope_eq (a : Adapter) (n : Node) :
    inOwnScope a n = !n.field.any a.outsideOwnScope := by
  unfold inOwnScope
  cases n.field <;> rfl

/-- The parent of what a node below these open nodes declares, over the stack of the start. -/
def parentOf (a : Adapter) (k : ScopeStack) : List OpenNode → Node → Frame
  | [], _ => k.peek
  | o :: os, n => a.parentBelow (k.under os).peek o.frame n

theorem alignInnermost_peek {x : Extraction} {os : List OpenNode} (h : x.scopes = k.under os)
    (n : Node) :
    (alignInnermost x os (inOwnScope a n)).2.scopes.peek = parentOf a k os n := by
  rw [alignInnermost_scopes h]
  cases os with
  | nil => rfl
  | cons o os =>
    simp only [alignInnermost, align_node, ScopeStack.under, List.foldr_cons]
    rw [OpenNode.peek_aligned, inOwnScope_eq, parentOf, Adapter.parentBelow]
    cases n.field.any a.outsideOwnScope <;> rfl

theorem alignInnermost_findings (x : Extraction) (os : List OpenNode) (ownScope : Bool) :
    (alignInnermost x os ownScope).2.findings = x.findings := by
  cases os with
  | nil => rfl
  | cons o os =>
    obtain ⟨frame, pushed, after⟩ := o
    cases frame <;> cases ownScope <;> cases pushed <;> rfl

theorem close_findings (x : Extraction) (o : OpenNode) : (close x o).findings = x.findings := by
  obtain ⟨frame, pushed, after⟩ := o
  cases frame <;> cases pushed <;> rfl

/-! ## Open nodes but for a mark -/

/-- The same open nodes, save perhaps for the mark of the innermost one. -/
inductive Realigned : List OpenNode → List OpenNode → Prop where
  | nil : Realigned [] []
  | cons (o : OpenNode) (pushed : Bool) (os : List OpenNode) :
    Realigned (o :: os) ({ o with pushed } :: os)

theorem Realigned.refl : ∀ os : List OpenNode, Realigned os os
  | [] => .nil
  | o :: os => .cons o o.pushed os

theorem realigned_alignInnermost (x : Extraction) (os : List OpenNode) (ownScope : Bool) :
    Realigned os (alignInnermost x os ownScope).1 := by
  cases os with
  | nil => exact .nil
  | cons o os =>
    simp only [alignInnermost, align_node]
    exact .cons ..

/-! ## The steps of a site -/

/-- The steps that a walk spends on a node find what the recursion finds, and change no more about
the open nodes than a mark. -/
def Outlined (a : Adapter) (source : ByteArray) (n : Node) : Prop :=
  ∀ (k : ScopeStack) (above : List Node) (rest : List Site) (os : List OpenNode) (x : Extraction),
    InStep k ⟨⟨n, above⟩ :: rest, os, x⟩ →
    ∃ ps y, Reaches a source ⟨⟨n, above⟩ :: rest, os, x⟩ ⟨rest, ps, y⟩ ∧ Realigned os ps ∧
      y.findings = n.outline a source above (parentOf a k os n) x.findings

theorem reaches_children {ns : List Node} (h : ∀ n ∈ ns, Outlined a source n) (above : List Node)
    {o : OpenNode} {os : List OpenNode} {x : Extraction}
    (hw : InStep k ⟨ns.map (⟨·, above⟩), o :: os, x⟩) :
    ∃ pushed y, Reaches a source ⟨ns.map (⟨·, above⟩), o :: os, x⟩
        ⟨[], { o with pushed } :: os, y⟩ ∧
      y.findings =
        Node.outlineAll a source above (k.under os).peek o.frame ns x.findings := by
  induction ns generalizing o x with
  | nil => exact ⟨o.pushed, x, .refl, by rw [Node.outlineAll]⟩
  | cons n ns ih =>
    rw [List.forall_mem_cons] at h
    obtain ⟨ps, y, hr, hp, hy⟩ := h.1 k above (ns.map (⟨·, above⟩)) (o :: os) x hw
    cases hp with
    | cons _ b =>
      obtain ⟨b', z, hr', hz⟩ := ih h.2 (inStep_reaches hw hr)
      exact ⟨b', z, hr.trans hr', by rw [hz, hy, Node.outlineAll]; rfl⟩

theorem reaches_site (a : Adapter) (source : ByteArray) (n : Node) : Outlined a source n := by
  induction n using Node.children_induction with
  | step n ih =>
    intro k above rest os x hw
    cases hn : n.named with
    | false =>
      have hs : next? a source ⟨⟨n, above⟩ :: rest, os, x⟩ = some ⟨rest, os, x⟩ := by
        simp [next?, hn]
      exact ⟨os, x, .single hs, .refl os, by simp [Node.outline_eq, hn]⟩
    | true =>
      have hs : next? a source ⟨⟨n, above⟩ :: rest, os, x⟩ =
          some (descend a source ⟨n, above⟩ rest os x) := by
        simp [next?, hn]
      have hv := inStep_next? hw hs
      have hk := alignInnermost_peek (a := a) hw.scopes n
      have hl := alignInnermost_scopes hw.scopes (inOwnScope a n)
      have hr := realigned_alignInnermost x os (inOwnScope a n)
      have hx := alignInnermost_findings x os (inOwnScope a n)
      rw [Node.outline_eq, if_pos hn, ← hk, ← hx]
      simp only [descend] at hs hv
      generalize alignInnermost x os (inOwnScope a n) = aligned at *
      obtain ⟨hf, hy⟩ := aligned.2.visit_findings a source ⟨n, above⟩
      rw [← hf, ← hy]
      cases hc : n.children with
      | nil =>
        simp only [hc, List.isEmpty_nil, if_true] at hs
        exact ⟨_, _, .single hs, hr, by rw [Node.outlineAll]⟩
      | cons c cs =>
        rw [← hc]
        simp only [hc, List.isEmpty_cons, Bool.false_eq_true, if_false] at hs hv
        obtain ⟨b, z, hr', hz⟩ := reaches_children ih (n :: above) hv
        -- the children are done: the node is closed, and its siblings come next
        refine ⟨aligned.1, _, (reaches_next hs hr').trans (reaches_close ..), hr, ?_⟩
        rw [close_findings, hz, hl]

end Walk

theorem Extraction.walk_findings (x : Extraction) (a : Adapter) (source : ByteArray) (s : Site) :
    (x.walk a source s).findings =
      s.node.outline a source s.ancestors x.scopes.peek x.findings := by
  obtain ⟨ps, y, hr, hp, hy⟩ :=
    Walk.reaches_site a source s.node x.scopes s.ancestors [] [] x (Walk.inStep_start x s)
  cases hp with
  | nil =>
    have hrun : Walk.run a source (Walk.start x s) = y :=
      (Walk.run_of_reaches hr).trans (Walk.run_of_halted rfl)
    rw [Extraction.walk, hrun, hy]
    rfl

/-- **A walk is the recursion.** From any extraction and any start, a walk comes to its end, and it
leaves the file, the ids, the malformed declarations and the dump as the recursion does that starts
with the innermost open scope as the parent. -/
theorem Extraction.walk_eq_outline (x : Extraction) (a : Adapter) (source : ByteArray) (s : Site) :
    (∃ w, Walk.Reaches a source (Walk.start x s) w ∧ Walk.next? a source w = none ∧
      x.walk a source s = w.extraction) ∧
    (x.walk a source s).findings =
      s.node.outline a source s.ancestors x.scopes.peek x.findings :=
  ⟨Walk.exists_halted a source (Walk.start x s), x.walk_findings a source s⟩

end Outline
