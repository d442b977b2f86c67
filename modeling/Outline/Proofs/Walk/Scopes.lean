import Mathlib.Logic.Relation
import Outline.Extraction.Walk

/-!
# The scope stack during a walk

A walk pushes the frame of an open node when a child needs it, releases it when a child must not
see it, and may push it again. All the same the stack is at every moment what it was at the start
with the frames of the open nodes marked as pushed on top (`InStep`).

* `scopes_next?`: a step makes one move on the scope stack, the one that `Walk.move` names.
* `inStep_next?`, `inStep_reaches`: a step keeps `InStep`, so every state of a walk has it.
* `exists_halted`: every walk comes to a state without a next step, whose extraction `run` answers.
* `scopes_in_step`: frames and faults during a walk and after it, and what each release finds.
-/
namespace Outline

/-! ## Frames and depth -/

namespace ScopeStack

theorem frames_push (k : ScopeStack) (f : Frame) : (k.push f).frames = k.frames ++ [f] := by
  simp [push, frames]

theorem length_frames (k : ScopeStack) : k.frames.length = k.depth := by
  simp [frames, depth]

theorem pop?_push (k : ScopeStack) (f : Frame) : (k.push f).pop? = some (f, k) := rfl

end ScopeStack

/-! ## Runs -/

namespace Walk

/-- The states of a walk: those that steps lead to. -/
abbrev Reaches (a : Adapter) (source : ByteArray) : Walk → Walk → Prop :=
  Relation.ReflTransGen fun w v => next? a source w = some v

variable {a : Adapter} {source : ByteArray}

theorem reaches_next {w v u : Walk} (h : next? a source w = some v) (hv : Reaches a source v u) :
    Reaches a source w u := Relation.ReflTransGen.head h hv

theorem reaches_close (o : OpenNode) (os : List OpenNode) (x : Extraction) :
    Reaches a source ⟨[], o :: os, x⟩ ⟨o.after, os, close x o⟩ := reaches_next rfl .refl

theorem run_of_next? {w v : Walk} (h : next? a source w = some v) :
    run a source w = run a source v := by
  rw [run]
  split
  · rename_i u hu
    rw [h] at hu
    cases hu
    rfl
  · rename_i hn
    rw [h] at hn
    cases hn

theorem run_of_halted {w : Walk} (h : next? a source w = none) : run a source w = w.extraction := by
  rw [run]
  split
  · rename_i u hu
    rw [h] at hu
    cases hu
  · rfl

theorem run_of_reaches {w v : Walk} (h : Reaches a source w v) :
    run a source w = run a source v := by
  induction h with
  | refl => rfl
  | tail _ hs ih => rw [ih, run_of_next? hs]

theorem next?_eq_none {w : Walk} (h : next? a source w = none) :
    w.pending = [] ∧ w.enclosing = [] := by
  unfold next? at h
  split at h
  · split at h <;> cases h
  · cases h
  · exact ⟨rfl, rfl⟩

/-- **Termination.** A walk reaches a state without a next step. -/
theorem exists_halted (a : Adapter) (source : ByteArray) (w : Walk) :
    ∃ v, Reaches a source w v ∧ next? a source v = none ∧ run a source w = v.extraction := by
  -- each step lowers the work that is left
  induction hw : w.work using Nat.strongRecOn generalizing w with
  | ind n ih =>
    cases h : next? a source w with
    | none => exact ⟨w, .refl, h, run_of_halted h⟩
    | some u =>
      obtain ⟨v, hr, hv, he⟩ := ih u.work (hw ▸ work_next? h) u rfl
      exact ⟨v, reaches_next h hr, hv, by rw [run_of_next? h, he]⟩

end Walk

/-! ## Moves on the stack -/

/-- What a step does to the scope stack. -/
inductive ScopeMove where
  | stay
  | push (f : Frame)
  | release (f : Frame)
  deriving DecidableEq, Repr

def ScopeMove.apply : ScopeMove → ScopeStack → ScopeStack
  | .stay, k => k
  | .push f, k => k.push f
  | .release f, k => k.release f

namespace OpenNode

/-- The move before a child that does, or does not, belong to the node's own scope. -/
def alignment (o : OpenNode) (ownScope : Bool) : ScopeMove :=
  match o.frame with
  | none => .stay
  | some f =>
    if ownScope && !o.pushed then .push f
    else if !ownScope && o.pushed then .release f
    else .stay

/-- The node before such a child: one that has a frame is marked by whether the frame is wanted. -/
def aligned (o : OpenNode) (ownScope : Bool) : OpenNode :=
  { o with pushed := if o.frame.isSome then ownScope else o.pushed }

@[simp] theorem aligned_frame (o : OpenNode) (ownScope : Bool) :
    (o.aligned ownScope).frame = o.frame := rfl

/-- The move after the last child. -/
def closing (o : OpenNode) : ScopeMove :=
  match o.frame, o.pushed with
  | some f, true => .release f
  | _, _ => .stay

end OpenNode

/-- The one move that the next step makes on the scope stack. -/
def Walk.move (a : Adapter) : Walk → ScopeMove
  | ⟨s :: _, o :: _, _⟩ =>
    if s.node.named then o.alignment (inOwnScope a s.node) else .stay
  | ⟨[], o :: _, _⟩ => o.closing
  | _ => .stay

namespace Extraction

@[simp] theorem recordFunction_scopes (x : Extraction) (s : FunctionShape) :
    (x.recordFunction s).2.scopes = x.scopes := by
  unfold recordFunction
  split <;> rfl

@[simp] theorem recordClass_scopes (x : Extraction) (s : ClassShape) :
    (x.recordClass s).2.scopes = x.scopes := by
  unfold recordClass
  split <;> rfl

/-- Recording reads the scope stack and leaves it alone. -/
@[simp] theorem visit_scopes (x : Extraction) (a : Adapter) (source : ByteArray) (s : Site) :
    (x.visit a source s).2.scopes = x.scopes := by
  unfold visit
  split
  · rw [recordFunction_scopes]; rfl
  · rw [recordClass_scopes]; rfl
  · rfl

end Extraction

namespace Walk

variable {a : Adapter} {source : ByteArray}

theorem align_scopes (x : Extraction) (o : OpenNode) (ownScope : Bool) :
    (align x o ownScope).2.scopes = (o.alignment ownScope).apply x.scopes := by
  obtain ⟨frame, pushed, after⟩ := o
  cases frame with
  | none => rfl
  | some f => cases ownScope <;> cases pushed <;> rfl

theorem align_node (x : Extraction) (o : OpenNode) (ownScope : Bool) :
    (align x o ownScope).1 = o.aligned ownScope := by
  obtain ⟨frame, pushed, after⟩ := o
  cases frame with
  | none => rfl
  | some f => cases ownScope <;> cases pushed <;> rfl

theorem close_scopes (x : Extraction) (o : OpenNode) :
    (close x o).scopes = o.closing.apply x.scopes := by
  obtain ⟨frame, pushed, after⟩ := o
  cases frame <;> cases pushed <;> rfl

theorem descend_scopes (s : Site) (rest : List Site) (os : List OpenNode) (x : Extraction) :
    (descend a source s rest os x).extraction.scopes =
      (alignInnermost x os (inOwnScope a s.node)).2.scopes := by
  unfold descend
  split <;> exact Extraction.visit_scopes ..

theorem scopes_next? {w v : Walk} (h : next? a source w = some v) :
    v.extraction.scopes = (w.move a).apply w.extraction.scopes := by
  unfold next? at h
  split at h
  · rename_i s rest os x
    split at h <;> cases h <;> rename_i hn
    · rw [descend_scopes]
      cases os with
      | nil => rfl
      | cons o os => simp only [alignInnermost, move, hn, if_true, align_scopes]
    · cases os with
      | nil => rfl
      | cons o os => simp only [move, hn]; rfl
  · cases h
    exact close_scopes ..
  · cases h

end Walk

/-! ## The invariant -/

/-- The stack on which a node's children find themselves, over the stack around the node. -/
def OpenNode.onto (o : OpenNode) (k : ScopeStack) : ScopeStack :=
  match o.frame, o.pushed with
  | some f, true => k.push f
  | _, _ => k

/-- A stack with the pushed frames of open nodes on it. The innermost node comes first in the list
and last on the stack. -/
def ScopeStack.under (k : ScopeStack) (os : List OpenNode) : ScopeStack := os.foldr OpenNode.onto k

/-- The frames of the open nodes that are marked as pushed, outermost first. -/
def Walk.pushedFrames (os : List OpenNode) : List Frame :=
  (os.reverse.filter (·.pushed)).filterMap (·.frame)

/-- The scope stack of a walk that began with the stack `k` is in step with the open nodes. -/
structure Walk.InStep (k : ScopeStack) (w : Walk) : Prop where
  scopes : w.extraction.scopes = k.under w.enclosing
  framed : ∀ o ∈ w.enclosing, o.pushed = true → o.frame.isSome

namespace OpenNode

theorem onto_eq (o : OpenNode) (k : ScopeStack) :
    o.onto k = if o.pushed then (o.frame.map k.push).getD k else k := by
  unfold onto
  cases o.frame <;> cases o.pushed <;> rfl

theorem closing_onto (o : OpenNode) (k : ScopeStack) : o.closing.apply (o.onto k) = k := by
  obtain ⟨frame, pushed, after⟩ := o
  cases frame with
  | none => rfl
  | some f =>
    cases pushed with
    | false => rfl
    | true => exact ScopeStack.release_push k f

theorem alignment_onto (o : OpenNode) (k : ScopeStack) (ownScope : Bool) :
    (o.alignment ownScope).apply (o.onto k) = (o.aligned ownScope).onto k := by
  obtain ⟨frame, pushed, after⟩ := o
  cases frame with
  | none => rfl
  | some f =>
    cases ownScope with
    | true => cases pushed <;> rfl
    | false =>
      cases pushed with
      | true => exact ScopeStack.release_push k f
      | false => rfl

/-- What a release after the last child, or before a child outside the own scope, finds. -/
theorem pop?_onto {o : OpenNode} {f : Frame} (hf : o.frame = some f) (hp : o.pushed = true)
    (k : ScopeStack) : (o.onto k).pop? = some (f, k) := by
  simp only [onto, hf, hp, ScopeStack.pop?_push]

end OpenNode

namespace ScopeStack

theorem frames_under (k : ScopeStack) (os : List OpenNode) :
    (k.under os).frames = k.frames ++ Walk.pushedFrames os := by
  induction os with
  | nil => simp [under, Walk.pushedFrames]
  | cons o os ih =>
    simp only [under, Walk.pushedFrames, List.foldr_cons, OpenNode.onto_eq, List.reverse_cons,
      List.filter_append, List.filterMap_append] at ih ⊢
    rw [← List.append_assoc, ← ih]
    cases hp : o.pushed with
    | false => simp [hp]
    | true => cases hf : o.frame <;> simp [hp, hf, frames_push]

theorem faults_under (k : ScopeStack) (os : List OpenNode) : (k.under os).faults = k.faults := by
  induction os with
  | nil => rfl
  | cons o os ih =>
    simp only [under, List.foldr_cons, OpenNode.onto] at ih ⊢
    split <;> exact ih

theorem depth_le_under (k : ScopeStack) (os : List OpenNode) : k.depth ≤ (k.under os).depth := by
  rw [← length_frames, ← length_frames, frames_under, List.length_append]
  omega

end ScopeStack

namespace Walk

variable {a : Adapter} {source : ByteArray} {k : ScopeStack} {w v : Walk}

theorem alignInnermost_scopes {x : Extraction} {os : List OpenNode} (h : x.scopes = k.under os)
    (ownScope : Bool) :
    (alignInnermost x os ownScope).2.scopes = k.under (alignInnermost x os ownScope).1 := by
  cases os with
  | nil => exact h
  | cons o os =>
    simp only [alignInnermost, align_scopes, align_node, h, ScopeStack.under, List.foldr_cons]
    exact o.alignment_onto _ ownScope

theorem alignInnermost_framed {x : Extraction} {os : List OpenNode}
    (h : ∀ o ∈ os, o.pushed = true → o.frame.isSome) (ownScope : Bool) :
    ∀ o ∈ (alignInnermost x os ownScope).1, o.pushed = true → o.frame.isSome := by
  cases os with
  | nil => exact h
  | cons o os =>
    simp only [alignInnermost, align_node, List.forall_mem_cons, OpenNode.aligned_frame] at h ⊢
    refine ⟨fun hp => ?_, h.2⟩
    cases hf : o.frame with
    | some f => rfl
    | none =>
      have : o.frame.isSome := h.1 (by simpa [OpenNode.aligned, hf] using hp)
      simp [hf] at this

theorem inStep_start (x : Extraction) (s : Site) : InStep x.scopes (start x s) where
  scopes := rfl
  framed := by simp [start]

theorem inStep_descend {s : Site} {rest : List Site} {os : List OpenNode} {x : Extraction}
    (h : InStep k ⟨s :: rest, os, x⟩) : InStep k (descend a source s rest os x) := by
  have hk := alignInnermost_scopes h.scopes (inOwnScope a s.node)
  have hf := alignInnermost_framed (x := x) h.framed (inOwnScope a s.node)
  constructor
  · rw [descend_scopes, hk]
    unfold descend
    split
    · rfl
    · -- the node just opened is not marked, whether it has a frame or not
      simp only [ScopeStack.under, List.foldr_cons, OpenNode.onto_eq]
      rfl
  · unfold descend
    split
    · exact hf
    · simpa using hf

theorem inStep_next? (hw : InStep k w) (h : next? a source w = some v) : InStep k v := by
  unfold next? at h
  split at h
  · split at h <;> cases h
    · exact inStep_descend hw
    · exact ⟨hw.scopes, hw.framed⟩
  · rename_i o os x
    cases h
    refine ⟨?_, fun p hp => hw.framed p (List.mem_cons_of_mem o hp)⟩
    rw [close_scopes, hw.scopes]
    exact o.closing_onto _
  · cases h

theorem inStep_reaches (hw : InStep k w) (h : Reaches a source w v) : InStep k v := by
  induction h with
  | refl => exact hw
  | tail _ hs ih => exact inStep_next? ih hs

/-! ## What a release finds -/

theorem alignment_eq_release {o : OpenNode} {ownScope : Bool} {f : Frame}
    (h : o.alignment ownScope = .release f) : o.frame = some f ∧ o.pushed = true := by
  obtain ⟨frame, pushed, after⟩ := o
  cases frame with
  | none => cases h
  | some g =>
    cases ownScope <;> cases pushed <;> cases h
    exact ⟨rfl, rfl⟩

theorem closing_eq_release {o : OpenNode} {f : Frame} (h : o.closing = .release f) :
    o.frame = some f ∧ o.pushed = true := by
  obtain ⟨frame, pushed, after⟩ := o
  cases frame <;> cases pushed <;> cases h
  exact ⟨rfl, rfl⟩

/-- Only the innermost open node's own frame is ever released, and only while it is marked. -/
theorem move_eq_release {f : Frame} (h : w.move a = .release f) :
    ∃ o os, w.enclosing = o :: os ∧ o.frame = some f ∧ o.pushed = true := by
  unfold move at h
  split at h
  · rename_i s rest o os x
    split at h
    · exact ⟨o, os, rfl, alignment_eq_release h⟩
    · cases h
  · rename_i o os x
    exact ⟨o, os, rfl, closing_eq_release h⟩
  · cases h

theorem pop?_of_release {f : Frame} (hw : InStep k w) (hn : next? a source w = some v)
    (h : w.move a = .release f) : w.extraction.scopes.pop? = some (f, v.extraction.scopes) := by
  obtain ⟨o, os, ho, hf, hp⟩ := move_eq_release h
  have hpop : w.extraction.scopes.pop? = some (f, k.under os) := by
    rw [hw.scopes, ho]
    exact OpenNode.pop?_onto hf hp (k.under os)
  have hv : v.extraction.scopes = k.under os := by
    rw [scopes_next? hn, h, ScopeMove.apply, ScopeStack.release, hpop]
    simp
  rw [hpop, hv]

theorem run_scopes (hw : InStep k w) : (run a source w).scopes = k := by
  obtain ⟨v, hr, hn, he⟩ := exists_halted a source w
  rw [he, (inStep_reaches hw hr).scopes, (next?_eq_none hn).2]
  rfl

/-- **The scope stack is in step with the open nodes.** In every state of a walk the frames are
those at its start and, above them, the frames of the open nodes marked as pushed. The faults are
those at the start. A step makes one move on the stack; where that move is a release, the frame it
pops is the one it expects, and no state is less deep than the start. A walk leaves the stack as it
found it. -/
theorem scopes_in_step (x : Extraction) (a : Adapter) (source : ByteArray) (s : Site) :
    (∀ w, Reaches a source (start x s) w →
      w.extraction.scopes.frames = x.scopes.frames ++ pushedFrames w.enclosing ∧
      (∀ o ∈ w.enclosing, o.pushed = true → o.frame.isSome) ∧
      w.extraction.scopes.faults = x.scopes.faults ∧
      x.scopes.depth ≤ w.extraction.scopes.depth ∧
      ∀ v, next? a source w = some v →
        v.extraction.scopes = (w.move a).apply w.extraction.scopes ∧
        ∀ f, w.move a = .release f →
          w.extraction.scopes.pop? = some (f, v.extraction.scopes)) ∧
    (x.walk a source s).scopes = x.scopes := by
  refine ⟨fun w hr => ?_, run_scopes (inStep_start x s)⟩
  have hw := inStep_reaches (inStep_start x s) hr
  refine ⟨?_, hw.framed, ?_, ?_, fun v hn => ⟨scopes_next? hn, fun f => pop?_of_release hw hn⟩⟩
  · rw [hw.scopes, ScopeStack.frames_under]
  · rw [hw.scopes, ScopeStack.faults_under]
  · rw [hw.scopes]
    exact ScopeStack.depth_le_under ..

end Walk
end Outline
