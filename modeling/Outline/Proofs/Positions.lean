import Outline.Proofs.Preorder

/-!
# Where nodes lie

Points of a source are ordered by row and then by column. In the tree of a source every node lies
within its parent, and siblings come one after the other; document order is then the order in which
the nodes begin.

* `Node.Within`, `Within.bounds`: nodes that lie within their parents lie within the root.
* `Node.Nested`: a tree whose nodes are ranges that lie within their parents.
* `Node.Ordered`, `Ordered.pairwise_start`: in document order, no node begins before an earlier one.
* `Node.Arranged`: a tree whose siblings do not overlap, which is nested and ordered.
-/
namespace Outline

namespace Point

instance : LE Point := ⟨fun a b => a.row < b.row ∨ a.row = b.row ∧ a.column ≤ b.column⟩

instance (a b : Point) : Decidable (a ≤ b) :=
  inferInstanceAs (Decidable (a.row < b.row ∨ a.row = b.row ∧ a.column ≤ b.column))

variable {a b c : Point}

theorem le_iff : a ≤ b ↔ a.row < b.row ∨ a.row = b.row ∧ a.column ≤ b.column := Iff.rfl

theorem eq_iff : a = b ↔ a.row = b.row ∧ a.column = b.column := by
  cases a
  cases b
  simp

theorem le_refl (a : Point) : a ≤ a := Or.inr ⟨rfl, Nat.le_refl _⟩

theorem le_trans (hab : a ≤ b) (hbc : b ≤ c) : a ≤ c := by
  rw [le_iff] at hab hbc ⊢
  omega

theorem row_le (h : a ≤ b) : a.row ≤ b.row := by
  rw [le_iff] at h
  omega

end Point

namespace Node

/-- Every node lies within its parent. -/
def Within (root : Node) : Prop :=
  ∀ n ∈ root.nodes, ∀ c ∈ n.children, n.start ≤ c.start ∧ c.stop ≤ n.stop

/-- Every node begins before it ends and lies within its parent. -/
structure Nested (root : Node) : Prop where
  forward : ∀ n ∈ root.nodes, n.start ≤ n.stop
  within : root.Within

/-- Every node lies within its parent and begins no earlier than the siblings before it, nor than
anything in them. -/
structure Ordered (root : Node) : Prop where
  within : root.Within
  siblings : ∀ n ∈ root.nodes, n.children.Pairwise fun a b => ∀ m ∈ a.nodes, m.start ≤ b.start

/-- Every node begins before it ends and lies within its parent, and a sibling begins where the one
before it ends, or later. -/
structure Arranged (root : Node) : Prop extends Nested root where
  siblings : ∀ n ∈ root.nodes, n.children.Pairwise fun a b => a.stop ≤ b.start

variable {n c m : Node}

theorem Within.of_mem (h : n.Within) (hm : m ∈ n.nodes) : m.Within :=
  fun k hk => h k (mem_nodes_trans hm hk)

theorem Within.child (h : n.Within) (hc : c ∈ n.children) : c.Within :=
  h.of_mem (mem_nodes_of_child hc c.self_mem_nodes)

theorem Within.bounds (h : n.Within) (hm : m ∈ n.nodes) : n.start ≤ m.start ∧ m.stop ≤ n.stop := by
  induction n using children_induction with
  | step n ih =>
    rw [nodes_eq] at hm
    rcases List.mem_cons.mp hm with rfl | hm
    · exact ⟨Point.le_refl _, Point.le_refl _⟩
    · obtain ⟨c, hc, hm⟩ := List.mem_flatMap.mp hm
      obtain ⟨hstart, hstop⟩ := h n n.self_mem_nodes c hc
      obtain ⟨hstart', hstop'⟩ := ih c hc (h.child hc) hm
      exact ⟨Point.le_trans hstart hstart', Point.le_trans hstop' hstop⟩

theorem Nested.of_mem (h : n.Nested) (hm : m ∈ n.nodes) : m.Nested where
  forward := fun k hk => h.forward k (mem_nodes_trans hm hk)
  within := h.within.of_mem hm

theorem Ordered.child (h : n.Ordered) (hc : c ∈ n.children) : c.Ordered where
  within := h.within.child hc
  siblings := fun m hm => h.siblings m (mem_nodes_of_child hc hm)

theorem Ordered.pairwise_start (h : n.Ordered) :
    n.nodes.Pairwise fun a b => a.start ≤ b.start := by
  induction n using children_induction with
  | step n ih =>
    have hfirst : ∀ m ∈ n.nodes, n.start ≤ m.start := fun m hm => (h.within.bounds hm).1
    rw [nodes_eq] at hfirst ⊢
    refine List.pairwise_cons.mpr ⟨fun m hm => hfirst m (List.mem_cons_of_mem _ hm), ?_⟩
    refine List.pairwise_flatMap.mpr ⟨fun c hc => ih c hc (h.child hc), ?_⟩
    -- between the two lies the beginning of the second child
    refine (h.siblings n n.self_mem_nodes).imp_of_mem fun {a b} _ hb hab x hx y hy => ?_
    exact Point.le_trans (hab x hx) ((h.within.child hb).bounds hy).1

namespace Arranged

theorem ordered (h : n.Arranged) : n.Ordered where
  within := h.within
  siblings := by
    intro p hp
    refine (h.siblings p hp).imp_of_mem fun {a b} ha _ hab x hx => ?_
    -- all of the first sibling has begun where it ends
    have hwithin : a.Within := (h.within.of_mem hp).child ha
    have hforward : x.start ≤ x.stop := h.forward x (mem_nodes_trans hp (mem_nodes_of_child ha hx))
    exact Point.le_trans hforward (Point.le_trans (hwithin.bounds hx).2 hab)

end Arranged
end Node
end Outline
