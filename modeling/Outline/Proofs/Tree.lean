import Outline.Tree

/-!
# Addresses in a syntax tree

Nodes of a tree can be equal, ancestors and all: an address tells them apart. It is the way to a
node from the node at which one starts, as the index of the child to take at each level.

* `Node.children_induction`: induction over trees.
* `Site.at?`: the node at an address, and `Site.exists_at?_take`: the nodes on the way there.
* `Node.reach`: the addresses a walk comes to, in document order: those of the named nodes below
  named nodes only. No address comes twice (`nodup_reach`).
-/
namespace Outline

namespace Node

theorem size_le_sizeAll {c : Node} {ns : List Node} (h : c ∈ ns) : c.size ≤ sizeAll ns := by
  induction ns with
  | nil => cases h
  | cons n ns ih =>
    simp only [sizeAll]
    rcases List.mem_cons.mp h with rfl | h
    · omega
    · have := ih h
      omega

/-- What holds of a node whenever it holds of its children holds of every node. -/
theorem children_induction {P : Node → Prop} (step : ∀ n : Node, (∀ c ∈ n.children, P c) → P n)
    (n : Node) : P n := by
  induction hn : n.size using Nat.strongRecOn generalizing n with
  | ind size ih =>
    refine step n fun c hc => ih c.size ?_ c rfl
    have h1 := n.size_eq
    have h2 := size_le_sizeAll hc
    omega

end Node

/-! ## Addresses -/

abbrev Address := List Nat

/-- The node at an address below a site, with its ancestors. -/
def Site.at? : Site → Address → Option Site
  | s, [] => some s
  | s, i :: p => s.children[i]?.bind (·.at? p)

theorem Site.at?_cons {n c : Node} {above : List Node} {i : Nat} (hc : n.children[i]? = some c)
    (p : Address) : Site.at? ⟨n, above⟩ (i :: p) = Site.at? ⟨c, n :: above⟩ p := by
  simp [Site.at?, Site.children, hc]

theorem Site.at?_append (s : Site) (p q : Address) :
    s.at? (p ++ q) = (s.at? p).bind (·.at? q) := by
  induction p generalizing s with
  | nil => rfl
  | cons i p ih =>
    simp only [List.cons_append, Site.at?]
    cases s.children[i]? with
    | none => rfl
    | some c => exact ih c

/-- The rest of the way to an address, from a node on the way. -/
theorem Site.at?_drop {s t u : Site} {p : Address} (ht : s.at? p = some t) {k : Nat}
    (hu : s.at? (p.take k) = some u) : u.at? (p.drop k) = some t := by
  have hsplit := s.at?_append (p.take k) (p.drop k)
  rw [List.take_append_drop, ht, hu] at hsplit
  exact hsplit.symm

/-- The node from which an address leads down is above the node at the address, as far up as the
address is long. -/
theorem Site.ancestors_of_at? {s t : Site} {i : Nat} {p : Address} (h : s.at? (i :: p) = some t) :
    ∃ inner, t.ancestors = inner ++ s.node :: s.ancestors ∧ inner.length = p.length := by
  induction p generalizing s i with
  | nil =>
    obtain ⟨c, hc, hp⟩ := Option.bind_eq_some_iff.mp h
    obtain ⟨n, -, rfl⟩ := List.mem_map.mp (List.mem_of_getElem? hc)
    cases hp
    exact ⟨[], rfl, rfl⟩
  | cons j p ih =>
    obtain ⟨c, hc, hp⟩ := Option.bind_eq_some_iff.mp h
    obtain ⟨n, -, rfl⟩ := List.mem_map.mp (List.mem_of_getElem? hc)
    obtain ⟨inner, hinner, hlength⟩ := ih hp
    exact ⟨inner ++ [n], by simp [hinner], by simp [hlength]⟩

section

variable {n : Node} {p : Address} {t : Site} (h : (Site.root n).at? p = some t)
include h

theorem Site.length_ancestors : t.ancestors.length = p.length := by
  cases p with
  | nil => cases h; rfl
  | cons i p =>
    obtain ⟨inner, hinner, hlength⟩ := ancestors_of_at? h
    rw [hinner, List.length_append, List.length_cons, List.length_cons, hlength]
    rfl

/-- The nodes on the way from the root to an address are the ancestors of the node there. -/
theorem Site.exists_at?_take {k : Nat} (hk : k < p.length) :
    ∃ u inner, (Site.root n).at? (p.take k) = some u ∧ u.ancestors.length = k ∧
      t.ancestors = inner ++ u.node :: u.ancestors := by
  have hsplit := (Site.root n).at?_append (p.take k) (p.drop k)
  rw [List.take_append_drop, h] at hsplit
  obtain ⟨u, hu, hdrop⟩ := Option.bind_eq_some_iff.mp hsplit.symm
  have hlength := length_ancestors hu
  rw [List.length_take_of_le (Nat.le_of_lt hk)] at hlength
  rw [List.drop_eq_getElem_cons hk] at hdrop
  obtain ⟨inner, hinner, -⟩ := ancestors_of_at? hdrop
  exact ⟨u, inner, hu, hlength, hinner⟩

/-- An ancestor of the node at an address is met on the way there. -/
theorem Site.at?_take_of_ancestors {inner : List Node} {u : Site}
    (hu : t.ancestors = inner ++ u.node :: u.ancestors) :
    u.ancestors.length < p.length ∧ (Site.root n).at? (p.take u.ancestors.length) = some u := by
  have hk : u.ancestors.length < p.length := by
    rw [← length_ancestors h, hu, List.length_append, List.length_cons]
    omega
  obtain ⟨v, inner', hv, hlength, hinner'⟩ := exists_at?_take h hk
  rw [hu] at hinner'
  obtain ⟨hnode, habove⟩ := List.cons.inj (List.append_inj_right' hinner' (by simp [hlength]))
  cases u
  cases v
  cases hnode
  cases habove
  exact ⟨hk, hv⟩

theorem Site.mem_children_of_ancestors {u : Site} (hu : t.ancestors = u.node :: u.ancestors) :
    t.node ∈ u.node.children := by
  obtain ⟨hk, hat⟩ := at?_take_of_ancestors h (hu.trans (List.nil_append _).symm)
  have hdrop := at?_drop h hat
  have hlast : p.length = u.ancestors.length + 1 := by
    rw [← length_ancestors h, hu, List.length_cons]
  rw [List.drop_eq_getElem_cons hk, List.drop_eq_nil_of_le (Nat.le_of_eq hlast)] at hdrop
  obtain ⟨c, hc, hct⟩ := Option.bind_eq_some_iff.mp hdrop
  obtain ⟨m, hm, rfl⟩ := List.mem_map.mp (List.mem_of_getElem? hc)
  cases hct
  exact hm

/-- Further down the way than an ancestor there are only the nodes between. -/
theorem Site.exists_mem_between {between : List Node} {u : Site}
    (hu : t.ancestors = between ++ u.node :: u.ancestors) {j : Nat} (hj : u.ancestors.length < j)
    (hlt : j < p.length) : ∃ v, (Site.root n).at? (p.take j) = some v ∧ v.node ∈ between := by
  obtain ⟨v, inner, hv, hlength, hinner⟩ := exists_at?_take h hlt
  refine ⟨v, hv, ?_⟩
  rw [hu] at hinner
  rcases List.append_eq_append_iff.mp hinner with ⟨as, -, hs⟩ | ⟨as, hs, hr⟩
  · have hsum := congrArg List.length hs
    simp only [List.length_cons, List.length_append] at hsum
    omega
  · cases as with
    | nil =>
      have hsum := congrArg List.length hr
      simp only [List.length_cons, List.nil_append] at hsum
      omega
    | cons a as =>
      rw [hs, (List.cons.inj hr).1]
      simp

end

mutual

/-- The addresses of the named nodes of a tree that have named nodes only above them. -/
def Node.reach : Node → List Address
  | ⟨_, _, named, _, _, _, _, _, _, _, children⟩ =>
    if named then [] :: Node.reachAll 0 children else []

/-- The same for the children from the `i`-th on. -/
def Node.reachAll (i : Nat) : List Node → List Address
  | [] => []
  | n :: ns => n.reach.map (i :: ·) ++ Node.reachAll (i + 1) ns

end

def Site.reach (s : Site) : List Address := s.node.reach

namespace Node

theorem reach_eq (n : Node) : n.reach = if n.named then [] :: reachAll 0 n.children else [] := by
  cases n
  rw [reach]

theorem mem_reachAll {p : Address} {ns : List Node} {i : Nat} :
    p ∈ reachAll i ns ↔ ∃ j c q, ns[j]? = some c ∧ q ∈ c.reach ∧ p = (i + j) :: q := by
  induction ns generalizing i with
  | nil => simp [reachAll]
  | cons n ns ih =>
    simp only [reachAll, List.mem_append, List.mem_map, ih]
    constructor
    · rintro (⟨q, hq, rfl⟩ | ⟨j, c, q, hc, hq, rfl⟩)
      · exact ⟨0, n, q, rfl, hq, rfl⟩
      · exact ⟨j + 1, c, q, hc, hq, by rw [Nat.add_right_comm, Nat.add_assoc]⟩
    · rintro ⟨j, c, q, hc, hq, rfl⟩
      cases j with
      | zero => cases hc; exact Or.inl ⟨q, hq, rfl⟩
      | succ j => exact Or.inr ⟨j, c, q, hc, hq, by rw [Nat.add_right_comm, Nat.add_assoc]⟩

theorem nodup_reachAll {ns : List Node} (h : ∀ n ∈ ns, n.reach.Nodup) (i : Nat) :
    (reachAll i ns).Nodup := by
  induction ns generalizing i with
  | nil => simp [reachAll]
  | cons n ns ih =>
    rw [List.forall_mem_cons] at h
    simp only [reachAll]
    refine List.nodup_append.mpr ⟨?_, ih h.2 (i + 1), ?_⟩
    · exact List.Pairwise.map _ (fun _ _ hne he => hne (List.cons.inj he).2) h.1
    · -- the addresses below one child start with its index, later ones with a greater
      rintro p hp q hq rfl
      obtain ⟨u, -, rfl⟩ := List.mem_map.mp hp
      obtain ⟨j, c, v, -, -, he⟩ := mem_reachAll.mp hq
      have := (List.cons.inj he).1
      omega

theorem nodup_reach (n : Node) : n.reach.Nodup := by
  induction n using children_induction with
  | step n ih =>
    rw [reach_eq]
    split
    · refine List.nodup_cons.mpr ⟨fun h => ?_, nodup_reachAll ih 0⟩
      obtain ⟨j, c, q, -, -, he⟩ := mem_reachAll.mp h
      cases he
    · exact List.nodup_nil

theorem mem_reach {n : Node} {p : Address} : p ∈ n.reach ↔ n.named = true ∧
    (p = [] ∨ ∃ j c q, n.children[j]? = some c ∧ q ∈ c.reach ∧ p = j :: q) := by
  rw [reach_eq]
  split
  · rename_i hn
    simp only [hn, true_and, List.mem_cons, mem_reachAll, Nat.zero_add]
  · rename_i hn
    simp [hn]

/-- The way to an address that is reached goes through addresses that are reached. -/
theorem take_mem_reach {n : Node} {p : Address} (h : p ∈ n.reach) (k : Nat) :
    p.take k ∈ n.reach := by
  induction n using children_induction generalizing p k with
  | step n ih =>
    obtain ⟨hn, rfl | ⟨j, c, q, hc, hq, rfl⟩⟩ := mem_reach.mp h
    · rwa [List.take_nil]
    · cases k with
      | zero => exact mem_reach.mpr ⟨hn, Or.inl rfl⟩
      | succ k =>
        rw [List.take_succ_cons]
        exact mem_reach.mpr
          ⟨hn, Or.inr ⟨j, c, q.take k, hc, ih c (List.mem_of_getElem? hc) hq k, rfl⟩⟩

end Node
end Outline
