import Mathlib.Data.List.Basic
import Outline.Proofs.Tree
import Outline.Tree.Preorder

/-!
# The nodes of a tree in document order

The preorder listing of a tree by one equation for a node (`Node.sites_eq`), and what it says about
the nodes below: their number, their ancestors, and the listing without ancestors (`Node.nodes`).
-/
namespace Outline

namespace Node

theorem sitesAll_eq (above : List Node) (ns : List Node) :
    sitesAll above ns = ns.flatMap (·.sites above) := by
  induction ns with
  | nil => rw [sitesAll]; rfl
  | cons n ns ih => rw [sitesAll, ih, List.flatMap_cons]

theorem sites_eq (n : Node) (above : List Node) :
    n.sites above = ⟨n, above⟩ :: n.children.flatMap (·.sites (n :: above)) := by
  cases n
  rw [sites, sitesAll_eq]

/-- What is above a node of a tree ends with what is above the tree. -/
theorem ancestors_of_mem_sites {n : Node} {above : List Node} {t : Site}
    (h : t ∈ n.sites above) : ∃ inner, t.ancestors = inner ++ above := by
  induction n using children_induction generalizing above with
  | step n ih =>
    rw [sites_eq] at h
    rcases List.mem_cons.mp h with rfl | h
    · exact ⟨[], rfl⟩
    · obtain ⟨c, hc, ht⟩ := List.mem_flatMap.mp h
      obtain ⟨inner, hinner⟩ := ih c hc ht
      exact ⟨inner ++ [n], by rw [hinner, List.append_assoc, List.singleton_append]⟩

/-- The nodes of a tree, each before its children. -/
def nodes (n : Node) : List Node := n.preorder.map (·.node)

/-- The ancestors above a tree make no difference to its nodes. -/
theorem map_node_sites (n : Node) (above : List Node) :
    (n.sites above).map (·.node) = n.nodes := by
  suffices h : ∀ others, (n.sites above).map (·.node) = (n.sites others).map (·.node) from h []
  intro others
  induction n using children_induction generalizing above others with
  | step n ih =>
    rw [sites_eq, sites_eq, List.map_cons, List.map_cons, List.map_flatMap, List.map_flatMap]
    congr 1
    exact List.flatMap_congr fun c hc => ih c hc (n :: above) (n :: others)

theorem nodes_eq (n : Node) : n.nodes = n :: n.children.flatMap nodes := by
  rw [nodes, preorder, sites_eq, List.map_cons, List.map_flatMap]
  congr 1
  exact List.flatMap_congr fun c _ => c.map_node_sites [n]

theorem self_mem_nodes (n : Node) : n ∈ n.nodes := by
  rw [nodes_eq]
  exact List.mem_cons_self

theorem mem_nodes_of_child {n c m : Node} (hc : c ∈ n.children) (hm : m ∈ c.nodes) :
    m ∈ n.nodes := by
  rw [nodes_eq]
  exact List.mem_cons_of_mem _ (List.mem_flatMap.mpr ⟨c, hc, hm⟩)

/-- What is below a node of a tree is in the tree. -/
theorem mem_nodes_trans {n k m : Node} (hk : k ∈ n.nodes) (hm : m ∈ k.nodes) : m ∈ n.nodes := by
  induction n using children_induction with
  | step n ih =>
    rw [nodes_eq] at hk
    rcases List.mem_cons.mp hk with rfl | hk
    · exact hm
    · obtain ⟨c, hc, hk⟩ := List.mem_flatMap.mp hk
      exact mem_nodes_of_child hc (ih c hc hk)

theorem length_flatMap_nodes {ns : List Node} (h : ∀ c ∈ ns, c.nodes.length = c.size) :
    (ns.flatMap nodes).length = sizeAll ns := by
  induction ns with
  | nil => rfl
  | cons c ns ih =>
    rw [List.forall_mem_cons] at h
    rw [List.flatMap_cons, List.length_append, h.1, ih h.2, sizeAll]

theorem length_nodes (n : Node) : n.nodes.length = n.size := by
  induction n using children_induction with
  | step n ih => rw [nodes_eq, List.length_cons, length_flatMap_nodes ih, size_eq, Nat.add_comm]

end Node

theorem Site.node_mem_of_at? {s t : Site} {p : Address} (h : s.at? p = some t) :
    t.node ∈ s.node.nodes := by
  induction p generalizing s with
  | nil =>
    cases h
    exact t.node.self_mem_nodes
  | cons i p ih =>
    obtain ⟨c, hc, hp⟩ := Option.bind_eq_some_iff.mp h
    obtain ⟨n, hn, rfl⟩ := List.mem_map.mp (List.mem_of_getElem? hc)
    exact Node.mem_nodes_of_child hn (ih hp)

end Outline
