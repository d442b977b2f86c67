import Mathlib.Logic.Relation
import Outline.Proofs.Preorder
import Outline.Source

/-!
# The first fault of a tree

A tree is refused for the first error or missing node in document order. The search looks only into
nodes that are said to hold one. Where the nodes say so exactly (`Node.FlagsExact`), the search
finds what a search through all nodes finds.

At every moment there are trees that the cursor has yet to come to: the one it is at, and those that
follow on its level and on the levels above (`Cursor.trees`). A step either takes the tree at the
cursor away, or puts its children in its place.

* `trees_advance?`, `trees_of_halted`: what a step does to the trees, and what the last one leaves.
* `exists_halted`: the search comes to an end, at a fault or after all nodes.
* `Cursor.firstFault?_eq_find?`: it finds the first fault of the trees it has yet to come to.
* `refused_for_first_fault`: when a tree is refused, for which node, and with what message.
-/
namespace Outline

namespace Node

/-- The nodes said to hold an error are those that do, themselves or below. -/
def FlagsExact (root : Node) : Prop :=
  ∀ n ∈ root.nodes, n.hasError = true ↔ ∃ m ∈ n.nodes, m.isFault = true

theorem FlagsExact.child {n c : Node} (h : n.FlagsExact) (hc : c ∈ n.children) : c.FlagsExact :=
  fun m hm => h m (mem_nodes_of_child hc hm)

/-- Nothing below a node that is not said to hold an error is one. -/
theorem FlagsExact.find?_eq_none {n : Node} (h : n.FlagsExact) (hn : n.hasError = false) :
    n.nodes.find? (·.isFault) = none := by
  refine List.find?_eq_none.mpr fun m hm hf => ?_
  have := (h n n.self_mem_nodes).mpr ⟨m, hm, hf⟩
  rw [hn] at this
  cases this

end Node

/-! ## Steps of the search -/

namespace Cursor

/-- The trees that follow the one at the cursor, on its own level and on those above. -/
def following (c : Cursor) : List Node := c.after ++ c.above.flatten

/-- The trees that the search has yet to come to. -/
def trees (c : Cursor) : List Node := c.node :: c.following

/-- The trees into which the search goes from the node at the cursor. -/
def entered (c : Cursor) : List Node := if c.node.hasError then c.node.children else []

theorem trees_climb? {after : List Node} {above : List (List Node)} {d : Cursor}
    (h : climb? after above = some d) : d.trees = after ++ above.flatten := by
  fun_induction climb? after above with
  | case1 n ns above =>
    cases h
    rfl
  | case2 after above ih => simpa using ih h
  | case3 => cases h

theorem climb?_eq_none {after : List Node} {above : List (List Node)}
    (h : climb? after above = none) : after ++ above.flatten = [] := by
  fun_induction climb? after above with
  | case1 n ns above => cases h
  | case2 after above ih => simpa using ih h
  | case3 => rfl

theorem trees_firstChild? {c d : Cursor} (h : c.firstChild? = some d) :
    d.trees = c.node.children ++ c.following := by
  unfold firstChild? at h
  split at h
  · cases h
  · rename_i n ns hc
    cases h
    simp [trees, following, hc]

theorem firstChild?_eq_none {c : Cursor} (h : c.firstChild? = none) : c.node.children = [] := by
  unfold firstChild? at h
  split at h
  · assumption
  · cases h

theorem trees_advance? {c d : Cursor} (h : c.advance? = some d) :
    d.trees = c.entered ++ c.following := by
  unfold advance? at h
  unfold entered
  split at h
  · rename_i he
    rw [if_pos he]
    rcases Option.or_eq_some_iff.mp h with h | ⟨hnone, h⟩
    · exact trees_firstChild? h
    · rw [firstChild?_eq_none hnone]
      exact trees_climb? h
  · rename_i he
    rw [if_neg he]
    exact trees_climb? h

theorem trees_of_halted {c : Cursor} (h : c.advance? = none) : c.entered ++ c.following = [] := by
  unfold advance? at h
  unfold entered
  split at h
  · rename_i he
    obtain ⟨hchild, hclimb⟩ := Option.or_eq_none_iff.mp h
    rw [if_pos he, firstChild?_eq_none hchild]
    exact climb?_eq_none hclimb
  · rename_i he
    rw [if_neg he]
    exact climb?_eq_none h

/-! ## The search as a whole -/

theorem firstFault?_of_fault {c : Cursor} (h : c.node.isFault = true) :
    c.firstFault? = some c.node := by
  rw [firstFault?, if_pos h]

theorem firstFault?_of_advance {c d : Cursor} (h : c.node.isFault = false)
    (hd : c.advance? = some d) : c.firstFault? = d.firstFault? := by
  rw [firstFault?, if_neg (by simp [h])]
  split
  · rename_i e he
    rw [hd] at he
    cases he
    rfl
  · rename_i he
    rw [hd] at he
    cases he

theorem firstFault?_of_halted {c : Cursor} (h : c.node.isFault = false)
    (hd : c.advance? = none) : c.firstFault? = none := by
  rw [firstFault?, if_neg (by simp [h])]
  split
  · rename_i e he
    rw [hd] at he
    cases he
  · rfl

/-- The places of a search: those that steps from nodes without a fault lead to. -/
abbrev Reaches : Cursor → Cursor → Prop :=
  Relation.ReflTransGen fun c d => c.node.isFault = false ∧ c.advance? = some d

/-- The search ends at a place: there is a fault, or nothing is left to look at. -/
def Ends (c : Cursor) : Option Node → Prop
  | some n => c.node = n ∧ n.isFault = true
  | none => c.node.isFault = false ∧ c.advance? = none

theorem exists_halted (c : Cursor) : ∃ d, Reaches c d ∧ d.Ends c.firstFault? := by
  -- each step leaves fewer nodes
  induction hw : c.work using Nat.strongRecOn generalizing c with
  | ind k ih =>
    cases hf : c.node.isFault with
    | true =>
      rw [firstFault?_of_fault hf]
      exact ⟨c, .refl, rfl, hf⟩
    | false =>
      cases h : c.advance? with
      | none =>
        rw [firstFault?_of_halted hf h]
        exact ⟨c, .refl, hf, h⟩
      | some d =>
        have hlt := work_advance? h
        obtain ⟨e, hr, he⟩ := ih d.work (by omega) d rfl
        rw [firstFault?_of_advance hf h]
        exact ⟨e, hr.head ⟨hf, h⟩, he⟩

/-- Where the search does not go there is nothing to find. -/
theorem find?_entered {c : Cursor} (h : c.node.FlagsExact) (hf : c.node.isFault = false) :
    c.node.nodes.find? (·.isFault) = (c.entered.flatMap Node.nodes).find? (·.isFault) := by
  unfold entered
  cases he : c.node.hasError with
  | true =>
    rw [Node.nodes_eq, List.find?_cons_of_neg (by simp [hf])]
    rfl
  | false =>
    rw [h.find?_eq_none he]
    rfl

theorem firstFault?_eq_find? {c : Cursor} (h : ∀ t ∈ c.trees, t.FlagsExact) :
    c.firstFault? = (c.trees.flatMap Node.nodes).find? (·.isFault) := by
  induction hw : c.work using Nat.strongRecOn generalizing c with
  | ind k ih =>
    obtain ⟨hnode, hfollowing⟩ := List.forall_mem_cons.mp h
    cases hf : c.node.isFault with
    | true =>
      rw [firstFault?_of_fault hf, trees, List.flatMap_cons, Node.nodes_eq, List.cons_append,
        List.find?_cons_of_pos hf]
    | false =>
      have hrest : (c.trees.flatMap Node.nodes).find? (·.isFault) =
          ((c.entered ++ c.following).flatMap Node.nodes).find? (·.isFault) := by
        rw [trees, List.flatMap_cons, List.flatMap_append, List.find?_append, List.find?_append,
          find?_entered hnode hf]
      rw [hrest]
      cases hd : c.advance? with
      | none =>
        rw [firstFault?_of_halted hf hd, trees_of_halted hd]
        rfl
      | some d =>
        have hexact : ∀ t ∈ d.trees, t.FlagsExact := by
          intro t ht
          rw [trees_advance? hd, List.mem_append] at ht
          rcases ht with ht | ht
          · unfold entered at ht
            split at ht
            · exact hnode.child ht
            · cases ht
          · exact hfollowing t ht
        have hlt := work_advance? hd
        rw [firstFault?_of_advance hf hd, ih d.work (by omega) hexact rfl, trees_advance? hd]

end Cursor

/-! ## Trees that are refused -/

namespace Node

theorem fault?_eq_find? {root : Node} (h : root.FlagsExact) :
    root.fault? = root.nodes.find? (·.isFault) := by
  unfold fault?
  cases hr : root.hasError with
  | true =>
    have hexact : ∀ t ∈ (Cursor.start root).trees, t.FlagsExact := by
      simpa [Cursor.trees, Cursor.following, Cursor.start] using h
    rw [if_pos rfl, Cursor.firstFault?_eq_find? hexact]
    simp [Cursor.trees, Cursor.following, Cursor.start]
  | false => exact (h.find?_eq_none hr).symm

theorem fault?_isSome_iff {root : Node} (h : root.FlagsExact) :
    root.fault?.isSome = true ↔ ∃ n ∈ root.nodes, n.isFault = true := by
  rw [fault?_eq_find? h, List.find?_isSome]

theorem fault?_eq_none_iff {root : Node} (h : root.FlagsExact) :
    root.fault? = none ↔ ∀ n ∈ root.nodes, n.isFault = false := by
  rw [fault?_eq_find? h, List.find?_eq_none]
  simp

/-- The node is a fault, and in document order there is none before it. -/
def IsFirstFault (root n : Node) : Prop :=
  ∃ before rest, root.nodes = before ++ n :: rest ∧ n.isFault = true ∧
    ∀ m ∈ before, m.isFault = false

theorem fault?_eq_some_iff {root n : Node} (h : root.FlagsExact) :
    root.fault? = some n ↔ root.IsFirstFault n := by
  rw [fault?_eq_find? h, List.find?_eq_some_iff_append]
  constructor
  · rintro ⟨hn, before, rest, hsplit, hbefore⟩
    exact ⟨before, rest, hsplit, hn, fun m hm => by simpa using hbefore m hm⟩
  · rintro ⟨before, rest, hsplit, hn, hbefore⟩
    exact ⟨hn, before, rest, hsplit, fun m hm => by simp [hbefore m hm]⟩

end Node

namespace Extractor

variable {e : Extractor} {a : Adapter} {i : SourceInput}

theorem tree_of_fault {fault : Node} (h : (e.parse a.language i).fault? = some fault) :
    e.tree a i = .error (.unparsable i.path fault) := by
  simp [tree, h]

theorem tree_of_clean (h : (e.parse a.language i).fault? = none) :
    e.tree a i = .ok (e.parse a.language i) := by
  simp [tree, h]

theorem tree_eq_ok_iff : e.tree a i = .ok (e.parse a.language i) ↔
    (e.parse a.language i).fault? = none := by
  cases h : (e.parse a.language i).fault? with
  | none => simp [tree_of_clean h]
  | some fault => simp [tree_of_fault h]

end Extractor

/-- **A tree is refused for its first fault.** Let the nodes say exactly where errors are. The
search makes a finite number of steps and stops, at a fault or when nothing is left to look at. It
finds a node if and only if that is the first error or missing node in document order, of all nodes
of the tree, and nothing if and only if there is no such node. So the source is parsed if and only
if its tree has none, and otherwise it is refused with the row and the column of the first one,
counted from one. -/
theorem refused_for_first_fault (root : Node) (h : root.FlagsExact) :
    (root.hasError = true →
      ∃ c, Cursor.Reaches (.start root) c ∧ c.Ends root.fault?) ∧
    (∀ n, root.fault? = some n ↔ root.IsFirstFault n) ∧
    (root.fault? = none ↔ ∀ n ∈ root.nodes, n.isFault = false) ∧
    ∀ (e : Extractor) (a : Adapter) (i : SourceInput), e.parse a.language i = root →
      (e.tree a i = .ok root ↔ ∀ n ∈ root.nodes, n.isFault = false) ∧
      ∀ n, root.IsFirstFault n →
        e.tree a i = .error (.unparsable i.path n) ∧
        (ExtractError.unparsable i.path n).message =
          "parse error in " ++ i.path ++ ": " ++
            ((if n.isMissing then "missing " ++ n.kind else "syntax error") ++ " at line " ++
              toString (n.start.row + 1) ++ ", column " ++ toString (n.start.column + 1)) := by
  refine ⟨fun hroot => ?_, fun n => Node.fault?_eq_some_iff h, Node.fault?_eq_none_iff h, ?_⟩
  · rw [Node.fault?, if_pos hroot]
    exact Cursor.exists_halted (.start root)
  · rintro e a i rfl
    refine ⟨Extractor.tree_eq_ok_iff.trans (Node.fault?_eq_none_iff h), fun n hn => ⟨?_, rfl⟩⟩
    exact Extractor.tree_of_fault ((Node.fault?_eq_some_iff h).mpr hn)

/-- The semicolon that is missing on the second of the lines `f();`, `g()` and `}`. -/
def Node.missingMark : Node :=
  ⟨";", none, false, false, true, true, 8, 8, ⟨1, 3⟩, ⟨1, 3⟩, []⟩

/-- The tree of these lines. The third line is an error, too. -/
def Node.twoFaults : Node :=
  ⟨"program", none, true, false, false, true, 0, 10, ⟨0, 0⟩, ⟨2, 1⟩,
    [⟨"expression_statement", none, true, false, false, false, 0, 4, ⟨0, 0⟩, ⟨0, 4⟩,
        [⟨"method_invocation", none, true, false, false, false, 0, 3, ⟨0, 0⟩, ⟨0, 3⟩, []⟩,
          ⟨";", none, false, false, false, false, 3, 4, ⟨0, 3⟩, ⟨0, 4⟩, []⟩]⟩,
      ⟨"expression_statement", none, true, false, false, true, 5, 8, ⟨1, 0⟩, ⟨1, 3⟩,
        [⟨"method_invocation", none, true, false, false, false, 5, 8, ⟨1, 0⟩, ⟨1, 3⟩, []⟩,
          missingMark]⟩,
      ⟨"ERROR", none, true, true, false, true, 9, 10, ⟨2, 0⟩, ⟨2, 1⟩, []⟩]⟩

theorem refused_for_first_fault_twoFaults :
    Node.twoFaults.FlagsExact ∧ Node.twoFaults.fault? = some Node.missingMark ∧
    (∃ c, Cursor.Reaches (.start Node.twoFaults) c ∧ c.Ends (some Node.missingMark)) ∧
    ({ parse := fun _ _ => Node.twoFaults } : Extractor).tree Java.adapter
        ⟨none, "A.java", "f();\ng()\n\x7d"⟩ =
      .error (.unparsable "A.java" Node.missingMark) ∧
    (ExtractError.unparsable "A.java" Node.missingMark).message =
      "parse error in A.java: missing ; at line 2, column 4" := by
  have hflags : Node.twoFaults.FlagsExact := by
    unfold Node.FlagsExact
    decide +kernel
  have hfirst : Node.twoFaults.IsFirstFault Node.missingMark :=
    ⟨Node.twoFaults.nodes.take 6, Node.twoFaults.nodes.drop 7, rfl, rfl, by decide +kernel⟩
  obtain ⟨hsearch, hfound, -, hparse⟩ := refused_for_first_fault Node.twoFaults hflags
  have hfault := (hfound _).mpr hfirst
  rw [hfault] at hsearch
  exact ⟨hflags, hfault, hsearch rfl, ((hparse _ _ _ rfl).2 _ hfirst).1, by decide +kernel⟩
end Outline
