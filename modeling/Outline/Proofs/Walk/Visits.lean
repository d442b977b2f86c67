import Mathlib.Data.List.Basic
import Outline.Proofs.Walk.Recursion

/-!
# The visits of a walk

A walk as the list of its visits: the addresses it comes to, in document order, and for each the
parent and the number that a declaration there gets. What a walk finds is what visiting one after
the other finds (`outline_eq_foldl`).

* `map_address_visits`, `at?_of_mem_visits`: the visits are at the addresses of `Node.reach`, each at
  the node that is there.
* `numbered_visits`: numbers go up by one with each declaration that lacks nothing.
* `mem_visitsAll`: a visit below a child is one of the visits of that child's own tree.
* `view_foldl`: what a list of visits adds to the functions, or to any other list of findings.
-/
namespace Outline

/-! ## What one visit records -/

namespace Site

variable (a : Adapter) (source : ByteArray)

/-- The kind of declaration that is recorded for a site. There is none for a site that declares
nothing, and none for one that lacks a mandatory part. -/
def declares (s : Site) : Option EntityKind :=
  match a.recognize s source with
  | .function shape => shape.check.toOption.map fun _ => .function
  | .classLike shape => shape.check.toOption.map fun _ => .classLike
  | .other => none

/-- The function that a site declares, once its number and its parent are known. -/
def function? (fileId : EntityId) (number : Nat) (parent : Frame) (s : Site) :
    Option FunctionDecl :=
  match a.recognize s source with
  | .function shape => shape.check.toOption.map fun location =>
    { id := entityId fileId .function number
      name := shape.name.getD ""
      returnType := shape.returnType
      isConstructor := shape.isConstructor
      location
      parent }
  | _ => none

@[inherit_doc function?]
def class? (fileId : EntityId) (number : Nat) (parent : Frame) (s : Site) : Option ClassDecl :=
  match a.recognize s source with
  | .classLike shape => shape.check.toOption.map fun location =>
    { id := entityId fileId .classLike number, name := shape.name.getD "", location, parent }
  | _ => none

/-- The frame of a declaration with a number, for a site that declares one. -/
def frame? (fileId : EntityId) (number : Nat) (s : Site) : Option Frame :=
  (s.declares a source).map fun kind => ⟨entityId fileId kind number, kind⟩

end Site

namespace Findings

variable (r : Findings) (a : Adapter) (source : ByteArray) (s : Site) (parent : Frame)

theorem visit_frame :
    (r.visit a source s parent).1 = s.frame? a source r.ids.fileId r.ids.next := by
  unfold visit Site.frame? Site.declares
  cases a.recognize s source with
  | function shape => simp only [recordFunction]; cases shape.check <;> rfl
  | classLike shape => simp only [recordClass]; cases shape.check <;> rfl
  | other => rfl

theorem visit_ids : (r.visit a source s parent).2.ids =
    { r.ids with next := r.ids.next + (s.declares a source).isSome.toNat } := by
  unfold visit Site.declares
  cases a.recognize s source with
  | function shape => simp only [recordFunction]; cases shape.check <;> rfl
  | classLike shape => simp only [recordClass]; cases shape.check <;> rfl
  | other => rfl

theorem visit_functions : (r.visit a source s parent).2.file.functions.toList =
    r.file.functions.toList ++
      (s.function? a source r.ids.fileId r.ids.next parent).toList := by
  unfold visit Site.function?
  cases a.recognize s source with
  | function shape =>
    simp only [recordFunction]
    cases shape.check with
    | error missing => simp [skip, Except.toOption]
    | ok location => simp [SourceFile.addFunction, nextFrame, Except.toOption]
  | classLike shape =>
    simp only [recordClass]
    cases shape.check <;> simp [skip, SourceFile.addClass]
  | other => simp

theorem visit_classes : (r.visit a source s parent).2.file.classes.toList =
    r.file.classes.toList ++ (s.class? a source r.ids.fileId r.ids.next parent).toList := by
  unfold visit Site.class?
  cases a.recognize s source with
  | function shape =>
    simp only [recordFunction]
    cases shape.check <;> simp [skip, SourceFile.addFunction]
  | classLike shape =>
    simp only [recordClass]
    cases shape.check with
    | error missing => simp [skip, Except.toOption]
    | ok location => simp [SourceFile.addClass, nextFrame, Except.toOption]
  | other => simp

end Findings

/-! ## The list of visits -/

structure Visit where
  address : Address
  site : Site
  parent : Frame
  /-- The number of the declaration, if one is recorded. -/
  number : Nat

/-- The same visit, seen from the node of which the start is the `i`-th child. -/
def Visit.lift (i : Nat) (v : Visit) : Visit := { v with address := i :: v.address }

/-- How many declarations are recorded on visits. -/
def recordedOn (a : Adapter) (source : ByteArray) (vs : List Visit) : Nat :=
  vs.countP fun v => (v.site.declares a source).isSome

mutual

/-- The visits to a tree under a parent, the first declaration getting a number. -/
def Node.visits (a : Adapter) (source : ByteArray) (fileId : EntityId) (above : List Node)
    (parent : Frame) (number : Nat) : Node → List Visit
  | n@⟨_, _, named, _, _, _, _, _, _, _, children⟩ =>
    if named then
      ⟨[], ⟨n, above⟩, parent, number⟩ ::
        Node.visitsAll a source fileId (n :: above) parent
          (Site.frame? a source fileId number ⟨n, above⟩) 0
          (number + (Site.declares a source ⟨n, above⟩).isSome.toNat) children
    else []

/-- The visits to the children, from the `i`-th on, of a node that has, or has not, a frame. -/
def Node.visitsAll (a : Adapter) (source : ByteArray) (fileId : EntityId) (above : List Node)
    (parent : Frame) (frame : Option Frame) (i number : Nat) : List Node → List Visit
  | [] => []
  | n :: ns =>
    let vs := n.visits a source fileId above (a.parentBelow parent frame n) number
    vs.map (·.lift i) ++
      Node.visitsAll a source fileId above parent frame (i + 1) (number + recordedOn a source vs) ns

end

section

variable {a : Adapter} {source : ByteArray} {fileId : EntityId}

theorem recordedOn_cons (v : Visit) (vs : List Visit) : recordedOn a source (v :: vs) =
    (v.site.declares a source).isSome.toNat + recordedOn a source vs := by
  unfold recordedOn
  rw [List.countP_cons]
  cases (v.site.declares a source).isSome <;> simp
  omega

@[simp] theorem recordedOn_map_lift (i : Nat) (vs : List Visit) :
    recordedOn a source (vs.map (·.lift i)) = recordedOn a source vs := by
  simp only [recordedOn, List.countP_map]
  rfl

theorem Node.visits_eq (above : List Node) (parent : Frame) (number : Nat) (n : Node) :
    n.visits a source fileId above parent number =
      if n.named then
        ⟨[], ⟨n, above⟩, parent, number⟩ ::
          Node.visitsAll a source fileId (n :: above) parent
            (Site.frame? a source fileId number ⟨n, above⟩) 0
            (number + (Site.declares a source ⟨n, above⟩).isSome.toNat) n.children
      else [] := by
  cases n
  rw [Node.visits]

/-! ## Visiting one after the other -/

def Findings.follow (a : Adapter) (source : ByteArray) (r : Findings) (v : Visit) : Findings :=
  (r.visit a source v.site v.parent).2

theorem Findings.ids_foldl (vs : List Visit) (r : Findings) :
    (vs.foldl (Findings.follow a source) r).ids =
      { r.ids with next := r.ids.next + recordedOn a source vs } := by
  induction vs generalizing r with
  | nil => rfl
  | cons v vs ih =>
    rw [List.foldl_cons, ih, Findings.follow, Findings.visit_ids, recordedOn_cons]
    simp only [Nat.add_assoc]

theorem Node.outlineAll_eq_foldl {ns : List Node}
    (h : ∀ n ∈ ns, ∀ above parent r, n.outline a source above parent r =
      (n.visits a source r.ids.fileId above parent r.ids.next).foldl (Findings.follow a source) r)
    (above : List Node) (parent : Frame) (frame : Option Frame) (i : Nat) (r : Findings) :
    Node.outlineAll a source above parent frame ns r =
      (Node.visitsAll a source r.ids.fileId above parent frame i r.ids.next ns).foldl
        (Findings.follow a source) r := by
  induction ns generalizing i r with
  | nil => rw [Node.outlineAll, Node.visitsAll]; rfl
  | cons n ns ih =>
    rw [List.forall_mem_cons] at h
    rw [Node.outlineAll, Node.visitsAll, h.1, ih h.2 (i + 1), Findings.ids_foldl,
      List.foldl_append, List.foldl_map]
    rfl

/-- What the recursion finds in a tree is what the visits find, one after the other. -/
theorem Node.outline_eq_foldl (n : Node) (above : List Node) (parent : Frame) (r : Findings) :
    n.outline a source above parent r =
      (n.visits a source r.ids.fileId above parent r.ids.next).foldl
        (Findings.follow a source) r := by
  induction n using Node.children_induction generalizing above parent r with
  | step n ih =>
    rw [Node.outline_eq, Node.visits_eq]
    split
    · rw [Node.outlineAll_eq_foldl ih _ _ _ 0, Findings.visit_frame, Findings.visit_ids]
      rfl
    · rfl

/-! ## Numbers -/

/-- The first visit has the number `number`, and each visit that records a declaration makes the
number of those after it greater by one. -/
def Numbered (a : Adapter) (source : ByteArray) : Nat → List Visit → Prop
  | _, [] => True
  | number, v :: vs =>
    v.number = number ∧ Numbered a source (number + (v.site.declares a source).isSome.toNat) vs

theorem numbered_append {number : Nat} {vs us : List Visit} :
    Numbered a source number (vs ++ us) ↔ Numbered a source number vs ∧
      Numbered a source (number + recordedOn a source vs) us := by
  induction vs generalizing number with
  | nil => simp [Numbered, recordedOn]
  | cons v vs ih =>
    simp only [List.cons_append, Numbered, ih, recordedOn_cons, Nat.add_assoc, and_assoc]

theorem numbered_map_lift {number : Nat} {vs : List Visit} (h : Numbered a source number vs)
    (i : Nat) : Numbered a source number (vs.map (·.lift i)) := by
  induction vs generalizing number with
  | nil => trivial
  | cons v vs ih => exact ⟨h.1, ih h.2⟩

theorem numbered_visitsAll {ns : List Node}
    (h : ∀ n ∈ ns, ∀ above parent number,
      Numbered a source number (n.visits a source fileId above parent number))
    (above : List Node) (parent : Frame) (frame : Option Frame) (i number : Nat) :
    Numbered a source number
      (Node.visitsAll a source fileId above parent frame i number ns) := by
  induction ns generalizing i number with
  | nil => rw [Node.visitsAll]; trivial
  | cons n ns ih =>
    rw [List.forall_mem_cons] at h
    rw [Node.visitsAll, numbered_append, recordedOn_map_lift]
    exact ⟨numbered_map_lift (h.1 ..) i, ih h.2 (i + 1) _⟩

theorem numbered_visits (n : Node) (above : List Node) (parent : Frame) (number : Nat) :
    Numbered a source number (n.visits a source fileId above parent number) := by
  induction n using Node.children_induction generalizing above parent number with
  | step n ih =>
    rw [Node.visits_eq]
    split
    · exact ⟨rfl, numbered_visitsAll ih ..⟩
    · trivial

/-- A visit's number counts the declarations recorded before it. -/
theorem number_eq_of_numbered {number : Nat} {vs us : List Visit} {v : Visit}
    (h : Numbered a source number (vs ++ v :: us)) :
    v.number = number + recordedOn a source vs :=
  (numbered_append.mp h).2.1

/-! ## What visits add -/

/-- A list of findings to which each visit adds what it finds has, after all visits, what was found
on them in order. -/
theorem view_foldl {β : Type} {view : Findings → List β}
    {item : EntityId → Nat → Frame → Site → Option β}
    (hv : ∀ r s parent, view (r.visit a source s parent).2 =
      view r ++ (item r.ids.fileId r.ids.next parent s).toList)
    {vs : List Visit} {r : Findings} (h : Numbered a source r.ids.next vs) :
    view (vs.foldl (Findings.follow a source) r) =
      view r ++ vs.filterMap fun v => item r.ids.fileId v.number v.parent v.site := by
  induction vs generalizing r with
  | nil => simp
  | cons v vs ih =>
    have hr : (r.follow a source v).ids =
        { r.ids with next := r.ids.next + (v.site.declares a source).isSome.toNat } :=
      Findings.visit_ids ..
    rw [List.foldl_cons, ih (by rw [hr]; exact h.2), hr, Findings.follow, hv, ← h.1]
    simp only [List.filterMap_eq_flatMap_toList, List.flatMap_cons, List.append_assoc]

/-! ## Where visits are -/

theorem map_address_visitsAll {ns : List Node}
    (h : ∀ n ∈ ns, ∀ above parent number,
      (n.visits a source fileId above parent number).map (·.address) = n.reach)
    (above : List Node) (parent : Frame) (frame : Option Frame) (i number : Nat) :
    (Node.visitsAll a source fileId above parent frame i number ns).map (·.address) =
      Node.reachAll i ns := by
  induction ns generalizing i number with
  | nil => rw [Node.visitsAll, Node.reachAll]; rfl
  | cons n ns ih =>
    rw [List.forall_mem_cons] at h
    rw [Node.visitsAll, Node.reachAll, List.map_append, ih h.2, ← h.1 above, List.map_map,
      List.map_map]
    rfl

theorem map_address_visits (n : Node) (above : List Node) (parent : Frame) (number : Nat) :
    (n.visits a source fileId above parent number).map (·.address) = n.reach := by
  induction n using Node.children_induction generalizing above parent number with
  | step n ih =>
    rw [Node.visits_eq, Node.reach_eq]
    split
    · rw [List.map_cons, map_address_visitsAll ih]
    · rfl

/-- A visit below the children of a node is a visit to the tree of one of them, and all visits to
that tree are among them. -/
theorem mem_visitsAll {ns : List Node} {above : List Node} {parent : Frame} {frame : Option Frame}
    {i number : Nat} {v : Visit}
    (h : v ∈ Node.visitsAll a source fileId above parent frame i number ns) :
    ∃ (j : Nat) (c : Node) (m : Nat), ns[j]? = some c ∧
      (∃ u ∈ c.visits a source fileId above (a.parentBelow parent frame c) m,
        v = u.lift (i + j)) ∧
      ∀ u ∈ c.visits a source fileId above (a.parentBelow parent frame c) m,
        u.lift (i + j) ∈ Node.visitsAll a source fileId above parent frame i number ns := by
  induction ns generalizing i number with
  | nil => simp [Node.visitsAll] at h
  | cons n ns ih =>
    simp only [Node.visitsAll, List.mem_append, List.mem_map] at h ⊢
    rcases h with ⟨u, hu, rfl⟩ | h
    · exact ⟨0, n, number, rfl, ⟨u, hu, rfl⟩, fun u' hu' => Or.inl ⟨u', hu', rfl⟩⟩
    · obtain ⟨j, c, m, hc, ⟨u, hu, rfl⟩, hall⟩ := ih h
      have hj : i + (j + 1) = i + 1 + j := by omega
      rw [← hj] at hall
      exact ⟨j + 1, c, m, hc, ⟨u, hu, by rw [hj]⟩, fun u' hu' => Or.inr (hall u' hu')⟩

theorem mem_visits {n : Node} {above : List Node} {parent : Frame} {number : Nat} {v : Visit}
    (h : v ∈ n.visits a source fileId above parent number) :
    v = ⟨[], ⟨n, above⟩, parent, number⟩ ∨
    ∃ (j : Nat) (c : Node) (m : Nat), n.children[j]? = some c ∧
      (∃ u ∈ c.visits a source fileId (n :: above)
          (a.parentBelow parent (Site.frame? a source fileId number ⟨n, above⟩) c) m,
        v = u.lift j) ∧
      ∀ u ∈ c.visits a source fileId (n :: above)
          (a.parentBelow parent (Site.frame? a source fileId number ⟨n, above⟩) c) m,
        u.lift j ∈ n.visits a source fileId above parent number := by
  rw [Node.visits_eq] at h ⊢
  split at h
  · rename_i hn
    rw [if_pos hn]
    rcases List.mem_cons.mp h with rfl | h
    · exact Or.inl rfl
    · obtain ⟨j, c, m, hc, hu, hall⟩ := mem_visitsAll h
      rw [Nat.zero_add] at hu hall
      exact Or.inr ⟨j, c, m, hc, hu, fun u' hu' => List.mem_cons_of_mem _ (hall u' hu')⟩
  · cases h

/-- Where something is visited, the root of the tree is. -/
theorem head_mem_visits {n : Node} {above : List Node} {parent : Frame} {number : Nat} {v : Visit}
    (h : v ∈ n.visits a source fileId above parent number) :
    ⟨[], ⟨n, above⟩, parent, number⟩ ∈ n.visits a source fileId above parent number := by
  rw [Node.visits_eq] at h ⊢
  split at h
  · rename_i hn
    rw [if_pos hn]
    exact List.mem_cons_self
  · cases h

/-- A visit is to the node at its address. -/
theorem at?_of_mem_visits {n : Node} {above : List Node} {parent : Frame} {number : Nat}
    {v : Visit} (h : v ∈ n.visits a source fileId above parent number) :
    Site.at? ⟨n, above⟩ v.address = some v.site := by
  induction n using Node.children_induction generalizing above parent number v with
  | step n ih =>
    rcases mem_visits h with rfl | ⟨j, c, m, hc, ⟨u, hu, rfl⟩, -⟩
    · rfl
    · rw [Visit.lift, Site.at?_cons hc]
      exact ih c (List.mem_of_getElem? hc) hu

end
end Outline
