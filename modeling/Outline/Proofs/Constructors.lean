import Outline.Proofs.Lines

/-!
# Constructors

Whether a function is a constructor is said when its node is recognised, by climbing from the node
past its decorators to a block and from there to a class. Which declaration it belongs to is said
when it is recorded, by the innermost scope that is open. The first looks at nodes only, the second
at what became of them: a class that is not recorded opens no scope, nor does one for a child under
a field outside of it. For classes that are whole the two agree.

* `Python.isClassMember_iff`: what the climb looks for.
* `Site.parentAt_of_quiet`: the owner of an address where the nodes between declare nothing.
* `constructor_iff_held_by_parent`: a function is a constructor if it has the name of one and is
  held by the class that is its parent.
-/
namespace Outline

/-! ## Climbing to a class -/

namespace Python

/-- The nodes above a definition, nearest first, lead to a site by way of decorated definitions and
then one block. -/
def HeldBy (ancestors : List Node) (u : Site) : Prop :=
  ∃ decorated block, ancestors = decorated ++ block :: u.node :: u.ancestors ∧
    (∀ n ∈ decorated, n.kind = "decorated_definition") ∧ block.kind = "block"

/-- The same, and the block is the body of the node of that site. -/
def HeldInBody (ancestors : List Node) (u : Site) : Prop :=
  ∃ decorated, ∃ body ∈ u.node.children, ancestors = decorated ++ body :: u.node :: u.ancestors ∧
    (∀ n ∈ decorated, n.kind = "decorated_definition") ∧ body.kind = "block" ∧
    body.field = some "body"

theorem HeldInBody.held {ancestors : List Node} {u : Site} (h : HeldInBody ancestors u) :
    HeldBy ancestors u := by
  obtain ⟨decorated, body, -, heq, hdecorated, hbody, -⟩ := h
  exact ⟨decorated, body, heq, hdecorated, hbody⟩

theorem heldBy_cons {n : Node} {ancestors : List Node} {u : Site} :
    HeldBy (n :: ancestors) u ↔ n.kind = "decorated_definition" ∧ HeldBy ancestors u ∨
      n.kind = "block" ∧ ancestors = u.node :: u.ancestors := by
  constructor
  · rintro ⟨decorated, block, heq, hdecorated, hblock⟩
    cases decorated with
    | nil =>
      obtain ⟨rfl, habove⟩ := List.cons.inj heq
      exact Or.inr ⟨hblock, habove⟩
    | cons m decorated =>
      obtain ⟨rfl, habove⟩ := List.cons.inj heq
      rw [List.forall_mem_cons] at hdecorated
      exact Or.inl ⟨hdecorated.1, decorated, block, habove, hdecorated.2, hblock⟩
  · rintro (⟨hn, decorated, block, rfl, hdecorated, hblock⟩ | ⟨hn, rfl⟩)
    · exact ⟨n :: decorated, block, rfl, List.forall_mem_cons.mpr ⟨hn, hdecorated⟩, hblock⟩
    · exact ⟨[], n, rfl, List.forall_mem_nil _, hn⟩

theorem HeldBy.unique {ancestors : List Node} {u v : Site} (hu : HeldBy ancestors u)
    (hv : HeldBy ancestors v) : u = v := by
  induction ancestors with
  | nil => simp [HeldBy] at hu
  | cons n ancestors ih =>
    rcases heldBy_cons.mp hu with ⟨hn, hu⟩ | ⟨hn, hu⟩ <;>
      rcases heldBy_cons.mp hv with ⟨hm, hv⟩ | ⟨hm, hv⟩
    · exact ih hu hv
    · simp [hn] at hm
    · simp [hn] at hm
    · cases u
      cases v
      obtain ⟨rfl, rfl⟩ := List.cons.inj (hu.symm.trans hv)
      rfl

/-- The climb ends at a class if it meets decorated definitions only before a block, and the class
right above that. -/
theorem isClassMember_iff {ancestors : List Node} :
    isClassMember ancestors = true ↔
      ∃ u : Site, u.node.kind = "class_definition" ∧ HeldBy ancestors u := by
  fun_induction isClassMember ancestors with
  | case1 => simp [HeldBy]
  | case2 n above hn ih => simp [ih, heldBy_cons, hn]
  | case3 n hn hblock => simp [heldBy_cons, hblock]
  | case4 n hn hblock owner above =>
    rw [beq_iff_eq]
    constructor
    · intro howner
      exact ⟨⟨owner, above⟩, howner, heldBy_cons.mpr (Or.inr ⟨hblock, rfl⟩)⟩
    · rintro ⟨u, hu, hheld⟩
      rcases heldBy_cons.mp hheld with ⟨hdecorated, -⟩ | ⟨-, heq⟩
      · exact absurd hdecorated hn
      · rwa [(List.cons.inj heq).1]
  | case5 n above hn hblock => simp [heldBy_cons, hn, hblock]

/-! ## What is recorded -/

variable {source : ByteArray} {fileId : EntityId} {number : Nat} {parent : Frame} {t : Site}

/-- A function is flagged by its name and by the nodes above it. -/
theorem isConstructor_iff {d : FunctionDecl}
    (h : t.function? adapter source fileId number parent = some d) :
    d.isConstructor = true ↔ d.name = "__init__" ∧ isClassMember t.ancestors = true := by
  unfold Site.function? at h
  simp only [adapter, recognize] at h
  split at h
  · rename_i shape hr
    obtain ⟨location, -, rfl⟩ := Option.map_eq_some_iff.mp h
    split at hr <;> cases hr
    · rw [function, Bool.and_eq_true, beq_iff_eq]
      cases t.node.fieldText? "name" source <;> simp
    · simp [lambda]
  · cases h

theorem kind_of_class? {c : ClassDecl}
    (h : t.class? adapter source fileId number parent = some c) :
    t.node.kind = "class_definition" := by
  unfold Site.class? at h
  simp only [adapter, recognize] at h
  split at h
  · rename_i shape hr
    split at hr
    · cases hr
    · cases hr
    · assumption
    · cases hr
  · cases h

/-- Neither decorated definitions nor blocks declare anything. -/
theorem declares_eq_none (h : t.node.kind = "decorated_definition" ∨ t.node.kind = "block") :
    t.declares adapter source = none := by
  unfold Site.declares
  rcases h with h | h <;> simp [adapter, recognize, h]

/-- A class that is whole: it has a name, its range is one, and its blocks are its body. -/
structure WholeClass (source : ByteArray) (n : Node) : Prop where
  name : lacksName (n.fieldText? "name" source) = false
  forward : n.start ≤ n.stop
  body : ∀ c ∈ n.children, c.kind = "block" → c.field = some "body"

instance (source : ByteArray) (n : Node) : Decidable (WholeClass source n) :=
  decidable_of_iff (lacksName (n.fieldText? "name" source) = false ∧ n.start ≤ n.stop ∧
      ∀ c ∈ n.children, c.kind = "block" → c.field = some "body")
    ⟨fun h => ⟨h.1, h.2.1, h.2.2⟩, fun h => ⟨h.name, h.forward, h.body⟩⟩

/-- A class that is whole and has a block is recorded. -/
theorem WholeClass.exists_class? {block : Node} (h : WholeClass source t.node)
    (hkind : t.node.kind = "class_definition") (hmem : block ∈ t.node.children)
    (hblock : block.kind = "block") :
    ∃ c, t.class? adapter source fileId number parent = some c := by
  have hbody : t.node.hasField "body" = true := by
    rw [Node.hasField, Node.childByField?, List.find?_isSome]
    exact ⟨block, hmem, by simp [h.body block hmem hblock]⟩
  have hcheck : (classDefinition t.node source).check = .ok ⟨t.node.lines.1, t.node.lines.2⟩ := by
    simp [ClassShape.check, classDefinition, h.name, hbody,
      checkSpan_eq_ok (Node.lines_valid h.forward)]
  unfold Site.class?
  simp [adapter, recognize, hkind, hcheck, Except.toOption]

end Python

/-! ## Owners -/

namespace Site

variable {a : Adapter} {source : ByteArray} {fileId : EntityId} {n : Node} {p : Address} {t : Site}

/-- Where nothing is declared for the nodes between an address and a declaration above it, and the
way from the one to the other stays in the scope of the declaration, the declaration is the owner. -/
theorem parentAt_of_quiet (ht : (root n).at? p = some t) {inner : List Node} {next : Node}
    {u : Site} (hu : t.ancestors = inner ++ next :: u.node :: u.ancestors)
    (hquiet : ∀ m ∈ inner ++ [next], ∀ above, declares a source ⟨m, above⟩ = none)
    (hinside : next.field.any a.outsideOwnScope = false) {f : Frame}
    (hframe : (root n).frameAt? a source fileId (p.take u.ancestors.length) = some f) :
    (root n).parentAt a source fileId p = f := by
  have hbetween : t.ancestors = (inner ++ [next]) ++ u.node :: u.ancestors := by simp [hu]
  obtain ⟨hlt, -⟩ := at?_take_of_ancestors ht hbetween
  refine OwnedBy.unique (ownedBy_parentAt p) (Or.inl ⟨_, hlt, ?_, fun j hj hjp => ?_, hframe⟩)
  · have hkind : ((root n).kindAt? a source (p.take u.ancestors.length)).isSome = true :=
      (frameAt?_isSome _).symm.trans (congrArg Option.isSome hframe)
    have hnext : (root n).at? (p.take (u.ancestors.length + 1)) =
        some ⟨next, u.node :: u.ancestors⟩ :=
      (at?_take_of_ancestors ht (u := ⟨next, u.node :: u.ancestors⟩) hu).2
    simp [owns, outsideAt, hkind, hnext, hinside]
  · obtain ⟨v, hv, hmem⟩ := exists_mem_between ht hbetween hj hjp
    have hnone := hquiet v.node hmem v.ancestors
    simp [owns, kindAt?, hv, hnone]

end Site

/-! ## Constructors and their classes -/

/-- A class is recorded for a node on the way to an address. -/
def Site.ClassAbove (a : Adapter) (source : ByteArray) (fileId : EntityId) (s : Site) (p : Address)
    (c : ClassDecl) (u : Site) : Prop :=
  ∃ k, s.at? (p.take k) = some u ∧ s.classAt? a source fileId (p.take k) = some c

theorem Site.ClassAbove.mem_classes {a : Adapter} {source : ByteArray} {id : EntityId} {s : Site}
    {p : Address} {c : ClassDecl} {u : Site} (h : s.ClassAbove a source id p c u)
    (hp : p ∈ s.reach) (path : String) (language : Language) (dump : NodeDump) :
    c ∈ ((Extraction.start (.empty id path language) dump).walk a source s).file.classes := by
  obtain ⟨k, -, hc⟩ := h
  rw [← Array.mem_toList_iff, Extraction.classes_walk]
  exact List.mem_filterMap.mpr ⟨_, Node.take_mem_reach hp k, hc⟩

namespace Python

variable {source : ByteArray} {fileId : EntityId} {n : Node} {p : Address} {t u : Site}

/-- A class that is whole and holds what is at an address is recorded, and it is the owner. -/
theorem HeldBy.exists_owner (hheld : HeldBy t.ancestors u) (ht : (Site.root n).at? p = some t)
    (hkind : u.node.kind = "class_definition")
    (hwhole : u.node ∈ n.nodes → WholeClass source u.node) :
    HeldInBody t.ancestors u ∧ ∃ c, (Site.root n).ClassAbove adapter source fileId p c u ∧
      c.frame = (Site.root n).parentAt adapter source fileId p := by
  obtain ⟨decorated, block, hancestors, hdecorated, hblock⟩ := hheld
  obtain ⟨-, hu⟩ := Site.at?_take_of_ancestors ht
    (show t.ancestors = (decorated ++ [block]) ++ u.node :: u.ancestors by simp [hancestors])
  obtain ⟨-, hnext⟩ := Site.at?_take_of_ancestors ht
    (u := ⟨block, u.node :: u.ancestors⟩) hancestors
  have hmem : block ∈ u.node.children := Site.mem_children_of_ancestors hnext rfl
  have hwhole := hwhole (Site.node_mem_of_at? hu)
  have hfield : block.field = some "body" := hwhole.body block hmem hblock
  refine ⟨⟨decorated, block, hmem, hancestors, hdecorated, hblock, hfield⟩, ?_⟩
  obtain ⟨c, hc⟩ := hwhole.exists_class? hkind hmem hblock
  have hclass : (Site.root n).classAt? adapter source fileId (p.take u.ancestors.length) =
      some c := by
    rw [Site.classAt?, hu, Option.bind_some, hc]
  refine ⟨c, ⟨_, hu, hclass⟩, Eq.symm ?_⟩
  -- nothing between opens a scope, and the body is in the scope of the class
  refine Site.parentAt_of_quiet ht hancestors (fun m hm above => declares_eq_none ?_) ?_
    (classAt?_eq_some hclass).1
  · rcases List.mem_append.mp hm with hm | hm
    · exact Or.inl (hdecorated m hm)
    · exact Or.inr (List.mem_singleton.mp hm ▸ hblock)
  · rw [hfield]
    rfl

end Python

/-- **A constructor belongs to the class that holds it.** A tree in which all classes are whole is
walked from its root, into a file in which nothing is recorded. A function is a constructor if and
only if it has the name of one, its parent is a class, and between its node and the node of that
class there are only decorated definitions below a block. So the parent of a constructor is the
class in whose body it stands; and what a block of anything else holds, or has another parent than
a class, is none. -/
theorem constructor_iff_held_by_parent (n : Node) (source : ByteArray) (id : EntityId)
    (path : String) (language : Language) (dump : NodeDump)
    (hwhole : ∀ m ∈ n.nodes, m.kind = "class_definition" → Python.WholeClass source m)
    (x : Extraction) (hx : x = (Extraction.start (.empty id path language) dump).walk
      Python.adapter source (Site.root n)) :
    ∀ d ∈ x.file.functions, ∃ p ∈ (Site.root n).reach, ∃ t, (Site.root n).at? p = some t ∧
      (Site.root n).functionAt? Python.adapter source id p = some d ∧
      (d.isConstructor = true ↔ d.name = "__init__" ∧ d.parent.kind = .classLike ∧
        ∃ c ∈ x.file.classes, c.frame = d.parent ∧
          ∃ u, (Site.root n).ClassAbove Python.adapter source id p c u ∧
            Python.HeldBy t.ancestors u) ∧
      (d.isConstructor = true → ∃ c ∈ x.file.classes, c.frame = d.parent ∧
        ∃ u, (Site.root n).ClassAbove Python.adapter source id p c u ∧
          Python.HeldInBody t.ancestors u) ∧
      (∀ u, Python.HeldBy t.ancestors u → u.node.kind ≠ "class_definition" →
        d.isConstructor = false) ∧
      (d.parent.kind ≠ .classLike → d.isConstructor = false) := by
  intro d hd
  subst hx
  rw [← Array.mem_toList_iff, Extraction.functions_walk] at hd
  obtain ⟨p, hp, hpd⟩ := List.mem_filterMap.mp hd
  obtain ⟨t, ht, htd⟩ := Option.bind_eq_some_iff.mp hpd
  have hflag := Python.isConstructor_iff htd
  -- what the climb finds is what is recorded as the parent
  have howner : d.isConstructor = true → ∃ c u, u.node.kind = "class_definition" ∧
      Python.HeldInBody t.ancestors u ∧ c.frame = d.parent ∧
      (Site.root n).ClassAbove Python.adapter source id p c u := by
    intro hd
    obtain ⟨u, hkind, hheld⟩ := Python.isClassMember_iff.mp (hflag.mp hd).2
    obtain ⟨hbody, c, habove, hframe⟩ := hheld.exists_owner ht hkind fun hu => hwhole _ hu hkind
    exact ⟨c, u, hkind, hbody, hframe.trans (functionAt?_eq_some hpd).2.symm, habove⟩
  refine ⟨p, hp, t, ht, hpd, ⟨fun h => ?_, ?_⟩, fun h => ?_, fun u hu hkind => ?_, fun hkind => ?_⟩
  · obtain ⟨c, u, -, hbody, hframe, habove⟩ := howner h
    exact ⟨(hflag.mp h).1, hframe ▸ rfl, c, habove.mem_classes hp _ _ _, hframe, u, habove,
      hbody.held⟩
  · rintro ⟨hname, -, c, -, -, u, ⟨k, hk, hc⟩, hheld⟩
    rw [Site.classAt?, hk, Option.bind_some] at hc
    exact hflag.mpr ⟨hname, Python.isClassMember_iff.mpr ⟨u, Python.kind_of_class? hc, hheld⟩⟩
  · obtain ⟨c, u, -, hbody, hframe, habove⟩ := howner h
    exact ⟨c, habove.mem_classes hp _ _ _, hframe, u, habove, hbody⟩
  · rw [Bool.eq_false_iff]
    intro h
    obtain ⟨c, v, hv, hbody, -⟩ := howner h
    exact hkind (hu.unique hbody.held ▸ hv)
  · rw [Bool.eq_false_iff]
    intro h
    obtain ⟨c, v, -, -, hframe, -⟩ := howner h
    exact hkind (hframe ▸ rfl)

/-- The decorated method is a constructor; the method of that name under a condition is none. -/
theorem constructor_iff_held_by_parent_decorated :
    (∀ m ∈ Node.decorated.nodes, m.kind = "class_definition" →
      Python.WholeClass SourceInput.decorated.content.toUTF8 m) ∧
    ∃ x, x = (Extraction.start (.empty "f" "a.py" .python) .disabled).walk Python.adapter
        SourceInput.decorated.content.toUTF8 (Site.root Node.decorated) ∧
      x.file.functions.toList.map (fun d => (d.name, d.isConstructor)) =
        [("__init__", true), ("", false), ("g", false), ("__init__", false)] ∧
      ∀ d ∈ x.file.functions, d.isConstructor = true → ∃ c ∈ x.file.classes, c.frame = d.parent := by
  have hwhole : ∀ m ∈ Node.decorated.nodes, m.kind = "class_definition" →
      Python.WholeClass SourceInput.decorated.content.toUTF8 m := by decide +kernel
  refine ⟨hwhole, _, rfl, ?_, fun d hd hflag => ?_⟩
  · rw [Extraction.functions_walk]
    decide +kernel
  · obtain ⟨p, -, t, -, -, -, howner, -⟩ := constructor_iff_held_by_parent Node.decorated _ "f"
      "a.py" .python .disabled hwhole _ rfl d hd
    obtain ⟨c, hc, hframe, -⟩ := howner hflag
    exact ⟨c, hc, hframe⟩

end Outline
