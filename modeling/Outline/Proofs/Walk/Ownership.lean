import Outline.Proofs.Walk.Visits

/-!
# Who owns a declaration

The owner of what stands at an address is said from the tree alone: it is the nearest node above the
address for which a declaration was recorded and in whose own scope the way to the address goes on
(`Site.owns`). Numbers are said from the tree as well, by counting the declarations before an
address in document order (`Site.numberAt`), and so are frames (`Site.frameAt?`).

* `ownedBy_parentAt`: `Site.parentAt` is the frame of the nearest owner, or of the file.
* `parent_of_mem_visits`: so is the parent on each visit of a walk.
* `functions_walk`, `classes_walk`: what a walk records is read off the addresses that it reaches.
* `walk_parents`: the functions and classes of a walked file, each with its owner as its parent.
-/
namespace Outline

namespace Site

variable (a : Adapter) (source : ByteArray) (fileId : EntityId) (s : Site)

/-! ## Owners, numbers and frames by address -/

/-- The kind of declaration that is recorded for the node at an address. -/
def kindAt? (p : Address) : Option EntityKind := (s.at? p).bind (·.declares a source)

/-- Whether the node at an address sits under a field outside the scope of the node above it. -/
def outsideAt (p : Address) : Bool := (s.at? p).any (·.node.field.any a.outsideOwnScope)

/-- Whether the node `k` levels down the way to an address owns what is there: a declaration was
recorded for it, and the next node on the way belongs to its scope. -/
def owns (p : Address) (k : Nat) : Bool :=
  (s.kindAt? a source (p.take k)).isSome && !s.outsideAt a (p.take (k + 1))

/-- One more than the declarations recorded before an address in document order. -/
def numberAt (p : Address) : Nat :=
  1 + (s.reach.takeWhile (· != p)).countP fun q => (s.kindAt? a source q).isSome

/-- The frame of the declaration that is recorded for the node at an address. -/
def frameAt? (p : Address) : Option Frame :=
  (s.at? p).bind (·.frame? a source fileId (s.numberAt a source p))

/-- A frame is the nearest owner's: no node further down the way to the address owns what is there.
If nothing owns it, it is the file's frame. -/
def OwnedBy (p : Address) (f : Frame) : Prop :=
  (∃ k, k < p.length ∧ s.owns a source p k = true ∧
    (∀ j, k < j → j < p.length → s.owns a source p j = false) ∧
    s.frameAt? a source fileId (p.take k) = some f) ∨
  ((∀ k, k < p.length → s.owns a source p k = false) ∧ f = ⟨fileId, .file⟩)

/-- The frame of the owner, by a search from the address upwards. -/
def parentAt (p : Address) : Frame :=
  match (List.range p.length).reverse.find? (s.owns a source p) with
  | some k => (s.frameAt? a source fileId (p.take k)).getD ⟨fileId, .file⟩
  | none => ⟨fileId, .file⟩

/-- The function that is recorded for the node at an address. -/
def functionAt? (p : Address) : Option FunctionDecl :=
  (s.at? p).bind
    (·.function? a source fileId (s.numberAt a source p) (s.parentAt a source fileId p))

@[inherit_doc functionAt?]
def classAt? (p : Address) : Option ClassDecl :=
  (s.at? p).bind (·.class? a source fileId (s.numberAt a source p) (s.parentAt a source fileId p))

end Site

/-! ## The nearest owner -/

/-- A search from above finds the greatest number below `n` with a property, if there is one. -/
theorem find?_reverse_range (P : Nat → Bool) (n : Nat) :
    (∃ k, (List.range n).reverse.find? P = some k ∧ k < n ∧ P k = true ∧
      ∀ j, k < j → j < n → P j = false) ∨
    ((List.range n).reverse.find? P = none ∧ ∀ k, k < n → P k = false) := by
  induction n with
  | zero => exact Or.inr ⟨rfl, fun k hk => absurd hk (Nat.not_lt_zero k)⟩
  | succ n ih =>
    rw [List.range_succ, List.reverse_append, List.reverse_singleton, List.singleton_append,
      List.find?_cons]
    cases hn : P n with
    | true => exact Or.inl ⟨n, rfl, Nat.lt_succ_self n, hn, fun j h1 h2 => by omega⟩
    | false =>
      have hstep : ∀ j, j < n + 1 → j < n ∨ P j = false := by
        intro j hj
        rcases Nat.lt_succ_iff_lt_or_eq.mp hj with h | rfl
        · exact Or.inl h
        · exact Or.inr hn
      rcases ih with ⟨k, hk, hlt, hp, hj⟩ | ⟨hk, hj⟩
      · exact Or.inl ⟨k, hk, by omega, hp, fun j h1 h2 => (hstep j h2).elim (hj j h1) id⟩
      · exact Or.inr ⟨hk, fun j h => (hstep j h).elim (hj j) id⟩

namespace Site

variable {a : Adapter} {source : ByteArray} {fileId : EntityId} {s : Site}

theorem frameAt?_isSome (p : Address) :
    (s.frameAt? a source fileId p).isSome = (s.kindAt? a source p).isSome := by
  unfold frameAt? kindAt? frame?
  cases s.at? p <;> simp

theorem ownedBy_parentAt (p : Address) :
    s.OwnedBy a source fileId p (s.parentAt a source fileId p) := by
  unfold parentAt
  rcases find?_reverse_range (s.owns a source p) p.length with ⟨k, hk, hlt, hp, hj⟩ | ⟨hk, hj⟩
  · have hs : (s.frameAt? a source fileId (p.take k)).isSome := by
      rw [frameAt?_isSome]
      exact (Bool.and_eq_true_iff.mp hp).1
    obtain ⟨f, hf⟩ := Option.isSome_iff_exists.mp hs
    exact Or.inl ⟨k, hlt, hp, hj, by simp [hk, hf]⟩
  · exact Or.inr ⟨hj, by simp [hk]⟩

theorem OwnedBy.unique {p : Address} {f g : Frame} (hf : s.OwnedBy a source fileId p f)
    (hg : s.OwnedBy a source fileId p g) : f = g := by
  rcases hf with ⟨k, hk, hp, hj, hf⟩ | ⟨hn, rfl⟩ <;>
    rcases hg with ⟨m, hm, hpm, hjm, hg⟩ | ⟨hnm, rfl⟩
  · have : m = k := by
      rcases Nat.lt_trichotomy m k with h | h | h
      · rw [hjm k h hk] at hp; cases hp
      · exact h
      · rw [hj m h hm] at hpm; cases hpm
    subst this
    rw [hf] at hg
    exact Option.some.inj hg
  · rw [hnm k hk] at hp; cases hp
  · rw [hn m hm] at hpm; cases hpm
  · rfl

/-! ## One level down -/

theorem owns_succ {n c : Node} {above : List Node} {i : Nat} (hc : n.children[i]? = some c)
    (p : Address) (k : Nat) :
    Site.owns a source ⟨n, above⟩ (i :: p) (k + 1) = Site.owns a source ⟨c, n :: above⟩ p k := by
  simp only [owns, kindAt?, outsideAt, List.take_succ_cons, at?_cons hc]

theorem owns_zero {n c : Node} {above : List Node} {i : Nat} (hc : n.children[i]? = some c)
    (p : Address) :
    Site.owns a source ⟨n, above⟩ (i :: p) 0 =
      ((Site.declares a source ⟨n, above⟩).isSome && !c.field.any a.outsideOwnScope) := by
  simp [owns, kindAt?, outsideAt, at?_cons hc, at?]

end Site

section

variable {a : Adapter} {source : ByteArray} {fileId : EntityId}

/-- The frame below which a child is visited, seen from the child: the node's own if it owns what is
in the child. -/
theorem parentBelow_eq {n c : Node} {above : List Node} {i : Nat} (hc : n.children[i]? = some c)
    (p : Address) (parent : Frame) (number : Nat) :
    (Site.owns a source ⟨n, above⟩ (i :: p) 0 = true ∧
      Site.frame? a source fileId number ⟨n, above⟩ =
        some (a.parentBelow parent (Site.frame? a source fileId number ⟨n, above⟩) c)) ∨
    (Site.owns a source ⟨n, above⟩ (i :: p) 0 = false ∧
      a.parentBelow parent (Site.frame? a source fileId number ⟨n, above⟩) c = parent) := by
  rw [Site.owns_zero hc]
  unfold Adapter.parentBelow Site.frame?
  cases Site.declares a source ⟨n, above⟩ <;> cases c.field.any a.outsideOwnScope <;> simp

/-- The parent on a visit is the frame of the nearest owner, which was visited too, or else the
parent that the whole tree was handed. -/
theorem parent_of_mem_visits {n : Node} {above : List Node} {parent : Frame} {number : Nat}
    {v : Visit} (h : v ∈ n.visits a source fileId above parent number) :
    (∃ k, k < v.address.length ∧ Site.owns a source ⟨n, above⟩ v.address k = true ∧
      (∀ j, k < j → j < v.address.length → Site.owns a source ⟨n, above⟩ v.address j = false) ∧
      ∃ u ∈ n.visits a source fileId above parent number,
        u.address = v.address.take k ∧ u.site.frame? a source fileId u.number = some v.parent) ∨
    ((∀ k, k < v.address.length → Site.owns a source ⟨n, above⟩ v.address k = false) ∧
      v.parent = parent) := by
  induction n using Node.children_induction generalizing above parent number v with
  | step n ih =>
    have hroot := head_mem_visits h
    rcases mem_visits h with rfl | ⟨i, c, m, hc, ⟨u, hu, rfl⟩, hall⟩
    · exact Or.inr ⟨fun k hk => absurd hk (Nat.not_lt_zero k), rfl⟩
    have hlen : (u.lift i).address.length = u.address.length + 1 := rfl
    have haddress : (u.lift i).address = i :: u.address := rfl
    have hparent : (u.lift i).parent = u.parent := rfl
    rw [hlen, haddress, hparent]
    rcases ih c (List.mem_of_getElem? hc) hu with ⟨k, hk, ho, hn, w, hw, hwp, hwf⟩ | ⟨hn, hp⟩
    · -- the owner is below the child
      refine Or.inl ⟨k + 1, by omega, by rw [Site.owns_succ hc, ho], fun j h1 h2 => ?_,
        w.lift i, hall w hw, by rw [List.take_succ_cons, ← hwp]; rfl, hwf⟩
      obtain ⟨j, rfl⟩ : ∃ j', j = j' + 1 := ⟨j - 1, by omega⟩
      rw [Site.owns_succ hc]
      exact hn j (by omega) (by omega)
    · -- nothing below the child owns it, so it is for the node itself or what is above
      have hsucc : ∀ j, 0 < j → j < u.address.length + 1 →
          Site.owns a source ⟨n, above⟩ (i :: u.address) j = false := by
        intro j h1 h2
        obtain ⟨j, rfl⟩ : ∃ j', j = j' + 1 := ⟨j - 1, by omega⟩
        rw [Site.owns_succ hc]
        exact hn j (by omega)
      rw [hp]
      rcases parentBelow_eq hc u.address parent number with ⟨h0, hf⟩ | ⟨h0, hf⟩
      · exact Or.inl ⟨0, by omega, h0, hsucc, _, hroot, rfl, hf⟩
      · refine Or.inr ⟨fun k hk => ?_, hf⟩
        rcases Nat.eq_zero_or_pos k with rfl | hpos
        · exact h0
        · exact hsucc k hpos hk

/-! ## Visits by address -/

/-- The visits of a walk that starts at a site in a file in which nothing has a number yet. -/
def Site.visits (a : Adapter) (source : ByteArray) (fileId : EntityId) (s : Site) : List Visit :=
  s.node.visits a source fileId s.ancestors ⟨fileId, .file⟩ 1

namespace Site

variable {s : Site} {v : Visit}

theorem map_address_visits (a : Adapter) (source : ByteArray) (fileId : EntityId) (s : Site) :
    (s.visits a source fileId).map (·.address) = s.reach :=
  Outline.map_address_visits s.node s.ancestors ⟨fileId, .file⟩ 1

theorem at?_of_mem_visits (h : v ∈ s.visits a source fileId) : s.at? v.address = some v.site :=
  Outline.at?_of_mem_visits h

theorem kindAt?_of_mem_visits (h : v ∈ s.visits a source fileId) :
    s.kindAt? a source v.address = v.site.declares a source := by
  rw [kindAt?, at?_of_mem_visits h, Option.bind_some]

theorem numberAt_of_mem_visits (h : v ∈ s.visits a source fileId) :
    s.numberAt a source v.address = v.number := by
  obtain ⟨before, after, hvs⟩ := List.append_of_mem h
  have hnumbered : Numbered a source 1 (s.visits a source fileId) := numbered_visits ..
  have hreach := map_address_visits a source fileId s
  have hnodup : s.reach.Nodup := s.node.nodup_reach
  rw [hvs] at hnumbered hreach
  rw [← hreach, List.map_append, List.map_cons] at hnodup
  have hfresh : ∀ q ∈ before.map (·.address), (q != v.address) = true := by
    intro q hq
    have := (List.nodup_append.mp hnodup).2.2 q hq v.address List.mem_cons_self
    simpa using this
  have hbefore : s.reach.takeWhile (· != v.address) = before.map (·.address) := by
    rw [← hreach, List.map_append, List.map_cons, List.takeWhile_append_of_pos hfresh,
      List.takeWhile_cons_of_neg (by simp), List.append_nil]
  rw [numberAt, hbefore, number_eq_of_numbered hnumbered, List.countP_map, recordedOn]
  congr 1
  refine List.countP_congr fun u hu => ?_
  have hu' : u ∈ s.visits a source fileId := by rw [hvs]; exact List.mem_append_left _ hu
  rw [Function.comp, kindAt?_of_mem_visits hu']

theorem frameAt?_of_mem_visits (h : v ∈ s.visits a source fileId) :
    s.frameAt? a source fileId v.address = v.site.frame? a source fileId v.number := by
  rw [frameAt?, at?_of_mem_visits h, numberAt_of_mem_visits h, Option.bind_some]

theorem parentAt_of_mem_visits (h : v ∈ s.visits a source fileId) :
    s.parentAt a source fileId v.address = v.parent := by
  refine OwnedBy.unique (ownedBy_parentAt v.address) ?_
  rcases parent_of_mem_visits h with ⟨k, hk, ho, hn, u, hu, hup, huf⟩ | hfile
  · refine Or.inl ⟨k, hk, ho, hn, ?_⟩
    rw [← hup, frameAt?_of_mem_visits hu, huf]
  · exact Or.inr hfile

/-- What is read off the visits can be read off the addresses. -/
theorem filterMap_reach {β : Type} (item : EntityId → Nat → Frame → Site → Option β) :
    s.reach.filterMap (fun p => (s.at? p).bind
        (item fileId (s.numberAt a source p) (s.parentAt a source fileId p))) =
      (s.visits a source fileId).filterMap
        fun v => item fileId v.number v.parent v.site := by
  rw [← map_address_visits a source fileId, List.filterMap_map]
  refine List.filterMap_congr fun v hv => ?_
  rw [Function.comp, at?_of_mem_visits hv, numberAt_of_mem_visits hv, parentAt_of_mem_visits hv,
    Option.bind_some]

end Site

/-- A list of findings to which each visit adds has, after a walk from a fresh extraction, what is
found at the addresses that are reached, in document order. -/
theorem view_walk {β : Type} (view : Findings → List β)
    {item : EntityId → Nat → Frame → Site → Option β}
    (hv : ∀ r s parent, view (r.visit a source s parent).2 =
      view r ++ (item r.ids.fileId r.ids.next parent s).toList)
    (file : SourceFile) (dump : NodeDump) (s : Site) :
    view ((Extraction.start file dump).walk a source s).findings =
      view (Extraction.start file dump).findings ++
        s.reach.filterMap fun p => (s.at? p).bind
          (item file.id (s.numberAt a source p) (s.parentAt a source file.id p)) := by
  have hnumbered : Numbered a source 1 (s.visits a source file.id) := numbered_visits ..
  rw [Extraction.walk_findings, Node.outline_eq_foldl, Site.filterMap_reach]
  exact view_foldl hv hnumbered

/-! ## Declarations by address -/

theorem functionAt?_eq_some {s : Site} {p : Address} {d : FunctionDecl}
    (h : s.functionAt? a source fileId p = some d) :
    s.frameAt? a source fileId p = some d.frame ∧ d.parent = s.parentAt a source fileId p := by
  unfold Site.functionAt? Site.function? at h
  unfold Site.frameAt? Site.frame? Site.declares
  cases ht : s.at? p with
  | none => simp [ht] at h
  | some t =>
    simp only [ht, Option.bind_some] at h ⊢
    split at h
    · rename_i shape hr
      obtain ⟨location, hl, rfl⟩ := Option.map_eq_some_iff.mp h
      simp [hr, hl, FunctionDecl.frame]
    · cases h

theorem classAt?_eq_some {s : Site} {p : Address} {d : ClassDecl}
    (h : s.classAt? a source fileId p = some d) :
    s.frameAt? a source fileId p = some d.frame ∧ d.parent = s.parentAt a source fileId p := by
  unfold Site.classAt? Site.class? at h
  unfold Site.frameAt? Site.frame? Site.declares
  cases ht : s.at? p with
  | none => simp [ht] at h
  | some t =>
    simp only [ht, Option.bind_some] at h ⊢
    split at h
    · rename_i shape hr
      obtain ⟨location, hl, rfl⟩ := Option.map_eq_some_iff.mp h
      simp [hr, hl, ClassDecl.frame]
    · cases h

/-- Only what is recorded has a frame. -/
theorem frameAt?_eq_some {s : Site} {p : Address} {f : Frame}
    (h : s.frameAt? a source fileId p = some f) :
    (∃ d, s.functionAt? a source fileId p = some d ∧ d.frame = f) ∨
      ∃ d, s.classAt? a source fileId p = some d ∧ d.frame = f := by
  unfold Site.frameAt? Site.frame? Site.declares at h
  unfold Site.functionAt? Site.function? Site.classAt? Site.class?
  cases ht : s.at? p with
  | none => simp [ht] at h
  | some t =>
    simp only [ht, Option.bind_some] at h ⊢
    cases hr : a.recognize t source with
    | other => simp [hr] at h
    | function shape =>
      simp only [hr, Option.map_map] at h
      obtain ⟨location, hl, rfl⟩ := Option.map_eq_some_iff.mp h
      simp [hl, FunctionDecl.frame]
    | classLike shape =>
      simp only [hr, Option.map_map] at h
      obtain ⟨location, hl, rfl⟩ := Option.map_eq_some_iff.mp h
      simp [hl, ClassDecl.frame]

namespace Extraction

variable (file : SourceFile) (dump : NodeDump) (a : Adapter) (source : ByteArray) (s : Site)

theorem functions_walk : ((start file dump).walk a source s).file.functions.toList =
    file.functions.toList ++ s.reach.filterMap (s.functionAt? a source file.id) :=
  view_walk (fun r => r.file.functions.toList)
    (fun r t parent => r.visit_functions a source t parent) file dump s

theorem classes_walk : ((start file dump).walk a source s).file.classes.toList =
    file.classes.toList ++ s.reach.filterMap (s.classAt? a source file.id) :=
  view_walk (fun r => r.file.classes.toList)
    (fun r t parent => r.visit_classes a source t parent) file dump s

end Extraction

/-- **Every declaration has its nearest owner as its parent.** A walk from a fresh extraction adds
to the file what is recorded for the nodes it reaches, in document order. The parent of each is the
frame recorded for the nearest node above it that has one and in whose scope the way down to the
declaration goes on, and the file's frame where there is no such node. Nodes without a declaration
of their own, malformed ones among them, have no frame. -/
theorem walk_parents (file : SourceFile) (dump : NodeDump) (a : Adapter) (source : ByteArray)
    (s : Site) :
    ((Extraction.start file dump).walk a source s).file.functions.toList =
      file.functions.toList ++ s.reach.filterMap (s.functionAt? a source file.id) ∧
    ((Extraction.start file dump).walk a source s).file.classes.toList =
      file.classes.toList ++ s.reach.filterMap (s.classAt? a source file.id) ∧
    (∀ p d, s.functionAt? a source file.id p = some d →
      s.OwnedBy a source file.id p d.parent) ∧
    (∀ p d, s.classAt? a source file.id p = some d → s.OwnedBy a source file.id p d.parent) ∧
    (∀ p f, s.frameAt? a source file.id p = some f ↔
      (∃ d, s.functionAt? a source file.id p = some d ∧ d.frame = f) ∨
        ∃ d, s.classAt? a source file.id p = some d ∧ d.frame = f) ∧
    ∀ p ∈ s.reach, ∀ k, p.take k ∈ s.reach := by
  refine ⟨Extraction.functions_walk file dump a source s,
    Extraction.classes_walk file dump a source s, fun p d h => ?_, fun p d h => ?_,
    fun p f => ⟨frameAt?_eq_some, ?_⟩, fun p h k => Node.take_mem_reach h k⟩
  · rw [(functionAt?_eq_some h).2]
    exact Site.ownedBy_parentAt p
  · rw [(classAt?_eq_some h).2]
    exact Site.ownedBy_parentAt p
  · rintro (⟨d, hd, rfl⟩ | ⟨d, hd, rfl⟩)
    · exact (functionAt?_eq_some hd).1
    · exact (classAt?_eq_some hd).1

end
end Outline
