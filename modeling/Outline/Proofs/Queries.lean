import Outline.Proofs.Nesting

/-!
# Queries on an extracted file

Look-ups take the first declaration of a kind that has an id, and the functions under a parent are
those whose parent has an id, whatever its kind. That is right only where every id is given once:
to one function, or to one class, or to the file. In a file that was extracted this is so, whatever
the file's own id looks like, and every parent is the file or one of its declarations. So each
function is found under one parent, its own.

* `resolves_iff_mem_frames`: what can be looked up, in any file.
* `Recorded.nodup_ids`: no two of the file, its functions and its classes have the same id.
* `perm_flatMap_filter`: a list shared out by the keys of its members.
* `queries_consistent`: the queries on an extracted file.
-/
namespace Outline

/-! ## Frames of a file -/

namespace SourceFile

/-- The frames of a file, of its functions and of its classes. -/
def frames (f : SourceFile) : List Frame :=
  f.frame :: (f.functions.toList.map (·.frame) ++ f.classes.toList.map (·.frame))

theorem map_id_frames (f : SourceFile) : f.frames.map (·.id) =
    f.id :: (f.functions.toList.map (·.id) ++ f.classes.toList.map (·.id)) := by
  rw [frames, List.map_cons, List.map_append, List.map_map, List.map_map]
  rfl

theorem resolves_iff_mem_frames {f : SourceFile} {p : Frame} :
    f.resolves p = true ↔ p ∈ f.frames := by
  obtain ⟨id, kind⟩ := p
  cases kind <;>
    simp [resolves, frames, frame, FunctionDecl.frame, ClassDecl.frame, function?, class?]

theorem isSome_function? {f : SourceFile} {id : EntityId} :
    (f.function? id).isSome = true ↔ id ∈ f.functions.toList.map (·.id) := by
  simp [function?]

theorem isSome_class? {f : SourceFile} {id : EntityId} :
    (f.class? id).isSome = true ↔ id ∈ f.classes.toList.map (·.id) := by
  simp [class?]

/-- The ids of a file that was filled from nothing are all different. -/
theorem Recorded.nodup_ids {id : EntityId} {path : String} {language : Language} {log : List Decl}
    {f : SourceFile} (h : (empty id path language).Recorded log f) :
    (f.frames.map (·.id)).Nodup := by
  obtain ⟨ns, ms, hfunctions, hclasses, hns, hms, -⟩ := h.numbers
  have hid : f.id = id := by rw [h.file, addAll_eq]; rfl
  rw [map_id_frames, hfunctions, hclasses, hid]
  simp only [empty, List.map_nil, List.nil_append, List.nodup_cons, List.nodup_append,
    List.mem_append, List.mem_map, not_or, not_exists, not_and]
  refine ⟨⟨fun n _ => entityId_ne_fileId id _ n, fun n _ => entityId_ne_fileId id _ n⟩,
    nodup_entityIds hns id _, nodup_entityIds hms id _, ?_⟩
  rintro _ ⟨n, -, rfl⟩ _ ⟨m, -, rfl⟩ heq
  have hkind := (entityId_inj.mp heq).2.1
  cases hkind

end SourceFile

/-! ## Sharing out by keys -/

/-- Where each member of a list has one of several different keys, the members with the first key,
those with the second and so on are all members, each once. -/
theorem perm_flatMap_filter {α : Type} {key : α → EntityId} {ks : List EntityId} (hks : ks.Nodup)
    {xs : List α} (h : ∀ x ∈ xs, key x ∈ ks) :
    (ks.flatMap fun k => xs.filter (key · == k)).Perm xs := by
  induction ks generalizing xs with
  | nil =>
    have hnone : xs = [] := List.eq_nil_iff_forall_not_mem.mpr fun x hx => by simpa using h x hx
    rw [hnone]
    exact .nil
  | cons k ks ih =>
    rw [List.nodup_cons] at hks
    have hothers : ∀ x ∈ xs.filter (!key · == k), key x ∈ ks := by
      intro x hx
      obtain ⟨hmem, hne⟩ := List.mem_filter.mp hx
      have := h x hmem
      simp only [List.mem_cons] at this
      exact this.resolve_left (by simpa using hne)
    have hrest : (ks.flatMap fun j => xs.filter (key · == j)) =
        ks.flatMap fun j => (xs.filter (!key · == k)).filter (key · == j) := by
      refine List.flatMap_congr fun j hj => ?_
      rw [List.filter_filter]
      refine List.filter_congr fun x _ => ?_
      by_cases hx : key x = j
      · have hne : key x ≠ k := fun heq => hks.1 (heq ▸ hx ▸ hj)
        simp [hx, hx ▸ hne]
      · simp [hx]
    rw [List.flatMap_cons, hrest]
    exact ((ih hks.2 hothers).append_left _).trans (List.filter_append_perm (key · == k) xs)

/-! ## Queries -/

theorem SourceFile.toList_functionsIn (f : SourceFile) (id : EntityId) :
    (f.functionsIn id).toList = f.functions.toList.filter (·.parent.id == id) := by
  rw [functionsIn, Array.toList_filter]

/-- The parents of what a walk records are the file and what it records. -/
theorem Extraction.parent_mem_frames {id : EntityId} {path : String} {language : Language}
    {dump : NodeDump} {a : Adapter} {source : ByteArray} {s : Site} {d : FunctionDecl}
    (hd : d ∈ ((start (.empty id path language) dump).walk a source s).file.functions) :
    d.parent ∈ ((start (.empty id path language) dump).walk a source s).file.frames := by
  have hsound : ((start (.empty id path language) dump).walk a source s).Sound
      (.empty id path language) := (Walk.sound_walk (sound_start _ dump) s).1
  refine SourceFile.resolves_iff_mem_frames.mp (hsound.consistent.parent d.declaration ?_)
  refine List.mem_append_left _ (List.mem_map_of_mem ?_)
  simpa [SourceFile.empty] using hd

/-- **Queries on an extracted file are consistent.** A file is extracted, with any adapter, from any
tree and under any id. Every function and every class is what is found under its id, and no id finds
both. The file, its functions and its classes have different ids; the functions that are found under
these ids, one after the other, are all functions, each once. A function is found under the id of
its parent and under no other, and those found under one id are in document order; that kinds are
not compared makes no difference. What can be looked up is the file and what is recorded in it. -/
theorem queries_consistent (e : Extractor) (i : SourceInput) (a : Adapter) (dump : NodeDump)
    (x : Extracted) (hx : (e.extractWith i a dump).1 = .ok x) :
    (∀ f ∈ x.file.functions, x.file.function? f.id = some f) ∧
    (∀ c ∈ x.file.classes, x.file.class? c.id = some c) ∧
    (∀ id, ¬ ((x.file.function? id).isSome = true ∧ (x.file.class? id).isSome = true)) ∧
    (x.file.frames.map (·.id)).Nodup ∧
    ((x.file.frames.map (·.id)).flatMap fun id => (x.file.functionsIn id).toList).Perm
      x.file.functions.toList ∧
    (∀ f ∈ x.file.functions, f.parent ∈ x.file.frames ∧
      ∀ id, f ∈ x.file.functionsIn id ↔ id = f.parent.id) ∧
    (∀ id, (x.file.functionsIn id).toList.Sublist x.file.functions.toList) ∧
    (∀ p ∈ x.file.frames, x.file.functionsIn p.id = x.file.functions.filter (·.parent == p)) ∧
    ∀ p, x.file.resolves p = true ↔ p ∈ x.file.frames := by
  cases hfault : (e.parse a.language i).fault? with
  | some fault =>
    rw [Extractor.extractWith_of_fault hfault] at hx
    cases hx
  | none =>
    rw [Extractor.extractWith_of_clean hfault] at hx
    cases hx
    have hlog := (walk_inventory (.empty i.fileId i.path a.language) dump a i.content.toUTF8
      (Site.root (e.parse a.language i))).1.recorded
    have hparent : ∀ f ∈ (e.walked i a dump).file.functions,
        f.parent ∈ (e.walked i a dump).file.frames := fun f hf => Extraction.parent_mem_frames hf
    change SourceFile.Recorded _ _ (e.walked i a dump).file at hlog
    have hids := hlog.nodup_ids
    simp only
    generalize (e.walked i a dump).file = file at *
    refine ⟨fun f hf => hlog.function?_eq hf, fun c hc => hlog.class?_eq hc, fun id => ?_, hids,
      ?_, fun f hf => ⟨hparent f hf, fun id => ?_⟩, fun id => ?_, fun p hp => ?_,
      fun p => SourceFile.resolves_iff_mem_frames⟩
    · rintro ⟨hfunction, hclass⟩
      rw [SourceFile.map_id_frames, List.nodup_cons, List.nodup_append] at hids
      exact hids.2.2.2 id (SourceFile.isSome_function?.mp hfunction) id
        (SourceFile.isSome_class?.mp hclass) rfl
    · simp only [SourceFile.toList_functionsIn]
      refine perm_flatMap_filter hids fun f hf => ?_
      exact List.mem_map_of_mem (hparent f (Array.mem_toList_iff.mp hf))
    · rw [SourceFile.functionsIn, Array.mem_filter, beq_iff_eq, eq_comm]
      exact and_iff_right hf
    · rw [SourceFile.toList_functionsIn]
      exact List.filter_sublist
    · apply Array.toList_inj.mp
      rw [SourceFile.toList_functionsIn, Array.toList_filter]
      refine List.filter_congr fun f hf => ?_
      -- the id of a frame tells its kind
      have hmem := hparent f (Array.mem_toList_iff.mp hf)
      have hiff : f.parent.id = p.id ↔ f.parent = p :=
        ⟨fun heq => List.inj_on_of_nodup_map hids hmem hp heq, congrArg Frame.id⟩
      rw [Bool.eq_iff_iff, beq_iff_eq, beq_iff_eq, hiff]

/-- The methods of the class, with the lambda among the parameters of the first, are found under the
class, and the function in the body of the first is found under that. -/
theorem queries_consistent_decorated :
    ∃ x, (({ parse := fun _ _ => Node.decorated } : Extractor).extractWith .decorated
        Python.adapter .disabled).1 = .ok x ∧
      x.file.frames.map (·.id) =
        ["f", "f/function:2", "f/function:3", "f/function:4", "f/function:5", "f/class:1"] ∧
      x.file.frames.map (fun p => (x.file.functionsIn p.id).toList.map (·.name)) =
        [[], ["g"], [], [], [], ["__init__", "", "__init__"]] ∧
      ((x.file.frames.map (·.id)).flatMap fun id => (x.file.functionsIn id).toList).Perm
        x.file.functions.toList := by
  obtain ⟨x, hx, hfile⟩ := Extractor.extractWith_decorated
  obtain ⟨-, -, -, -, hshared, -⟩ := queries_consistent _ _ _ _ x hx
  exact ⟨x, hx, by rw [hfile]; decide +kernel, by rw [hfile]; decide +kernel, hshared⟩

end Outline
