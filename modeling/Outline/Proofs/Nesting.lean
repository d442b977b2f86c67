import Mathlib.Data.List.Perm.Subperm
import Outline.Proofs.RowOrder

/-!
# How deep a declaration is nested

In a table a name is indented by the number of declarations around it. That number is found in the
finished file, by going from parent to parent: a frame is looked up and counted, and the parent of
what it names comes next, until that is the file. Nothing in a file as such makes this come to an
end, and the scopes that were open when the declaration was recorded are gone by then.

In a file that was extracted these scopes are what is found. While a tree is walked, the frames on
the scope stack are linked: each names a declaration whose parent is the frame beneath it. The frame
of an open node may come and go with its children, but the scopes around the node stay as they were
when it was recorded, so its parent is beneath its frame whenever the frame is on the stack.

* `Report.Ascent`: the loop that counts, round by round.
* `Links.nodup`, `Links.length_le`: linked frames differ, so the file has as many declarations.
* `Links.ascends`, `Links.enclosing_eq`: what the loop finds where frames are linked.
* `owned_next?`, `owned_reaches`: open nodes are below their parents at every step of a walk.
* `nesting_eq_open_scopes`: the indentation of an extracted file.
-/
namespace Outline

/-! ## The loop -/

namespace Report

/-- The loop that counts the declarations around one. It faces a frame with the count so far, or is
lost, because the last frame that it counted names nothing. -/
inductive Ascent where
  | facing (frame : Frame) (count : Nat)
  | lost (count : Nat)
  deriving DecidableEq, Repr

namespace Ascent

/-- One round: a frame other than a file's is counted, and the parent of what it names comes next. -/
def next? (file : SourceFile) : Ascent → Option Ascent
  | .facing frame count =>
    if frame.kind = .file then none
    else
      match file.parentOf? frame with
      | some parent => some (.facing parent (count + 1))
      | none => some (.lost (count + 1))
  | .lost _ => none

abbrev Reaches (file : SourceFile) : Ascent → Ascent → Prop :=
  Relation.ReflTransGen fun s t => next? file s = some t

end Ascent
end Report

/-! ## Linked frames -/

namespace SourceFile

variable {file later : SourceFile}

theorem function_mem_decls {d : FunctionDecl} : .function d ∈ file.decls ↔ d ∈ file.functions := by
  simp [decls]

theorem class_mem_decls {d : ClassDecl} : .classLike d ∈ file.decls ↔ d ∈ file.classes := by
  simp [decls]

theorem length_decls (file : SourceFile) : file.decls.length = file.entityCount := by
  simp [decls, entityCount, Nat.add_comm]

/-- The declaration that a frame names: the first of the frame's kind that has its id. -/
def named? (file : SourceFile) (frame : Frame) : Option Decl :=
  match frame.kind with
  | .file => none
  | .function => (file.function? frame.id).map .function
  | .classLike => (file.class? frame.id).map .classLike

theorem parentOf?_eq (file : SourceFile) (f : Frame) :
    file.parentOf? f = (file.named? f).map (·.parent) := by
  obtain ⟨id, kind⟩ := f
  cases kind with
  | file => rfl
  | function => cases h : file.function? id <;> simp [parentOf?, named?, h, Decl.parent]
  | classLike => cases h : file.class? id <;> simp [parentOf?, named?, h, Decl.parent]

theorem parentOf?_eq_some {f p : Frame} (h : file.parentOf? f = some p) :
    ∃ d, file.named? f = some d ∧ d.parent = p := by
  rw [parentOf?_eq] at h
  exact Option.map_eq_some_iff.mp h

theorem kind_ne_of_parentOf? {f p : Frame} (h : file.parentOf? f = some p) : f.kind ≠ .file := by
  intro hk
  simp [parentOf?, hk] at h

theorem named?_eq_some {f : Frame} {d : Decl} (h : file.named? f = some d) :
    d ∈ file.decls ∧ d.frame = f := by
  obtain ⟨id, kind⟩ := f
  cases kind with
  | file => cases h
  | function =>
    obtain ⟨c, hc, rfl⟩ := Option.map_eq_some_iff.mp h
    have hid : c.id = id := by simpa using Array.find?_some hc
    exact ⟨function_mem_decls.mpr (Array.mem_of_find?_eq_some hc), by rw [← hid]; rfl⟩
  | classLike =>
    obtain ⟨c, hc, rfl⟩ := Option.map_eq_some_iff.mp h
    have hid : c.id = id := by simpa using Array.find?_some hc
    exact ⟨class_mem_decls.mpr (Array.mem_of_find?_eq_some hc), by rw [← hid]; rfl⟩

theorem resolves_of_named? {f : Frame} {d : Decl} (h : file.named? f = some d) :
    file.resolves f = true := by
  obtain ⟨id, kind⟩ := f
  cases kind with
  | file => cases h
  | function =>
    obtain ⟨c, hc, -⟩ := Option.map_eq_some_iff.mp h
    exact Option.isSome_of_eq_some hc
  | classLike =>
    obtain ⟨c, hc, -⟩ := Option.map_eq_some_iff.mp h
    exact Option.isSome_of_eq_some hc

/-- What a frame names stays what it names when more is recorded. -/
theorem named?_mono (h : file.Extends later) {f : Frame} {d : Decl} (hd : file.named? f = some d) :
    later.named? f = some d := by
  obtain ⟨id, kind⟩ := f
  obtain ⟨moreFunctions, hfunctions⟩ := h.functions
  obtain ⟨moreClasses, hclasses⟩ := h.classes
  cases kind with
  | file => cases hd
  | function =>
    obtain ⟨c, hc, rfl⟩ := Option.map_eq_some_iff.mp hd
    simp only [function?, ← Array.find?_toList] at hc
    simp [named?, function?, ← Array.find?_toList, ← hfunctions, hc]
  | classLike =>
    obtain ⟨c, hc, rfl⟩ := Option.map_eq_some_iff.mp hd
    simp only [class?, ← Array.find?_toList] at hc
    simp [named?, class?, ← Array.find?_toList, ← hclasses, hc]

theorem parentOf?_mono (h : file.Extends later) {f p : Frame} (hp : file.parentOf? f = some p) :
    later.parentOf? f = some p := by
  obtain ⟨d, hd, rfl⟩ := parentOf?_eq_some hp
  rw [parentOf?_eq, named?_mono h hd]
  rfl

/-- In a file that was filled from nothing, every declaration is what its frame names. -/
theorem Recorded.named?_frame {id : EntityId} {path : String} {language : Language}
    {log : List Decl} (h : (empty id path language).Recorded log file) {d : Decl}
    (hd : d ∈ file.decls) : file.named? d.frame = some d := by
  cases d with
  | function d =>
    have hfound := h.function?_eq (function_mem_decls.mp hd)
    simp [named?, Decl.frame, FunctionDecl.frame, hfound]
  | classLike d =>
    have hfound := h.class?_eq (class_mem_decls.mp hd)
    simp [named?, Decl.frame, ClassDecl.frame, hfound]

/-- Frames that lead to `root`, innermost first: each names a declaration whose parent is the frame
that follows, and the parent of the last is `root`. -/
def Links (file : SourceFile) (root : Frame) : List Frame → Prop
  | [] => True
  | f :: fs => file.parentOf? f = some (fs.head?.getD root) ∧ file.Links root fs

variable {root : Frame} {fs gs : List Frame}

namespace Links

theorem mono (h : file.Extends later) (hfs : file.Links root fs) : later.Links root fs := by
  induction fs with
  | nil => trivial
  | cons f fs ih => exact ⟨parentOf?_mono h hfs.1, ih hfs.2⟩

/-- There is one way from a frame to a root that is a file's. -/
theorem unique (hroot : root.kind = .file) (hfs : file.Links root fs) (hgs : file.Links root gs)
    (heq : fs.head?.getD root = gs.head?.getD root) : fs = gs := by
  induction fs generalizing gs with
  | nil =>
    cases gs with
    | nil => rfl
    | cons g gs =>
      obtain rfl : root = g := heq
      exact absurd hroot (kind_ne_of_parentOf? hgs.1)
  | cons f fs ih =>
    cases gs with
    | nil =>
      obtain rfl : f = root := heq
      exact absurd hroot (kind_ne_of_parentOf? hfs.1)
    | cons g gs =>
      obtain rfl : f = g := heq
      rw [ih hfs.2 hgs.2 (Option.some.inj (hfs.1.symm.trans hgs.1))]

theorem of_append {before : List Frame} (h : file.Links root (before ++ fs)) :
    file.Links root fs := by
  induction before with
  | nil => exact h
  | cons f before ih => exact ih h.2

/-- Going round in a circle never comes to the file. -/
theorem nodup (hroot : root.kind = .file) (h : file.Links root fs) : fs.Nodup := by
  induction fs with
  | nil => exact List.nodup_nil
  | cons f fs ih =>
    refine List.nodup_cons.mpr ⟨fun hmem => ?_, ih h.2⟩
    obtain ⟨before, after, rfl⟩ := List.append_of_mem hmem
    have hsame := unique hroot h h.2.of_append rfl
    have := congrArg List.length hsame
    simp only [List.length_cons, List.length_append] at this
    omega

/-- Every linked frame names a declaration, so there are no more of them than declarations. -/
theorem length_le (hroot : root.kind = .file) (h : file.Links root fs) :
    fs.length ≤ file.entityCount := by
  have hsub : fs ⊆ file.decls.map (·.frame) := by
    induction fs with
    | nil => exact List.nil_subset _
    | cons f fs ih =>
      obtain ⟨d, hd, -⟩ := parentOf?_eq_some h.1
      obtain ⟨hmem, rfl⟩ := named?_eq_some hd
      exact List.cons_subset.mpr ⟨List.mem_map_of_mem hmem, ih h.2⟩
  have hlength := ((h.nodup hroot).subperm hsub).length_le
  rwa [List.length_map, length_decls] at hlength

/-! ## The loop over linked frames -/

theorem next?_of_parentOf? {f p : Frame} (h : file.parentOf? f = some p) (count : Nat) :
    Report.Ascent.next? file (.facing f count) = some (.facing p (count + 1)) := by
  simp [Report.Ascent.next?, kind_ne_of_parentOf? h, h]

/-- The loop counts one frame after the other and stops at the root. -/
theorem ascends (h : file.Links root fs) (count : Nat) :
    Report.Ascent.Reaches file (.facing (fs.head?.getD root) count)
      (.facing root (count + fs.length)) := by
  induction fs generalizing count with
  | nil => exact .refl
  | cons f fs ih =>
    have hlength : count + (f :: fs).length = count + 1 + fs.length := by
      rw [List.length_cons]
      omega
    rw [hlength]
    exact Relation.ReflTransGen.head (next?_of_parentOf? h.1 count) (ih h.2 (count + 1))

/-- Where the loop faces the first of linked frames, it goes on to the others or is at the root. -/
theorem next?_facing (hroot : root.kind = .file) (h : file.Links root fs) {count : Nat}
    {t : Report.Ascent} (ht : Report.Ascent.next? file (.facing (fs.head?.getD root) count) = some t) :
    ∃ f gs, fs = f :: gs ∧ t = .facing (gs.head?.getD root) (count + 1) := by
  cases fs with
  | nil => simp [Report.Ascent.next?, hroot] at ht
  | cons f fs =>
    have hnext := next?_of_parentOf? h.1 count
    exact ⟨f, fs, rfl, Option.some.inj (ht.symm.trans hnext)⟩

/-- The loop is never lost: whatever it faces names the file or a declaration in it. -/
theorem facing_of_reaches (h : file.Links file.frame fs) {count : Nat} {s : Report.Ascent}
    (hs : Report.Ascent.Reaches file (.facing (fs.head?.getD file.frame) count) s) :
    ∃ f n, s = .facing f n ∧ file.resolves f = true := by
  -- what is still ahead of the loop is linked
  have hahead : ∃ gs n, s = .facing (gs.head?.getD file.frame) n ∧ file.Links file.frame gs := by
    induction hs with
    | refl => exact ⟨fs, count, rfl, h⟩
    | tail _ hstep ih =>
      obtain ⟨gs, n, rfl, hgs⟩ := ih
      obtain ⟨g, gs, rfl, rfl⟩ := next?_facing rfl hgs hstep
      exact ⟨gs, n + 1, rfl, hgs.2⟩
  obtain ⟨gs, n, rfl, hgs⟩ := hahead
  cases gs with
  | nil => exact ⟨file.frame, n, rfl, file.resolves_frame⟩
  | cons g gs =>
    obtain ⟨d, hd, -⟩ := parentOf?_eq_some hgs.1
    exact ⟨g, n, rfl, resolves_of_named? hd⟩

theorem enclosing_eq (hroot : root.kind = .file) (h : file.Links root fs) {limit : Nat}
    (hlimit : fs.length ≤ limit) : Report.enclosing file limit (fs.head?.getD root) = fs := by
  induction fs generalizing limit with
  | nil => cases limit <;> simp [Report.enclosing, hroot]
  | cons f fs ih =>
    obtain ⟨limit, rfl⟩ : ∃ m, limit = m + 1 := ⟨limit - 1, by simp at hlimit; omega⟩
    have hrest := ih h.2 (Nat.le_of_succ_le_succ hlimit)
    simp [Report.enclosing, kind_ne_of_parentOf? h.1, h.1, hrest]

end Links

/-! ## Recording one declaration -/

theorem mem_decls_add {d e : Decl} : e ∈ (file.add d).decls ↔ e ∈ file.decls ∨ e = d := by
  cases d <;> cases e <;>
    simp [add, addFunction, addClass, function_mem_decls, class_mem_decls]

theorem add_inj {d e : Decl} (h : file.add d = file.add e) : d = e := by
  have hfunctions := congrArg (·.functions.toList) h
  have hclasses := congrArg (·.classes.toList) h
  cases d with
  | function d =>
    cases e with
    | function e => simpa [add, addFunction] using hfunctions
    | classLike e => simp [add, addFunction, addClass] at hfunctions
  | classLike d =>
    cases e with
    | function e => simp [add, addFunction, addClass] at hfunctions
    | classLike e => simpa [add, addClass] using hclasses

theorem add_ne_self (d : Decl) : file.add d ≠ file := by
  intro h
  have hcount := congrArg entityCount h
  cases d <;> simp [add, addFunction, addClass, entityCount] at hcount

end SourceFile

/-- A visit records nothing, or one declaration under the innermost scope. -/
theorem Extraction.visit_add (x : Extraction) (a : Adapter) (source : ByteArray) (s : Site) :
    ((x.visit a source s).1 = none ∧ (x.visit a source s).2.file = x.file) ∨
    ∃ d : Decl, (x.visit a source s).1 = some d.frame ∧
      (x.visit a source s).2.file = x.file.add d ∧ d.parent = x.scopes.peek := by
  rcases x.visit_cases a source s with ⟨hnone, hkeeps⟩ | ⟨d, hframe, hrecords⟩
  · exact Or.inl ⟨hnone, hkeeps.file⟩
  · have hparent := hrecords.parent
    rcases hrecords.file with ⟨c, hfile, rfl⟩ | ⟨c, hfile, rfl⟩
    · exact Or.inr ⟨.function c, hframe, hfile, hparent⟩
    · exact Or.inr ⟨.classLike c, hframe, hfile, hparent⟩

/-! ## The scopes open during a walk -/

namespace Walk

/-- The site that the next step visits, and the extraction as it is then: its scopes are aligned for
the site, and nothing is recorded for it yet. -/
def visiting? (a : Adapter) : Walk → Option (Site × Extraction)
  | ⟨s :: _, os, x⟩ =>
    if s.node.named then some (s, (alignInnermost x os (inOwnScope a s.node)).2) else none
  | ⟨[], _, _⟩ => none

/-- On a walk from `w₀`, a declaration is recorded while the scopes `k` are open. -/
def RecordsUnder (a : Adapter) (source : ByteArray) (w₀ : Walk) (d : Decl) (k : ScopeStack) :
    Prop :=
  ∃ w t y, Reaches a source w₀ w ∧ w.visiting? a = some (t, y) ∧ y.scopes = k ∧
    (y.visit a source t).2.file = y.file.add d

/-- The frame of each open node names a declaration whose parent is the innermost of the scopes
around the node. -/
def Owned (file : SourceFile) (k : ScopeStack) : List OpenNode → Prop
  | [] => True
  | o :: os =>
    (∀ f, o.frame = some f → file.parentOf? f = some (k.under os).peek) ∧ Owned file k os

variable {a : Adapter} {source : ByteArray} {file later : SourceFile} {k : ScopeStack}
  {os ps : List OpenNode} {w v : Walk}

theorem Owned.mono (h : file.Extends later) (hos : Owned file k os) : Owned later k os := by
  induction os with
  | nil => trivial
  | cons o os ih => exact ⟨fun f hf => SourceFile.parentOf?_mono h (hos.1 f hf), ih hos.2⟩

/-- Whether the innermost open node's own frame is on the stack makes no difference. -/
theorem Owned.of_realigned (h : Realigned os ps) (hos : Owned file k os) : Owned file k ps := by
  cases h with
  | nil => trivial
  | cons o pushed os => exact ⟨hos.1, hos.2⟩

theorem root_under (k : ScopeStack) (os : List OpenNode) : (k.under os).root = k.root := by
  induction os with
  | nil => rfl
  | cons o os ih =>
    simp only [ScopeStack.under, List.foldr_cons, OpenNode.onto] at ih ⊢
    split <;> exact ih

/-- The frames of open nodes that are on the stack are linked with those below them. -/
theorem Owned.links (hos : Owned file k os) (hk : file.Links k.root k.inner) :
    file.Links k.root (k.under os).inner := by
  induction os with
  | nil => exact hk
  | cons o os ih =>
    have hbelow := ih hos.2
    have hparent := hos.1
    have hroot := root_under k os
    simp only [ScopeStack.under, List.foldr_cons, OpenNode.onto] at hbelow hparent hroot ⊢
    split
    · rename_i f hf _
      have hf' := hparent f hf
      simp only [ScopeStack.peek, hroot] at hf'
      exact ⟨hf', hbelow⟩
    · exact hbelow

theorem descend_extraction (s : Site) (rest : List Site) (os : List OpenNode) (x : Extraction) :
    (descend a source s rest os x).extraction =
      ((alignInnermost x os (inOwnScope a s.node)).2.visit a source s).2 := by
  unfold descend
  split <;> rfl

variable {id : EntityId} {path : String} {language : Language} {dump : NodeDump} {s : Site}
  {log : List Decl}

theorem owned_descend {rest : List Site} {x : Extraction} (hw : InStep k ⟨s :: rest, os, x⟩)
    (hos : Owned x.file k os)
    (hlog : (SourceFile.empty id path language).Recorded log
      (descend a source s rest os x).extraction.file) :
    Owned (descend a source s rest os x).extraction.file k
      (descend a source s rest os x).enclosing := by
  have hscopes := alignInnermost_scopes hw.scopes (inOwnScope a s.node)
  have hfile := alignInnermost_file x os (inOwnScope a s.node)
  have haligned := hos.of_realigned (realigned_alignInnermost x os (inOwnScope a s.node))
  rw [descend_extraction] at hlog ⊢
  unfold descend
  generalize alignInnermost x os (inOwnScope a s.node) = aligned at *
  have hext : x.file.Extends (aligned.2.visit a source s).2.file :=
    hfile ▸ (aligned.2.visit_cases a source s).extends
  split
  · exact haligned.mono hext
  · refine ⟨fun f hf => ?_, haligned.mono hext⟩
    rcases aligned.2.visit_add a source s with ⟨hnone, -⟩ | ⟨d, hframe, hadd, hparent⟩
    · exact absurd (hf.symm.trans hnone) (Option.some_ne_none f)
    · obtain rfl : d.frame = f := Option.some.inj (hframe.symm.trans hf)
      have hmem : d ∈ (aligned.2.visit a source s).2.file.decls := by
        rw [hadd]
        exact SourceFile.mem_decls_add.mpr (Or.inr rfl)
      rw [SourceFile.parentOf?_eq, hlog.named?_frame hmem, ← hscopes, ← hparent]
      rfl

theorem owned_next? (hw : InStep k w) (hos : Owned w.extraction.file k w.enclosing)
    (h : next? a source w = some v)
    (hlog : (SourceFile.empty id path language).Recorded log v.extraction.file) :
    Owned v.extraction.file k v.enclosing := by
  unfold next? at h
  split at h
  · split at h <;> cases h
    · exact owned_descend hw hos hlog
    · exact hos
  · rename_i o os x
    cases h
    have hfile : (close x o).file = x.file := congrArg Findings.file (close_findings x o)
    rw [hfile]
    exact hos.2
  · cases h

/-- A walk over a tree into a file in which nothing is recorded, before its first step. -/
abbrev fresh (id : EntityId) (path : String) (language : Language) (dump : NodeDump) (s : Site) :
    Walk :=
  start (Extraction.start (SourceFile.empty id path language) dump) s

theorem recorded_reaches (h : Reaches a source (fresh id path language dump s) w) :
    ∃ log, (SourceFile.empty id path language).Recorded log w.extraction.file := by
  obtain ⟨log, hlog⟩ := logs_reaches h
  exact ⟨log, hlog.recorded⟩

theorem owned_reaches (h : Reaches a source (fresh id path language dump s) w) :
    Owned w.extraction.file (fresh id path language dump s).extraction.scopes w.enclosing := by
  induction h with
  | refl => trivial
  | tail hr hs ih =>
    obtain ⟨log, hlog⟩ := recorded_reaches (hr.tail hs)
    exact owned_next? (inStep_reaches (inStep_start ..) hr) ih hs hlog

/-- When a site is visited, the frames on the stack are linked. -/
theorem links_visiting (h : Reaches a source (fresh id path language dump s) w) {t : Site}
    {y : Extraction} (hy : w.visiting? a = some (t, y)) :
    y.file = w.extraction.file ∧ y.scopes.root = ⟨id, .file⟩ ∧
      y.file.Links ⟨id, .file⟩ y.scopes.inner := by
  have hstep := inStep_reaches (inStep_start ..) h
  have howned := owned_reaches h
  obtain ⟨pending, os, x⟩ := w
  cases pending with
  | nil => cases hy
  | cons c rest =>
    simp only [visiting?] at hy
    split at hy
    · cases hy
      have hfile := alignInnermost_file x os (inOwnScope a t.node)
      have haligned := howned.of_realigned (realigned_alignInnermost x os (inOwnScope a t.node))
      rw [alignInnermost_scopes hstep.scopes, root_under, hfile]
      exact ⟨rfl, rfl, haligned.links trivial⟩
    · cases hy

/-- A step records nothing, or what the visit records that it makes. -/
theorem file_next? (h : next? a source w = some v) :
    v.extraction.file = w.extraction.file ∨
    ∃ t y d, w.visiting? a = some (t, y) ∧ (y.visit a source t).2.file = y.file.add d ∧
      v.extraction.file = w.extraction.file.add d := by
  unfold next? at h
  split at h
  · rename_i c rest os x
    split at h <;> cases h <;> rename_i hn
    · have hfile := alignInnermost_file x os (inOwnScope a c.node)
      rw [descend_extraction]
      rcases (alignInnermost x os (inOwnScope a c.node)).2.visit_add a source c with
        ⟨-, hsame⟩ | ⟨d, -, hadd, -⟩
      · exact Or.inl (hsame.trans hfile)
      · exact Or.inr ⟨c, _, d, by simp [visiting?, hn], hadd, by rw [hadd, hfile]⟩
    · exact Or.inl rfl
  · rename_i o os x
    cases h
    exact Or.inl (congrArg Findings.file (close_findings x o))
  · cases h

/-- What is in the file after some steps and was not before has been recorded on the way. -/
theorem exists_recordsUnder {w₀ : Walk} (h : Reaches a source w₀ w) {d : Decl}
    (hd : d ∈ w.extraction.file.decls) :
    d ∈ w₀.extraction.file.decls ∨ ∃ k, RecordsUnder a source w₀ d k := by
  induction h with
  | refl => exact Or.inl hd
  | tail hr hs ih =>
    rcases file_next? hs with hsame | ⟨t, y, e, hy, hvisit, hadd⟩
    · exact ih (hsame ▸ hd)
    · rw [hadd, SourceFile.mem_decls_add] at hd
      rcases hd with hd | rfl
      · exact ih hd
      · exact Or.inr ⟨_, _, t, y, hr, hy, rfl, hvisit⟩

/-- What is recorded at a state of a walk is in the file at its end. -/
theorem extends_run (h : Reaches a source (fresh id path language dump s) w) :
    w.extraction.file.Extends (run a source (fresh id path language dump s)).file := by
  have hw := (sound_reaches (sound_start (Extraction.sound_start ..) s) h).1
  obtain ⟨v, hv, -, hrun⟩ := exists_halted a source w
  rw [run_of_reaches h, hrun]
  exact (sound_reaches hw hv).2

/-- The scopes under which a declaration was recorded lead from its parent to the file, also in the
file at the end of the walk. -/
theorem RecordsUnder.links {d : Decl}
    (h : RecordsUnder a source (fresh id path language dump s) d k) :
    k.root = ⟨id, .file⟩ ∧ d.parent = k.inner.head?.getD ⟨id, .file⟩ ∧
      (run a source (fresh id path language dump s)).file.Links ⟨id, .file⟩ k.inner := by
  obtain ⟨w, t, y, hw, hy, rfl, hvisit⟩ := h
  obtain ⟨hfile, hroot, hlinks⟩ := links_visiting hw hy
  refine ⟨hroot, ?_, hlinks.mono (hfile ▸ extends_run hw)⟩
  rcases y.visit_add a source t with ⟨-, hsame⟩ | ⟨e, -, hadd, hparent⟩
  · exact absurd (hvisit.symm.trans hsame) (SourceFile.add_ne_self d)
  · obtain rfl : d = e := SourceFile.add_inj (hvisit.symm.trans hadd)
    rw [hparent, ScopeStack.peek, hroot]

end Walk

/-! ## The table of an extracted file -/

/-- **The indentation of a declaration shows the scopes that were open when it was recorded.** A
file is extracted, with any adapter. Each declaration in it was recorded at some moment of the walk.
The loop that starts with its parent comes to an end, at the file, and what it faces on the way is
always the file or a declaration in it. It counts the frames that were on the scope stack above the
file's at that moment, and these are the frames that it meets. -/
theorem nesting_eq_open_scopes (e : Extractor) (i : SourceInput) (a : Adapter) (dump : NodeDump)
    (x : Extracted) (hx : (e.extractWith i a dump).1 = .ok x) (d : Decl) (hd : d ∈ x.file.decls) :
    (∃ k, (e.walkStart i a dump).RecordsUnder a i.content.toUTF8 d k) ∧
    ∀ k, (e.walkStart i a dump).RecordsUnder a i.content.toUTF8 d k →
      k.root = x.file.frame ∧
      Report.Ascent.Reaches x.file (.facing d.parent 0) (.facing x.file.frame k.inner.length) ∧
      Report.Ascent.next? x.file (.facing x.file.frame k.inner.length) = none ∧
      (∀ s, Report.Ascent.Reaches x.file (.facing d.parent 0) s →
        ∃ f n, s = .facing f n ∧ x.file.resolves f = true) ∧
      Report.enclosing x.file (x.file.entityCount + 1) d.parent = k.inner ∧
      Report.nesting x.file d.parent = k.inner.length := by
  cases hfault : (e.parse a.language i).fault? with
  | some fault =>
    rw [Extractor.extractWith_of_fault hfault] at hx
    cases hx
  | none =>
    rw [Extractor.extractWith_of_clean hfault] at hx
    cases hx
    have hframe : (e.walked i a dump).file.frame = ⟨i.fileId, .file⟩ := by
      rw [SourceFile.frame, (Extractor.walked_file dump).1]
    obtain ⟨w, hw, -, hrun⟩ := Walk.exists_halted a i.content.toUTF8 (e.walkStart i a dump)
    refine ⟨?_, fun k hk => ?_⟩
    · have hmem : d ∈ w.extraction.file.decls := hrun ▸ hd
      refine (Walk.exists_recordsUnder hw hmem).resolve_left fun hstart => ?_
      simp [Extractor.walkStart, Walk.start, Extraction.start, SourceFile.empty,
        SourceFile.decls] at hstart
    · obtain ⟨hroot, hparent, hlinks⟩ := hk.links
      change (e.walked i a dump).file.Links _ _ at hlinks
      rw [← hframe] at hroot hparent hlinks
      have hascends := hlinks.ascends 0
      have henclosing := hlinks.enclosing_eq rfl (Nat.le_succ_of_le (hlinks.length_le rfl))
      rw [Nat.zero_add] at hascends
      rw [hparent]
      exact ⟨hroot, hascends, rfl, fun s hs => hlinks.facing_of_reaches hs, henclosing,
        congrArg List.length henclosing⟩

/-- A class with a decorated method. Beside its body, which holds a function, the method has a lambda
among its parameters, and these lie outside its scope. Another method is under a condition. -/
def SourceInput.decorated : SourceInput where
  id := some "f"
  path := "a.py"
  content := "class A:\n @d\n def __init__(x=lambda: 0):\n  def g(): pass\n" ++
    " if 1:\n  def __init__(): pass"

/-- The tree of that source. -/
def Node.decorated : Node :=
  let point (byte : Nat) : Point :=
    if byte < 9 then ⟨0, byte⟩
    else if byte < 13 then ⟨1, byte - 9⟩
    else if byte < 41 then ⟨2, byte - 13⟩
    else if byte < 57 then ⟨3, byte - 41⟩
    else if byte < 64 then ⟨4, byte - 57⟩
    else ⟨5, byte - 64⟩
  let node (kind : String) (field : Option String) (named : Bool) (first last : Nat)
      (children : List Node) : Node :=
    ⟨kind, field, named, false, false, false, first, last, point first, point last, children⟩
  let token (kind : String) (first last : Nat) : Node := node kind none false first last []
  let name (first last : Nat) : Node := node "identifier" (some "name") true first last []
  let parameters (first last : Nat) (inner : List Node) : Node :=
    node "parameters" (some "parameters") true first last
      (token "(" first (first + 1) :: inner ++ [token ")" (last - 1) last])
  let body (first last : Nat) (inner : List Node) : Node :=
    node "block" (some "body") true first last inner
  let pass (first : Nat) : Node :=
    node "pass_statement" none true first (first + 4) [token "pass" first (first + 4)]
  node "module" none true 0 86 [
    node "class_definition" none true 0 86 [token "class" 0 5, name 6 7, token ":" 7 8,
      body 10 86 [
        node "decorated_definition" none true 10 56 [
          node "decorator" none true 10 12 [token "@" 10 11, node "identifier" none true 11 12 []],
          node "function_definition" (some "definition") true 14 56 [token "def" 14 17, name 18 26,
            parameters 26 39 [
              node "default_parameter" none true 27 38 [name 27 28, token "=" 28 29,
                node "lambda" (some "value") true 29 38 [token "lambda" 29 35, token ":" 35 36,
                  node "integer" (some "body") true 37 38 []]]],
            token ":" 39 40,
            body 43 56 [
              node "function_definition" none true 43 56 [token "def" 43 46, name 47 48,
                parameters 48 50 [], token ":" 50 51, body 52 56 [pass 52]]]]],
        node "if_statement" none true 58 86 [token "if" 58 60,
          node "integer" (some "condition") true 61 62 [], token ":" 62 63,
          node "block" (some "consequence") true 66 86 [
            node "function_definition" none true 66 86 [token "def" 66 69, name 70 78,
              parameters 78 80 [], token ":" 80 81, body 82 86 [pass 82]]]]]]]

/-- The declarations of that source. -/
def Decl.decorated : List Decl :=
  [.classLike ⟨"f/class:1", "A", ⟨1, 6⟩, ⟨"f", .file⟩⟩,
    .function ⟨"f/function:2", "__init__", none, true, ⟨3, 4⟩, ⟨"f/class:1", .classLike⟩⟩,
    .function ⟨"f/function:3", "", none, false, ⟨3, 3⟩, ⟨"f/class:1", .classLike⟩⟩,
    .function ⟨"f/function:4", "g", none, false, ⟨4, 4⟩, ⟨"f/function:2", .function⟩⟩,
    .function ⟨"f/function:5", "__init__", none, false, ⟨6, 6⟩, ⟨"f/class:1", .classLike⟩⟩]

theorem Extractor.extractWith_decorated :
    ∃ x, (({ parse := fun _ _ => Node.decorated } : Extractor).extractWith .decorated
        Python.adapter .disabled).1 = .ok x ∧
      x.file = (SourceFile.empty "f" "a.py" .python).addAll Decl.decorated := by
  have hclean : Node.decorated.fault? = none := rfl
  refine ⟨_, extractWith_of_clean hclean _, ?_⟩
  have hfunctions : (walked { parse := fun _ _ => Node.decorated } .decorated Python.adapter
      .disabled).file.functions.toList = Decl.decorated.filterMap (·.function?) := by
    rw [walked, Extraction.functions_walk]
    decide +kernel
  have hclasses : (walked { parse := fun _ _ => Node.decorated } .decorated Python.adapter
      .disabled).file.classes.toList = Decl.decorated.filterMap (·.class?) := by
    rw [walked, Extraction.classes_walk]
    decide +kernel
  rw [SourceFile.addAll_eq, walked_file_eq, ← hfunctions, ← hclasses]
  simp only [SourceFile.empty, Array.toArray_toList, Array.empty_append]
  rfl

/-- The function in the method's body was recorded with the class and the method open, the lambda
among its parameters with the class alone. -/
theorem nesting_eq_open_scopes_decorated :
    ∃ x, (({ parse := fun _ _ => Node.decorated } : Extractor).extractWith .decorated
        Python.adapter .disabled).1 = .ok x ∧
      x.file.decls.map (fun d => Report.nesting x.file d.parent) = [0, 1, 1, 2, 1] ∧
      ∀ d ∈ Decl.decorated, ∃ k, (Extractor.walkStart { parse := fun _ _ => Node.decorated }
          .decorated Python.adapter .disabled).RecordsUnder Python.adapter
          SourceInput.decorated.content.toUTF8 d k ∧
        k.inner.length = Report.nesting x.file d.parent := by
  obtain ⟨x, hx, hfile⟩ := Extractor.extractWith_decorated
  refine ⟨x, hx, by rw [hfile]; decide +kernel, fun d hd => ?_⟩
  have hmem : d ∈ x.file.decls := by
    rw [hfile]
    revert d
    decide +kernel
  obtain ⟨⟨k, hk⟩, hscopes⟩ := nesting_eq_open_scopes _ _ _ _ x hx d hmem
  obtain ⟨-, -, -, -, -, hnesting⟩ := hscopes k hk
  exact ⟨k, hk, hnesting.symm⟩

end Outline
