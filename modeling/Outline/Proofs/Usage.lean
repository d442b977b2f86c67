import Outline.Extraction.Script
import Outline.Proofs.Walk.Recursion

/-!
# Extractions in use

An extraction may be used in any way that its operations allow: declarations are recorded, scopes
are entered and left, lines are written to the dump, trees are walked, in any order and any nesting.
A `Usage` is an extraction with the scopes that are entered and not yet left. It changes by one
operation at a time (`Usage.Step`); leaving by `bail` is leaving one scope after the other.

Whatever is done, what has been recorded stays, and every parent is the file or a declaration that
was recorded before. The invariant (`Extraction.Sound`) speaks of what a file gained since the start
and of all frames on the scope stack. Recording takes the parent from the stack, so it keeps the
invariant; a walk keeps it because the frames of its open nodes have been recorded (`Walk.Sound`).

* `visit_cases`: a visit records one declaration under the innermost scope, or nothing.
* `sound_next?`, `sound_step`: a step of a walk and a step of a use keep the invariant.
* `runAll_follows`: a script makes steps of a use.
* `parents_recorded_earlier`: the invariant in every state of a use and of a walk within one.
-/
namespace Outline

/-! ## Declarations of either kind -/

/-- What functions and classes have in common. -/
structure Declaration where
  frame : Frame
  location : Location
  parent : Frame

def FunctionDecl.declaration (d : FunctionDecl) : Declaration := ⟨d.frame, d.location, d.parent⟩

def ClassDecl.declaration (d : ClassDecl) : Declaration := ⟨d.frame, d.location, d.parent⟩

namespace SourceFile

/-- The declarations that a file has besides those at the start. -/
def gained (f₀ f : SourceFile) : List Declaration :=
  (f.functions.toList.drop f₀.functions.size).map (·.declaration) ++
    (f.classes.toList.drop f₀.classes.size).map (·.declaration)

/-- The same file with perhaps more declarations, behind those it had. -/
structure Extends (f₀ f : SourceFile) : Prop where
  id : f.id = f₀.id
  functions : f₀.functions.toList <+: f.functions.toList
  classes : f₀.classes.toList <+: f.classes.toList

theorem Extends.refl (f : SourceFile) : f.Extends f := ⟨rfl, List.prefix_rfl, List.prefix_rfl⟩

theorem Extends.trans {f g h : SourceFile} (hfg : f.Extends g) (hgh : g.Extends h) : f.Extends h :=
  ⟨hgh.id.trans hfg.id, hfg.functions.trans hgh.functions, hfg.classes.trans hgh.classes⟩

theorem extends_addFunction (f : SourceFile) (d : FunctionDecl) : f.Extends (f.addFunction d) :=
  ⟨rfl, by simp [addFunction], List.prefix_rfl⟩

theorem extends_addClass (f : SourceFile) (d : ClassDecl) : f.Extends (f.addClass d) :=
  ⟨rfl, List.prefix_rfl, by simp [addClass]⟩

variable {f₀ f g : SourceFile}

theorem gained_self (f : SourceFile) : f.gained f = [] := by simp [gained]

theorem mem_gained_addFunction (h : f₀.Extends f) {d : FunctionDecl} {e : Declaration} :
    e ∈ f₀.gained (f.addFunction d) ↔ e ∈ f₀.gained f ∨ e = d.declaration := by
  have hle : f₀.functions.size ≤ f.functions.toList.length := h.functions.length_le
  simp only [gained, addFunction, Array.toList_push, List.drop_append_of_le_length hle,
    List.map_append, List.mem_append, List.map_cons, List.map_nil, List.mem_singleton]
  exact or_right_comm

theorem mem_gained_addClass (h : f₀.Extends f) {d : ClassDecl} {e : Declaration} :
    e ∈ f₀.gained (f.addClass d) ↔ e ∈ f₀.gained f ∨ e = d.declaration := by
  have hle : f₀.classes.size ≤ f.classes.toList.length := h.classes.length_le
  simp only [gained, addClass, Array.toList_push, List.drop_append_of_le_length hle,
    List.map_append, List.mem_append, List.map_cons, List.map_nil, List.mem_singleton]
  exact or_assoc.symm

theorem mem_gained_mono (h : f.Extends g) {d : Declaration} (hd : d ∈ f₀.gained f) :
    d ∈ f₀.gained g := by
  obtain ⟨fs, hfs⟩ := h.functions
  obtain ⟨cs, hcs⟩ := h.classes
  simp only [gained, List.mem_append, ← hfs, ← hcs, List.drop_append, List.map_append] at hd ⊢
  exact hd.imp Or.inl Or.inl

/-- The frame of a declaration gained. -/
def Gained (f₀ f : SourceFile) (p : Frame) : Prop := ∃ d ∈ f₀.gained f, d.frame = p

theorem Gained.mono {p : Frame} (h : f.Extends g) (hp : f₀.Gained f p) : f₀.Gained g p := by
  obtain ⟨d, hd, he⟩ := hp
  exact ⟨d, mem_gained_mono h hd, he⟩

/-- A frame that the `n`-th declaration can have as its parent: the file's, or the frame of a
declaration gained with a smaller number. -/
def Earlier (f₀ f : SourceFile) (n : Nat) (p : Frame) : Prop :=
  p = f.frame ∨ ∃ d ∈ f₀.gained f, d.frame = p ∧ ∃ m, m < n ∧ p.id = entityId f.id p.kind m

theorem resolves_frame (f : SourceFile) : f.resolves f.frame = true := by
  simp [resolves, frame]

/-- What was gained can be looked up. -/
theorem resolves_of_mem_gained {d : Declaration} (h : d ∈ f₀.gained f) :
    f.resolves d.frame = true := by
  simp only [gained, List.mem_append, List.mem_map] at h
  rcases h with ⟨c, hc, rfl⟩ | ⟨c, hc, rfl⟩
  · have hm : c ∈ f.functions := Array.mem_toList_iff.mp (List.mem_of_mem_drop hc)
    simp only [resolves, FunctionDecl.declaration, FunctionDecl.frame, function?,
      Array.find?_isSome]
    exact ⟨c, hm, by simp⟩
  · have hm : c ∈ f.classes := Array.mem_toList_iff.mp (List.mem_of_mem_drop hc)
    simp only [resolves, ClassDecl.declaration, ClassDecl.frame, class?, Array.find?_isSome]
    exact ⟨c, hm, by simp⟩

theorem resolves_of_earlier {n : Nat} {p : Frame} (h : f₀.Earlier f n p) : f.resolves p = true := by
  rcases h with rfl | ⟨d, hd, rfl, -⟩
  · exact f.resolves_frame
  · exact resolves_of_mem_gained hd

theorem Earlier.mono {n m : Nat} {p : Frame} (hid : g.id = f.id)
    (hfg : ∀ d ∈ f₀.gained f, d ∈ f₀.gained g) (hnm : n ≤ m) (h : f₀.Earlier f n p) :
    f₀.Earlier g m p := by
  rcases h with rfl | ⟨d, hd, hp, k, hk, hki⟩
  · exact Or.inl (by simp [frame, hid])
  · exact Or.inr ⟨d, hfg d hd, hp, k, by omega, by rw [hid, hki]⟩

end SourceFile

/-! ## Recording -/

theorem checkSpan_valid {lines : Nat × Nat} {l : Location} (h : checkSpan lines = .ok l) :
    l.Valid := by
  unfold checkSpan at h
  split at h
  · rename_i l' hl
    cases h
    exact (Location.ofLines?_eq_some_iff.mp hl).2
  · cases h

theorem FunctionShape.check_valid {s : FunctionShape} {l : Location} (h : s.check = .ok l) :
    l.Valid := by
  unfold check at h
  split at h
  · cases h
  split at h
  · cases h
  split at h
  · cases h
  exact checkSpan_valid h

theorem ClassShape.check_valid {s : ClassShape} {l : Location} (h : s.check = .ok l) :
    l.Valid := by
  unfold check at h
  split at h
  · cases h
  split at h
  · cases h
  exact checkSpan_valid h

namespace Extraction

/-- File, ids and scopes are the same. -/
structure Keeps (x y : Extraction) : Prop where
  file : y.file = x.file
  ids : y.ids = x.ids
  scopes : y.scopes = x.scopes

/-- The file has one more declaration, which has the next number and the innermost scope as its
parent. -/
structure Records (x y : Extraction) (d : Declaration) : Prop where
  file : (∃ c, y.file = x.file.addFunction c ∧ d = c.declaration) ∨
    ∃ c, y.file = x.file.addClass c ∧ d = c.declaration
  ids : y.ids = { x.ids with next := x.ids.next + 1 }
  scopes : y.scopes = x.scopes
  number : d.frame.id = entityId x.ids.fileId d.frame.kind x.ids.next
  location : d.location.Valid
  parent : d.parent = x.scopes.peek

/-- What recording can do, given what it answers. -/
def Outcome (x : Extraction) (r : Option Frame × Extraction) : Prop :=
  (r.1 = none ∧ x.Keeps r.2) ∨ ∃ d, r.1 = some d.frame ∧ x.Records r.2 d

theorem recordFunction_cases (x : Extraction) (s : FunctionShape) :
    x.Outcome (x.recordFunction s) := by
  unfold recordFunction
  cases h : s.check with
  | error missing => exact Or.inl ⟨rfl, rfl, rfl, rfl⟩
  | ok location =>
    exact Or.inr ⟨_, rfl, Or.inl ⟨_, rfl, rfl⟩, rfl, rfl, rfl, s.check_valid h, rfl⟩

theorem recordClass_cases (x : Extraction) (s : ClassShape) : x.Outcome (x.recordClass s) := by
  unfold recordClass
  cases h : s.check with
  | error missing => exact Or.inl ⟨rfl, rfl, rfl, rfl⟩
  | ok location =>
    exact Or.inr ⟨_, rfl, Or.inr ⟨_, rfl, rfl⟩, rfl, rfl, rfl, s.check_valid h, rfl⟩

theorem Outcome.of_keeps {x y : Extraction} {r : Option Frame × Extraction} (hxy : x.Keeps y)
    (h : y.Outcome r) : x.Outcome r := by
  obtain ⟨hf, hi, hs⟩ := hxy
  rcases h with ⟨h1, h2⟩ | ⟨d, h1, h2⟩
  · exact Or.inl ⟨h1, h2.file.trans hf, h2.ids.trans hi, h2.scopes.trans hs⟩
  · refine Or.inr ⟨d, h1, ?_⟩
    obtain ⟨a, b, c, e, l, p⟩ := h2
    rw [hf] at a
    rw [hi] at b e
    rw [hs] at c p
    exact ⟨a, b, c, e, l, p⟩

theorem visit_cases (x : Extraction) (a : Adapter) (source : ByteArray) (s : Site) :
    x.Outcome (x.visit a source s) := by
  unfold visit
  have hdump : ∀ kind, x.Keeps (x.dumpNode kind s.node source) := fun _ => ⟨rfl, rfl, rfl⟩
  cases a.recognize s source with
  | function shape => exact .of_keeps (hdump .function) (recordFunction_cases _ shape)
  | classLike shape => exact .of_keeps (hdump .classLike) (recordClass_cases _ shape)
  | other => exact Or.inl ⟨rfl, rfl, rfl, rfl⟩

end Extraction

/-! ## The invariant -/

namespace ScopeStack

theorem peek_mem_frames (k : ScopeStack) : k.peek ∈ k.frames := by
  unfold peek frames
  cases k.inner <;> simp

theorem mem_frames_push {k : ScopeStack} {f g : Frame} (h : g ∈ (k.push f).frames) :
    g ∈ k.frames ∨ g = f := by
  simpa [frames_push] using h

/-- Releasing brings no frame in. -/
theorem mem_frames_release {k : ScopeStack} {f g : Frame} (h : g ∈ (k.release f).frames) :
    g ∈ k.frames := by
  unfold release pop? at h
  cases hk : k.inner with
  | nil => simpa [hk, frames] using h
  | cons top rest =>
    simp only [hk] at h
    have hg : g ∈ k.root :: rest.reverse := by split at h <;> exact h
    simp only [frames, hk, List.reverse_cons, List.mem_cons, List.mem_append] at hg ⊢
    exact hg.imp_right Or.inl

end ScopeStack

namespace Extraction

/-- What holds of an extraction at any moment after a start with the file `f₀`. -/
structure Sound (f₀ : SourceFile) (x : Extraction) : Prop where
  file : f₀.Extends x.file
  ids : x.ids.fileId = x.file.id
  gained : ∀ d ∈ f₀.gained x.file, d.location.Valid ∧ ∃ n, n < x.ids.next ∧
    d.frame.id = entityId x.file.id d.frame.kind n ∧ f₀.Earlier x.file n d.parent
  scopes : ∀ f ∈ x.scopes.frames, f₀.Earlier x.file x.ids.next f

theorem sound_start (file : SourceFile) (dump : NodeDump) : (start file dump).Sound file where
  file := .refl file
  ids := rfl
  gained := by
    intro d hd
    rw [show (start file dump).file = file from rfl, file.gained_self] at hd
    cases hd
  scopes := by
    intro f hf
    exact Or.inl (by simpa [start, ScopeStack.frames] using hf)

variable {f₀ : SourceFile} {x y : Extraction}

/-- What is gained can stand on the scope stack. -/
theorem Sound.earlier_of_gained (h : x.Sound f₀) {f : Frame} (hf : f₀.Gained x.file f) :
    f₀.Earlier x.file x.ids.next f := by
  obtain ⟨d, hd, rfl⟩ := hf
  obtain ⟨-, n, hn, hid, -⟩ := h.gained d hd
  exact Or.inr ⟨d, hd, rfl, n, hn, hid⟩

/-- Nothing is recorded, and what comes on the scope stack was recorded before. -/
theorem Sound.of_scopes (h : x.Sound f₀) (hf : y.file = x.file) (hi : y.ids = x.ids)
    (hs : ∀ f ∈ y.scopes.frames, f ∈ x.scopes.frames ∨ f₀.Earlier x.file x.ids.next f) :
    y.Sound f₀ := by
  refine ⟨by rw [hf]; exact h.file, by rw [hf, hi]; exact h.ids, by rw [hf, hi]; exact h.gained,
    fun f hm => ?_⟩
  rw [hf, hi]
  exact (hs f hm).elim (h.scopes f) id

theorem Sound.of_keeps (h : x.Sound f₀) (hk : x.Keeps y) : y.Sound f₀ :=
  h.of_scopes hk.file hk.ids fun f hf => Or.inl (by rwa [hk.scopes] at hf)

theorem Records.extends {d : Declaration} (h : x.Records y d) : x.file.Extends y.file := by
  rcases h.file with ⟨c, hc, -⟩ | ⟨c, hc, -⟩ <;> rw [hc]
  · exact x.file.extends_addFunction c
  · exact x.file.extends_addClass c

theorem Records.mem_gained {d e : Declaration} (h : x.Records y d) (hx : f₀.Extends x.file) :
    e ∈ f₀.gained y.file ↔ e ∈ f₀.gained x.file ∨ e = d := by
  rcases h.file with ⟨c, hc, rfl⟩ | ⟨c, hc, rfl⟩ <;> rw [hc]
  · exact SourceFile.mem_gained_addFunction hx
  · exact SourceFile.mem_gained_addClass hx

theorem Sound.of_records {d : Declaration} (h : x.Sound f₀) (hr : x.Records y d) : y.Sound f₀ := by
  have hid : y.file.id = x.file.id := hr.extends.id
  have hsub : ∀ e ∈ f₀.gained x.file, e ∈ f₀.gained y.file :=
    fun e he => (hr.mem_gained h.file).mpr (Or.inl he)
  have hnext : y.ids.next = x.ids.next + 1 := by rw [hr.ids]
  refine ⟨h.file.trans hr.extends, by rw [hid, ← h.ids, hr.ids], fun e he => ?_, fun f hf => ?_⟩
  · rcases (hr.mem_gained h.file).mp he with he | rfl
    · obtain ⟨hl, n, hn, hni, hp⟩ := h.gained e he
      exact ⟨hl, n, by omega, by rw [hid, hni], hp.mono hid hsub (Nat.le_refl n)⟩
    · -- the new declaration: its parent was on the stack, where all frames have smaller numbers
      have hp : f₀.Earlier x.file x.ids.next e.parent := by
        rw [hr.parent]
        exact h.scopes _ x.scopes.peek_mem_frames
      exact ⟨hr.location, x.ids.next, by omega, by rw [hid, ← h.ids, hr.number],
        hp.mono hid hsub (Nat.le_refl _)⟩
  · rw [hr.scopes] at hf
    exact (h.scopes f hf).mono hid hsub (by omega)

variable {r : Option Frame × Extraction}

theorem Outcome.sound (hr : x.Outcome r) (h : x.Sound f₀) : r.2.Sound f₀ := by
  rcases hr with ⟨-, hk⟩ | ⟨d, -, hd⟩
  · exact h.of_keeps hk
  · exact h.of_records hd

theorem Outcome.extends (hr : x.Outcome r) : x.file.Extends r.2.file := by
  rcases hr with ⟨-, hk⟩ | ⟨d, -, hd⟩
  · rw [hk.file]
    exact .refl _
  · exact hd.extends

/-- A frame that recording answers is the frame of a declaration gained. -/
theorem Outcome.answer (hr : x.Outcome r) (h : x.Sound f₀) {f : Frame} (hf : r.1 = some f) :
    f₀.Gained r.2.file f := by
  rcases hr with ⟨hn, -⟩ | ⟨d, hd, hrec⟩
  · rw [hf] at hn
    cases hn
  · rw [hf] at hd
    exact ⟨d, (hrec.mem_gained h.file).mpr (Or.inr rfl), (Option.some.inj hd).symm⟩

end Extraction

/-! ## Walks -/

theorem ScopeMove.mem_frames_apply {m : ScopeMove} {k : ScopeStack} {g : Frame}
    (h : g ∈ (m.apply k).frames) : g ∈ k.frames ∨ m = .push g := by
  cases m with
  | stay => exact Or.inl h
  | push f => exact (ScopeStack.mem_frames_push h).imp_right fun he => by rw [he]
  | release f => exact Or.inl (ScopeStack.mem_frames_release h)

namespace Walk

theorem alignment_eq_push {o : OpenNode} {ownScope : Bool} {f : Frame}
    (h : o.alignment ownScope = .push f) : o.frame = some f := by
  obtain ⟨frame, pushed, after⟩ := o
  cases frame with
  | none => cases h
  | some g =>
    cases ownScope <;> cases pushed <;> cases h
    rfl

theorem closing_ne_push (o : OpenNode) (f : Frame) : o.closing ≠ .push f := by
  obtain ⟨frame, pushed, after⟩ := o
  cases frame <;> cases pushed <;> intro h <;> cases h

theorem Realigned.exists_frame {os ps : List OpenNode} (h : Realigned os ps) :
    ∀ p ∈ ps, ∃ o ∈ os, o.frame = p.frame := by
  cases h with
  | nil => exact fun p hp => ⟨p, hp, rfl⟩
  | cons o b os =>
    intro p hp
    rcases List.mem_cons.mp hp with rfl | hp
    · exact ⟨o, List.mem_cons_self, rfl⟩
    · exact ⟨p, List.mem_cons_of_mem _ hp, rfl⟩

/-- The frames that a walk may push are those of declarations gained. -/
structure Sound (f₀ : SourceFile) (w : Walk) : Prop where
  extraction : w.extraction.Sound f₀
  frames : ∀ o ∈ w.enclosing, ∀ f, o.frame = some f → f₀.Gained w.extraction.file f

variable {a : Adapter} {source : ByteArray} {f₀ : SourceFile} {x : Extraction}
  {os : List OpenNode} {w v : Walk}

theorem sound_start (h : x.Sound f₀) (s : Site) : (start x s).Sound f₀ :=
  ⟨h, by simp [start]⟩

theorem alignInnermost_file (x : Extraction) (os : List OpenNode) (ownScope : Bool) :
    (alignInnermost x os ownScope).2.file = x.file :=
  congrArg Findings.file (alignInnermost_findings x os ownScope)

theorem sound_alignInnermost (hx : x.Sound f₀)
    (hos : ∀ o ∈ os, ∀ f, o.frame = some f → f₀.Gained x.file f) (ownScope : Bool) :
    (alignInnermost x os ownScope).2.Sound f₀ := by
  refine hx.of_scopes (alignInnermost_file x os ownScope)
    (congrArg Findings.ids (alignInnermost_findings x os ownScope)) fun f hf => ?_
  cases os with
  | nil => exact Or.inl hf
  | cons o os =>
    simp only [alignInnermost, align_scopes] at hf
    refine (ScopeMove.mem_frames_apply hf).imp_right fun hpush => ?_
    exact hx.earlier_of_gained (hos o List.mem_cons_self f (alignment_eq_push hpush))

theorem sound_close {o : OpenNode} (hx : x.Sound f₀) : (close x o).Sound f₀ := by
  refine hx.of_scopes (congrArg Findings.file (close_findings x o))
    (congrArg Findings.ids (close_findings x o)) fun f hf => ?_
  rw [close_scopes] at hf
  exact (ScopeMove.mem_frames_apply hf).imp_right fun h => absurd h (closing_ne_push o f)

theorem sound_descend {s : Site} {rest : List Site} (h : Sound f₀ ⟨s :: rest, os, x⟩) :
    Sound f₀ (descend a source s rest os x) ∧
      x.file.Extends (descend a source s rest os x).extraction.file := by
  have hx := sound_alignInnermost h.extraction h.frames (inOwnScope a s.node)
  have hfile := alignInnermost_file x os (inOwnScope a s.node)
  have hsame := (realigned_alignInnermost x os (inOwnScope a s.node)).exists_frame
  unfold descend
  generalize alignInnermost x os (inOwnScope a s.node) = aligned at *
  have hv := aligned.2.visit_cases a source s
  have hext : x.file.Extends (aligned.2.visit a source s).2.file := hfile ▸ hv.extends
  have hold : ∀ o ∈ aligned.1, ∀ f, o.frame = some f →
      f₀.Gained (aligned.2.visit a source s).2.file f := by
    intro o ho f hf
    obtain ⟨p, hp, hpo⟩ := hsame o ho
    exact (h.frames p hp f (hpo.trans hf)).mono hext
  split
  · exact ⟨⟨hv.sound hx, hold⟩, hext⟩
  · refine ⟨⟨hv.sound hx, fun o ho f hf => ?_⟩, hext⟩
    rcases List.mem_cons.mp ho with rfl | ho
    · exact hv.answer hx hf
    · exact hold o ho f hf

theorem sound_next? (hw : w.Sound f₀) (h : next? a source w = some v) :
    v.Sound f₀ ∧ w.extraction.file.Extends v.extraction.file := by
  unfold next? at h
  split at h
  · split at h <;> cases h
    · exact sound_descend hw
    · exact ⟨⟨hw.extraction, hw.frames⟩, .refl _⟩
  · rename_i o os x
    cases h
    have hfile : (close x o).file = x.file := congrArg Findings.file (close_findings x o)
    refine ⟨⟨sound_close hw.extraction, fun p hp f hf => ?_⟩, ?_⟩
    · rw [hfile]
      exact hw.frames p (List.mem_cons_of_mem _ hp) f hf
    · rw [hfile]
      exact .refl _
  · cases h

theorem sound_reaches (hw : w.Sound f₀) (h : Reaches a source w v) :
    v.Sound f₀ ∧ w.extraction.file.Extends v.extraction.file := by
  induction h with
  | refl => exact ⟨hw, .refl _⟩
  | tail _ hs ih =>
    have hstep := sound_next? ih.1 hs
    exact ⟨hstep.1, ih.2.trans hstep.2⟩

theorem sound_walk (hx : x.Sound f₀) (s : Site) :
    (x.walk a source s).Sound f₀ ∧ x.file.Extends (x.walk a source s).file := by
  obtain ⟨w, hr, -, he⟩ := exists_halted a source (start x s)
  have hw := sound_reaches (sound_start hx s) hr
  rw [Extraction.walk, he]
  exact ⟨hw.1.extraction, hw.2⟩

end Walk

/-! ## Steps of a use -/

structure Usage where
  extraction : Extraction
  /-- The scopes entered and not yet left, innermost first. -/
  entered : List Frame

/-- A frame that may be entered: the file's, or that of any declaration recorded since the start. A
frame that recording answered is one of these ever after. -/
def SourceFile.Enterable (f₀ f : SourceFile) (p : Frame) : Prop := p = f.frame ∨ f₀.Gained f p

namespace Usage

/-- One operation on an extraction, where `may` tells which frames may be entered. -/
inductive Step (may : SourceFile → Frame → Prop) : Usage → Usage → Prop where
  | function (x : Extraction) (ps : List Frame) (shape : FunctionShape) :
    Step may ⟨x, ps⟩ ⟨(x.recordFunction shape).2, ps⟩
  | classLike (x : Extraction) (ps : List Frame) (shape : ClassShape) :
    Step may ⟨x, ps⟩ ⟨(x.recordClass shape).2, ps⟩
  | enter (x : Extraction) (ps : List Frame) (p : Frame) (h : may x.file p) :
    Step may ⟨x, ps⟩ ⟨ScopeOwner.enter x p, p :: ps⟩
  | leave (x : Extraction) (ps : List Frame) (p : Frame) :
    Step may ⟨x, p :: ps⟩ ⟨ScopeOwner.leave x p, ps⟩
  | line (x : Extraction) (ps : List Frame) (text : String) : Step may ⟨x, ps⟩ ⟨x.line text, ps⟩
  | walk (x : Extraction) (ps : List Frame) (a : Adapter) (source : ByteArray) (s : Site) :
    Step may ⟨x, ps⟩ ⟨x.walk a source s, ps⟩

/-- Uses of an extraction that began with the file `f₀`. -/
abbrev Reaches (f₀ : SourceFile) : Usage → Usage → Prop :=
  Relation.ReflTransGen (Step f₀.Enterable)

/-- Uses in which any frame may be entered. -/
abbrev ReachesFreely : Usage → Usage → Prop := Relation.ReflTransGen (Step fun _ _ => True)

variable {f₀ : SourceFile} {S T : Usage}

theorem sound_step (h : Step f₀.Enterable S T) (hS : S.extraction.Sound f₀) :
    T.extraction.Sound f₀ ∧ S.extraction.file.Extends T.extraction.file := by
  cases h with
  | function x ps shape =>
    have hx := x.recordFunction_cases shape
    exact ⟨hx.sound hS, hx.extends⟩
  | classLike x ps shape =>
    have hx := x.recordClass_cases shape
    exact ⟨hx.sound hS, hx.extends⟩
  | enter x ps p hp =>
    refine ⟨hS.of_scopes rfl rfl fun f hf => ?_, .refl _⟩
    refine (ScopeStack.mem_frames_push hf).imp_right fun he => ?_
    rw [he]
    exact hp.elim Or.inl hS.earlier_of_gained
  | leave x ps p =>
    exact ⟨hS.of_scopes rfl rfl fun f hf => Or.inl (ScopeStack.mem_frames_release hf), .refl _⟩
  | line x ps text => exact ⟨hS.of_keeps ⟨rfl, rfl, rfl⟩, .refl _⟩
  | walk x ps a source s => exact Walk.sound_walk hS s

theorem sound_reaches (h : Reaches f₀ S T) (hS : S.extraction.Sound f₀) :
    T.extraction.Sound f₀ ∧ S.extraction.file.Extends T.extraction.file := by
  induction h with
  | refl => exact ⟨hS, .refl _⟩
  | tail _ hs ih =>
    have hstep := sound_step hs ih.1
    exact ⟨hstep.1, ih.2.trans hstep.2⟩

end Usage

/-! ## Scripts -/

/-- Whether an action touches the scope stack behind the back of the scopes that are open. -/
def ScopeAction.isDirect : ScopeAction → Bool
  | .push _ => true
  | .pop => true
  | .idle => false

def ExtractionAction.isDirect : ExtractionAction → Bool
  | .scope action => action.isDirect
  | _ => false

namespace Script

variable {α : Type}

mutual

/-- Whether all actions of a step, and of the steps within it, satisfy `q`. -/
def uses (q : α → Bool) : Script α → Bool
  | .act a => q a
  | .enter _ body => useAll q body
  | .enterNew a body => q a && useAll q body
  | .attempt body => useAll q body
  | .bail => true

def useAll (q : α → Bool) : List (Script α) → Bool
  | [] => true
  | step :: rest => step.uses q && useAll q rest

end

end Script

def Event.state {α σ : Type} : Event α σ → σ
  | .entered _ s => s
  | .done _ _ s => s

namespace Usage

variable {f₀ : SourceFile} {x : Extraction}

theorem perform_reaches (f₀ : SourceFile) {action : ExtractionAction}
    (h : action.isDirect = false) (x : Extraction) (ps : List Frame) :
    Reaches f₀ ⟨x, ps⟩ ⟨(action.perform x).2, ps⟩ := by
  cases action with
  | function shape => exact .single (.function x ps shape)
  | classLike shape => exact .single (.classLike x ps shape)
  | line text => exact .single (.line x ps text)
  | walk a source s => exact .single (.walk x ps a source s)
  | scope action =>
    cases action with
    | idle => exact .refl
    | push f => cases h
    | pop => cases h

/-- A run whose scopes are entered with frames that may be entered. -/
def Enters (f₀ : SourceFile) (r : Run ExtractionAction Extraction) : Prop :=
  ∀ p y, .entered p y ∈ r.events → f₀.Enterable y.file p

/-- A run makes steps of a use: its end is reached with the scopes of its beginning, and so is, with
some scopes, every state that is seen on the way. -/
def Follows (f₀ : SourceFile) (x : Extraction) (ps : List Frame)
    (r : Run ExtractionAction Extraction) : Prop :=
  Reaches f₀ ⟨x, ps⟩ ⟨r.state, ps⟩ ∧
    ∀ e ∈ r.events, ∃ qs, Reaches f₀ ⟨x, ps⟩ ⟨e.state, qs⟩

theorem follows_leaving {step : Script ExtractionAction} {p : Frame} {ps : List Frame}
    {y : Extraction} {body : Run ExtractionAction Extraction}
    (hy : Reaches f₀ ⟨x, ps⟩ ⟨y, ps⟩)
    (he : Enters f₀ (body.leaving step p (ScopeOwner.enter y p)))
    (hbody : Enters f₀ body → Follows f₀ (ScopeOwner.enter y p) (p :: ps) body) :
    Follows f₀ x ps (body.leaving step p (ScopeOwner.enter y p)) := by
  have hp : f₀.Enterable y.file p := he p (ScopeOwner.enter y p) (by simp [Run.leaving])
  have hin : Reaches f₀ ⟨x, ps⟩ ⟨ScopeOwner.enter y p, p :: ps⟩ := hy.tail (.enter y ps p hp)
  obtain ⟨hend, hseen⟩ := hbody fun q z hz => he q z (by simp [Run.leaving, hz])
  have hout : Reaches f₀ ⟨x, ps⟩ ⟨ScopeOwner.leave body.state p, ps⟩ :=
    (hin.trans hend).tail (.leave body.state ps p)
  refine ⟨hout, fun e hm => ?_⟩
  simp only [Run.leaving, List.cons_append, List.mem_cons, List.mem_append] at hm
  rcases hm with rfl | hm | hm
  · exact ⟨p :: ps, hin⟩
  · obtain ⟨qs, hq⟩ := hseen e hm
    exact ⟨qs, hin.trans hq⟩
  · split at hm
    · rw [List.mem_singleton.mp hm]
      exact ⟨ps, hout⟩
    · cases hm

mutual

theorem run_follows : ∀ (step : Script ExtractionAction) (x : Extraction) (ps : List Frame),
    step.uses (!·.isDirect) = true → Enters f₀ (step.run ExtractionAction.perform x) →
    Follows f₀ x ps (step.run ExtractionAction.perform x)
  | .act action, x, ps, ho, he => by
    have hr := perform_reaches f₀ (by simpa [Script.uses] using ho) x ps
    rw [Script.run]
    exact ⟨hr, by simpa [Event.state] using ⟨ps, hr⟩⟩
  | .enter p body, x, ps, ho, he => by
    rw [Script.run] at he ⊢
    exact follows_leaving .refl he (runAll_follows body _ _ (by simpa [Script.uses] using ho))
  | .enterNew action body, x, ps, ho, he => by
    simp only [Script.uses, Bool.and_eq_true, Bool.not_eq_true'] at ho
    have hr := perform_reaches f₀ ho.1 x ps
    rw [Script.run] at he ⊢
    split at he
    · rename_i p y hy
      rw [hy] at hr
      exact follows_leaving hr he (runAll_follows body _ _ ho.2)
    · rename_i reply y hne hy
      rw [hy] at hr
      exact ⟨hr, by simpa [Event.state] using ⟨ps, hr⟩⟩
  | .attempt body, x, ps, ho, he => by
    rw [Script.run] at he ⊢
    obtain ⟨hend, hseen⟩ := runAll_follows body x ps (by simpa [Script.uses] using ho)
      fun p y hm => he p y (List.mem_append_left _ hm)
    refine ⟨hend, fun e hm => ?_⟩
    rcases List.mem_append.mp hm with hm | hm
    · exact hseen e hm
    · rw [List.mem_singleton.mp hm]
      exact ⟨ps, hend⟩
  | .bail, x, ps, ho, he => by
    rw [Script.run]
    exact ⟨.refl, fun e hm => by cases hm⟩

theorem runAll_follows : ∀ (steps : List (Script ExtractionAction)) (x : Extraction)
    (ps : List Frame), Script.useAll (!·.isDirect) steps = true →
    Enters f₀ (Script.runAll ExtractionAction.perform steps x) →
    Follows f₀ x ps (Script.runAll ExtractionAction.perform steps x)
  | [], x, ps, _, _ => by
    rw [Script.runAll]
    exact ⟨.refl, fun e hm => by cases hm⟩
  | step :: rest, x, ps, ho, he => by
    simp only [Script.useAll, Bool.and_eq_true] at ho
    rw [Script.runAll] at he ⊢
    split at he
    · rename_i hc
      obtain ⟨hend, hseen⟩ := run_follows step x ps ho.1
        fun p y hm => he p y (List.mem_append_left _ hm)
      obtain ⟨hend', hseen'⟩ := runAll_follows rest _ ps ho.2
        fun p y hm => he p y (List.mem_append_right _ hm)
      rw [if_pos hc]
      refine ⟨hend.trans hend', fun e hm => ?_⟩
      rcases List.mem_append.mp hm with hm | hm
      · exact hseen e hm
      · obtain ⟨qs, hq⟩ := hseen' e hm
        exact ⟨qs, hend.trans hq⟩
    · rename_i hc
      rw [if_neg hc]
      exact run_follows step x ps ho.1 he

end

theorem enterable_of_answer {r : Option Frame × Extraction} {ps : List Frame} {T : Usage}
    {p : Frame} (hx : x.Sound f₀) (hr : x.Outcome r) (hp : r.1 = some p)
    (hT : Reaches f₀ ⟨r.2, ps⟩ T) : f₀.Enterable T.extraction.file p :=
  Or.inr ((hr.answer hx hp).mono (sound_reaches hT (hr.sound hx)).2)

end Usage

/-! ## Parents exist and were recorded earlier -/

/-- What a user of an extraction can rely on: of the declarations recorded since the start each has
a valid location and a parent that can be looked up, the parent is the file or has a smaller number,
and the open scopes can be looked up as well. -/
structure Extraction.Consistent (f₀ : SourceFile) (x : Extraction) : Prop where
  location : ∀ d ∈ f₀.gained x.file, d.location.Valid
  parent : ∀ d ∈ f₀.gained x.file, x.file.resolves d.parent = true
  earlier : ∀ d ∈ f₀.gained x.file, ∃ n, d.frame.id = entityId x.file.id d.frame.kind n ∧
    (d.parent = x.file.frame ∨ ∃ e ∈ f₀.gained x.file, e.frame = d.parent ∧
      ∃ m, m < n ∧ e.frame.id = entityId x.file.id e.frame.kind m)
  scopes : ∀ p ∈ x.scopes.frames, x.file.resolves p = true

theorem Extraction.Sound.consistent {f₀ : SourceFile} {x : Extraction} (h : x.Sound f₀) :
    x.Consistent f₀ where
  location d hd := (h.gained d hd).1
  parent d hd := by
    obtain ⟨-, n, -, -, hp⟩ := h.gained d hd
    exact SourceFile.resolves_of_earlier hp
  earlier d hd := by
    obtain ⟨-, n, -, hn, hp⟩ := h.gained d hd
    refine ⟨n, hn, hp.imp_right ?_⟩
    rintro ⟨e, he, hep, m, hm, hmi⟩
    exact ⟨e, he, hep, m, hm, by rw [hep]; exact hmi⟩
  scopes p hp := SourceFile.resolves_of_earlier (h.scopes p hp)

/-- **Parents exist and were recorded earlier.** This holds in every state of every use, and of
every walk within one. What was recorded stays as it is and where it is. A frame that recording
answered may be entered at any later time. Scripts that leave the scope stack to the scopes and
enter only such frames make steps of a use. -/
theorem parents_recorded_earlier (file : SourceFile) (dump : NodeDump) (S : Usage)
    (h : Usage.Reaches file ⟨Extraction.start file dump, []⟩ S) :
    S.extraction.Consistent file ∧
    (∀ T, Usage.Reaches file S T → S.extraction.file.Extends T.extraction.file) ∧
    (∀ (a : Adapter) (source : ByteArray) (s : Site) (w : Walk),
      Walk.Reaches a source (Walk.start S.extraction s) w → w.extraction.Consistent file ∧
        ∀ v, Walk.Reaches a source w v → w.extraction.file.Extends v.extraction.file) ∧
    (∀ shape p T, (S.extraction.recordFunction shape).1 = some p →
      Usage.Reaches file ⟨(S.extraction.recordFunction shape).2, S.entered⟩ T →
      file.Enterable T.extraction.file p) ∧
    (∀ shape p T, (S.extraction.recordClass shape).1 = some p →
      Usage.Reaches file ⟨(S.extraction.recordClass shape).2, S.entered⟩ T →
      file.Enterable T.extraction.file p) ∧
    ∀ steps, Script.useAll (!·.isDirect) steps = true →
      Usage.Enters file (S.extraction.runScript steps) →
      Usage.Follows file S.extraction S.entered (S.extraction.runScript steps) := by
  have hS := (Usage.sound_reaches h (Extraction.sound_start file dump)).1
  refine ⟨hS.consistent, fun T hT => (Usage.sound_reaches hT hS).2, fun a source s w hw => ?_,
    fun shape p T hp hT => ?_, fun shape p T hp hT => ?_, fun steps ho he => ?_⟩
  · have hsound := (Walk.sound_reaches (Walk.sound_start hS s) hw).1
    exact ⟨hsound.extraction.consistent, fun v hv => (Walk.sound_reaches hsound hv).2⟩
  · exact Usage.enterable_of_answer hS (S.extraction.recordFunction_cases shape) hp hT
  · exact Usage.enterable_of_answer hS (S.extraction.recordClass_cases shape) hp hT
  · exact Usage.runAll_follows steps S.extraction S.entered ho he

/-- A function is recorded, its scope is entered and another function is recorded within. -/
def Usage.nested : Usage :=
  let outer : FunctionShape := ⟨.declared, some "outer", true, true, (1, 4), none, false⟩
  let inner : FunctionShape := ⟨.declared, some "inner", true, true, (2, 3), none, false⟩
  let scope : Frame := ⟨"f/function:1", .function⟩
  let begun := Extraction.start (.empty "f" "f.py" .python) .disabled
  ⟨((ScopeOwner.enter (begun.recordFunction outer).2 scope).recordFunction inner).2, [scope]⟩

theorem parents_recorded_earlier_nested :
    Usage.Reaches (.empty "f" "f.py" .python)
      ⟨.start (.empty "f" "f.py" .python) .disabled, []⟩ Usage.nested ∧
    Usage.nested.extraction.Consistent (.empty "f" "f.py" .python) ∧
    Usage.nested.extraction.file.functions.toList.map (·.parent) =
      [⟨"f", .file⟩, ⟨"f/function:1", .function⟩] := by
  have h : Usage.Reaches (.empty "f" "f.py" .python)
      ⟨.start (.empty "f" "f.py" .python) .disabled, []⟩ Usage.nested := by
    refine ((Relation.ReflTransGen.single (.function _ _ _)).tail (.enter _ _ _ ?_)).tail
      (.function _ _ _)
    exact Or.inr ((Extraction.recordFunction_cases _ _).answer (Extraction.sound_start _ _) rfl)
  exact ⟨h, (parents_recorded_earlier _ _ _ h).1, by decide +kernel⟩

end Outline
