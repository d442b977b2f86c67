import Mathlib.Data.List.Basic
import Outline.Batch
import Outline.Proofs.Outcomes

/-!
# Batches under any schedule

`Extractor.extractBatch` proceeds in waves. Workers that run side by side keep to no such order: at
any time, one that is idle may take the source at the head of the queue, and one that is busy may
send its answer. `Batch.Run` is the interleaving of these moves, in whatever order a schedule says.
A source goes from the queue to a worker and from there to the answers, and is never in two of them
or in none. So at the end the answers are those of all sources, in some order, and by their places
they are put back into the order of the sources.

* `inOrder_of_perm`: answers in any order are put into the order of their places.
* `answers_step`, `answers_run`: the answers sent and those to come stay the same, up to order.
* `rank_step`, `rank_run`: each move brings the end nearer by one.
* `exists_step`, `exists_finished`: there is a move until all is done, so every run can be brought
  to an end.
* `batch_eq_sequential`: what a batch answers under any schedule.
-/
namespace Outline
namespace Batch

open scoped List

variable {α β : Type}

/-! ## The order of the answers -/

theorem pairwise_zipIdx (l : List β) : l.zipIdx.Pairwise fun a b => a.2 < b.2 := by
  have hplaces : (l.zipIdx.map Prod.snd).Pairwise (· < ·) := by
    rw [List.zipIdx_map_snd]
    exact List.pairwise_lt_range' ..
  exact List.pairwise_map.mp hplaces

theorem pairwise_mergeSort (done : List (β × Nat)) :
    (done.mergeSort fun a b => a.2 ≤ b.2).Pairwise fun a b => a.2 ≤ b.2 := by
  have hsorted : (done.mergeSort fun a b => a.2 ≤ b.2).Pairwise
      fun a b => decide (a.2 ≤ b.2) = true := by
    refine List.pairwise_mergeSort (fun a b c hab hbc => ?_) (fun a b => ?_) done
    · exact decide_eq_true (Nat.le_trans (of_decide_eq_true hab) (of_decide_eq_true hbc))
    · simpa using Nat.le_total a.2 b.2
  exact hsorted.imp of_decide_eq_true

theorem inOrder_of_perm {done : List (β × Nat)} {l : List β} (h : done.Perm l.zipIdx) :
    inOrder done = l := by
  have hperm : (done.mergeSort fun a b => a.2 ≤ b.2).Perm l.zipIdx :=
    (List.mergeSort_perm ..).trans h
  have hsorted : (done.mergeSort fun a b => a.2 ≤ b.2) = l.zipIdx := by
    refine List.Perm.eq_of_pairwise ?_ (pairwise_mergeSort done)
      ((pairwise_zipIdx l).imp Nat.le_of_lt) hperm
    -- no two answers have one place
    rintro ⟨x, i⟩ ⟨y, j⟩ hx hy hij hji
    have hx := List.mk_mem_zipIdx_iff_getElem?.mp (hperm.mem_iff.mp hx)
    have hy := List.mk_mem_zipIdx_iff_getElem?.mp hy
    obtain rfl : i = j := Nat.le_antisymm hij hji
    rw [hx] at hy
    cases hy
    rfl
  rw [inOrder, hsorted, List.zipIdx_map_fst]

/-- Waves answer the sources in the order of the queue. -/
theorem waves_eq (work : α → β) (n : Nat) (queue : List (α × Nat)) (done : List (β × Nat)) :
    waves work n queue done = done ++ queue.map (Prod.map work id) := by
  fun_induction waves with
  | case1 done => simp
  | case2 done first rest wave ih =>
    have hwave : wave ++ rest.drop n = first :: rest :=
      congrArg (first :: ·) (List.take_append_drop n rest)
    rw [ih, List.append_assoc, ← hwave, List.map_append]
    rfl

/-! ## Workers side by side -/

/-- A batch under way. -/
structure Pool (α β : Type) where
  /-- What no worker has taken, with its place in the input. -/
  queue : List (α × Nat)
  /-- What each worker is at, if anything. -/
  busy : List (Option (α × Nat))
  /-- The answers, in the order in which they were sent. -/
  done : List (β × Nat)

/-- What a worker may do. -/
inductive Move where
  | take (worker : Nat)
  | send (worker : Nat)
  deriving DecidableEq, Repr

/-- One move of one worker. -/
inductive Step (work : α → β) : Pool α β → Move → Pool α β → Prop
  | take {item : α × Nat} {queue : List (α × Nat)} {busy : List (Option (α × Nat))}
      {done : List (β × Nat)} {k : Nat} (idle : busy[k]? = some none) :
      Step work ⟨item :: queue, busy, done⟩ (.take k) ⟨queue, busy.set k (some item), done⟩
  | send {item : α × Nat} {queue : List (α × Nat)} {busy : List (Option (α × Nat))}
      {done : List (β × Nat)} {k : Nat} (held : busy[k]? = some (some item)) :
      Step work ⟨queue, busy, done⟩ (.send k)
        ⟨queue, busy.set k none, done ++ [(work item.1, item.2)]⟩

/-- The moves of a schedule, one after the other. -/
inductive Run (work : α → β) : Pool α β → List Move → Pool α β → Prop
  | nil (p : Pool α β) : Run work p [] p
  | cons {p q r : Pool α β} {m : Move} {ms : List Move} (first : Step work p m q)
      (rest : Run work q ms r) : Run work p (m :: ms) r

namespace Pool

/-- All sources in the queue, all workers idle. -/
def start (inputs : List α) (workers : Nat) : Pool α β :=
  ⟨inputs.zipIdx, List.replicate workers none, []⟩

/-- The queue is empty, all workers are idle. -/
def Finished (p : Pool α β) : Prop := p.queue = [] ∧ ∀ o ∈ p.busy, o = none

/-- What the workers are at. -/
def held (p : Pool α β) : List (α × Nat) := p.busy.filterMap id

/-- The answers sent, and before them those to come. -/
def answers (work : α → β) (p : Pool α β) : List (β × Nat) :=
  (p.queue ++ p.held).map (Prod.map work id) ++ p.done

/-- How many moves there are to the end: two for what is in the queue, one for what is held. -/
def rank (p : Pool α β) : Nat := 2 * p.queue.length + p.held.length

end Pool

/-! ## No answer is lost or sent twice -/

theorem filterMap_id_cons {γ : Type} (o : Option γ) (l : List (Option γ)) :
    (o :: l).filterMap id = o.toList ++ l.filterMap id := by
  cases o <;> rfl

/-- Of what all workers hold, only what one of them has laid down is missing, and only what it has
taken up is new. -/
theorem filterMap_set {γ : Type} {l : List (Option γ)} {k : Nat} {old : Option γ}
    (h : l[k]? = some old) (new : Option γ) :
    old.toList ++ (l.set k new).filterMap id ~ new.toList ++ l.filterMap id := by
  induction l generalizing k with
  | nil => cases h
  | cons o l ih =>
    cases k with
    | zero =>
      cases h
      rw [List.set_cons_zero, filterMap_id_cons, filterMap_id_cons]
      exact List.perm_append_comm_assoc ..
    | succ k =>
      rw [List.getElem?_cons_succ] at h
      rw [List.set_cons_succ, filterMap_id_cons, filterMap_id_cons]
      calc old.toList ++ (o.toList ++ (l.set k new).filterMap id)
          ~ o.toList ++ (old.toList ++ (l.set k new).filterMap id) :=
            List.perm_append_comm_assoc ..
        _ ~ o.toList ++ (new.toList ++ l.filterMap id) := (ih h).append_left _
        _ ~ new.toList ++ (o.toList ++ l.filterMap id) := List.perm_append_comm_assoc ..

theorem filterMap_set_some {γ : Type} {l : List (Option γ)} {k : Nat} (h : l[k]? = some none)
    (x : γ) : (l.set k (some x)).filterMap id ~ x :: l.filterMap id :=
  filterMap_set h (some x)

theorem filterMap_set_none {γ : Type} {l : List (Option γ)} {k : Nat} {x : γ}
    (h : l[k]? = some (some x)) : x :: (l.set k none).filterMap id ~ l.filterMap id :=
  filterMap_set h none

variable {work : α → β} {p q : Pool α β} {m : Move} {ms : List Move}

theorem answers_step (h : Step work p m q) : q.answers work ~ p.answers work := by
  cases h with
  | @take item queue busy done k idle =>
    have hwaiting : queue ++ (busy.set k (some item)).filterMap id ~
        item :: queue ++ busy.filterMap id :=
      ((filterMap_set_some idle item).append_left queue).trans List.perm_middle
    exact (hwaiting.map _).append_right done
  | @send item queue busy done k held =>
    have hwaiting : item :: (queue ++ (busy.set k none).filterMap id) ~
        queue ++ busy.filterMap id :=
      List.perm_middle.symm.trans ((filterMap_set_none held).append_left queue)
    -- the answer goes from before those that were sent to behind them
    have hanswer : (queue ++ (busy.set k none).filterMap id).map (Prod.map work id) ++
          (done ++ [(work item.1, item.2)]) ~
        (item :: (queue ++ (busy.set k none).filterMap id)).map (Prod.map work id) ++ done := by
      rw [← List.append_assoc]
      exact List.perm_append_singleton ..
    exact hanswer.trans ((hwaiting.map _).append_right done)

theorem answers_run (h : Run work p ms q) : q.answers work ~ p.answers work := by
  induction h with
  | nil => exact .refl _
  | cons first _ ih => exact ih.trans (answers_step first)

theorem answers_start (inputs : List α) (workers : Nat) :
    (Pool.start inputs workers).answers work = (inputs.map work).zipIdx := by
  simp [Pool.answers, Pool.start, Pool.held, List.zipIdx_map]

theorem Pool.Finished.held (h : p.Finished) : p.held = [] := by
  rw [Pool.held, List.filterMap_eq_nil_iff]
  exact h.2

theorem Pool.Finished.answers (work : α → β) (h : p.Finished) : p.answers work = p.done := by
  simp [Pool.answers, h.1, h.held]

theorem inOrder_of_run {inputs : List α} {workers : Nat}
    (h : Run work (.start inputs workers) ms p) (hp : p.Finished) :
    inOrder p.done = inputs.map work := by
  apply inOrder_of_perm
  rw [← hp.answers work, ← answers_start]
  exact answers_run h

/-! ## Every run comes to an end -/

theorem workers_pos (jobs sources : Nat) : 0 < workers jobs sources := by
  unfold workers
  omega

theorem rank_step (h : Step work p m q) : q.rank + 1 = p.rank := by
  cases h with
  | @take item queue busy done k idle =>
    have hheld := (filterMap_set_some idle item).length_eq
    simp only [Pool.rank, Pool.held, List.length_cons] at hheld ⊢
    omega
  | @send item queue busy done k held =>
    have hheld := (filterMap_set_none held).length_eq
    simp only [Pool.rank, Pool.held, List.length_cons] at hheld ⊢
    omega

theorem rank_run (h : Run work p ms q) : q.rank + ms.length = p.rank := by
  induction h with
  | nil => rfl
  | cons first _ ih =>
    have := rank_step first
    rw [List.length_cons]
    omega

theorem rank_start (inputs : List α) (workers : Nat) :
    (Pool.start inputs workers : Pool α β).rank = 2 * inputs.length := by
  simp [Pool.rank, Pool.start, Pool.held]

theorem length_busy_step (h : Step work p m q) : q.busy.length = p.busy.length := by
  cases h <;> simp

theorem length_busy_run (h : Run work p ms q) : q.busy.length = p.busy.length := by
  induction h with
  | nil => rfl
  | cons first _ ih => exact ih.trans (length_busy_step first)

theorem exists_step (work : α → β) (hworker : 0 < p.busy.length) (h : ¬ p.Finished) :
    ∃ m q, Step work p m q := by
  obtain ⟨queue, busy, done⟩ := p
  by_cases hidle : ∀ o ∈ busy, o = none
  · cases queue with
    | nil => exact absurd ⟨rfl, hidle⟩ h
    | cons item queue =>
      have hfirst : busy[0]? = some none := by
        rw [List.getElem?_eq_getElem hworker, hidle _ (List.getElem_mem hworker)]
      exact ⟨_, _, .take hfirst⟩
  · simp only [not_forall] at hidle
    obtain ⟨o, ho, hsome⟩ := hidle
    obtain ⟨item, rfl⟩ := Option.ne_none_iff_exists'.mp hsome
    obtain ⟨k, hk⟩ := List.mem_iff_getElem?.mp ho
    exact ⟨_, _, .send hk⟩

theorem exists_finished (work : α → β) (hworker : 0 < p.busy.length) :
    ∃ ms q, Run work p ms q ∧ q.Finished := by
  induction hr : p.rank using Nat.strongRecOn generalizing p with
  | ind r ih =>
    by_cases hp : p.Finished
    · exact ⟨[], p, .nil p, hp⟩
    · obtain ⟨m, q, hstep⟩ := exists_step work hworker hp
      have hrank := rank_step hstep
      rw [← length_busy_step hstep] at hworker
      obtain ⟨ms, t, hrun, ht⟩ := ih q.rank (by omega) hworker rfl
      exact ⟨m :: ms, t, .cons hstep hrun, ht⟩

end Batch

/-! ## Batches of sources -/

open Batch

theorem Extractor.extractBatch_eq (e : Extractor) (inputs : List SourceInput)
    (language : Option Language) (jobs : Nat) (dump : NodeDump) :
    e.extractBatch inputs language jobs dump = inputs.map (outcome e language dump) := by
  rw [extractBatch, waves_eq, List.nil_append, List.map_zipIdx]
  exact inOrder_of_perm (.refl _)

/-- **A batch is answered as if one source came after the other.** Any number of jobs may be asked
for. Under every schedule of the workers, no run takes more than two moves for each source, and any
can be brought to an end. When all workers are idle and the queue is empty, the answers in order are
the sources' paths with what each yields by itself, in the order of the sources; they are the same
as those of the waves. What a source yields is the same in every batch that has it in this place, so
another source that fails, or that is replaced, has no part in it. -/
theorem batch_eq_sequential (e : Extractor) (inputs : List SourceInput)
    (language : Option Language) (jobs : Nat) (dump : NodeDump) (schedule : List Move)
    (p : Pool SourceInput Outcome)
    (hrun : Batch.Run (outcome e language dump) (.start inputs (workers jobs inputs.length))
      schedule p) :
    schedule.length ≤ 2 * inputs.length ∧
    (∃ more q, Batch.Run (outcome e language dump) p more q ∧ q.Finished) ∧
    (p.Finished →
      (inOrder p.done).map (fun o => (o.path, o.result)) =
        inputs.map (fun i => (i.path, e.extract i language)) ∧
      inOrder p.done = e.extractBatch inputs language jobs dump ∧
      ∀ (inputs' : List SourceInput) (jobs' : Nat) (schedule' : List Move)
        (p' : Pool SourceInput Outcome),
        Batch.Run (outcome e language dump) (.start inputs' (workers jobs' inputs'.length))
          schedule' p' →
        p'.Finished →
        ∀ k : Nat, inputs'[k]? = inputs[k]? → (inOrder p'.done)[k]? = (inOrder p.done)[k]?) := by
  refine ⟨?_, ?_, fun hp => ⟨?_, ?_, ?_⟩⟩
  · have := rank_run hrun
    rw [rank_start] at this
    omega
  · apply exists_finished
    rw [length_busy_run hrun, Pool.start, List.length_replicate]
    exact workers_pos ..
  · rw [inOrder_of_run hrun hp, List.map_map]
    refine List.map_congr_left fun i _ => ?_
    simp only [Function.comp_apply, outcome, e.extractDumping_fst]
  · rw [inOrder_of_run hrun hp, e.extractBatch_eq]
  · intro inputs' jobs' schedule' p' hrun' hp' k hk
    rw [inOrder_of_run hrun hp, inOrder_of_run hrun' hp', List.getElem?_map, List.getElem?_map, hk]

/-- Two sources with one path, and between them one that no adapter handles. -/
def SourceInput.threeSources : List SourceInput :=
  [⟨none, "a.py", "lambda: 0"⟩, ⟨none, "b.txt", "text"⟩, ⟨none, "a.py", "lambda: 0"⟩]

/-- While the first worker is at the first source, the second answers the other two. -/
theorem batch_eq_sequential_outOfOrder :
    ∃ p, Batch.Run (outcome (.ofLambda false) none .disabled)
        (.start SourceInput.threeSources (workers 2 3))
        [.take 0, .take 1, .send 1, .take 1, .send 1, .send 0] p ∧
      p.Finished ∧ p.done.map (·.2) = [1, 2, 0] ∧
      (inOrder p.done).map (fun o => (o.path, o.result)) =
        [("a.py", (Extractor.ofLambda false).extract ⟨none, "a.py", "lambda: 0"⟩ none),
          ("b.txt", .error (.unsupported "b.txt")),
          ("a.py", (Extractor.ofLambda false).extract ⟨none, "a.py", "lambda: 0"⟩ none)] := by
  have hrun : ∃ p, Batch.Run (outcome (.ofLambda false) none .disabled)
      (.start SourceInput.threeSources (workers 2 3))
      [.take 0, .take 1, .send 1, .take 1, .send 1, .send 0] p ∧
      p.Finished ∧ p.done.map (·.2) = [1, 2, 0] :=
    ⟨_, .cons (.take rfl) (.cons (.take rfl) (.cons (.send rfl) (.cons (.take rfl)
      (.cons (.send rfl) (.cons (.send rfl) (.nil _)))))), ⟨rfl, by simp [workers]⟩, rfl⟩
  have hnone : (Extractor.ofLambda false).registry.find? "b.txt" = none := by
    rw [← Option.isNone_iff_eq_none]
    decide +kernel
  have hfails : (Extractor.ofLambda false).extract ⟨none, "b.txt", "text"⟩ none =
      .error (.unsupported "b.txt") := by
    simp [Extractor.extract, Extractor.extractDumping, Extractor.adapterFor, hnone]
  obtain ⟨p, hrun, hp, hplaces⟩ := hrun
  obtain ⟨-, -, h⟩ := batch_eq_sequential (.ofLambda false) SourceInput.threeSources none 2
    .disabled _ p hrun
  refine ⟨p, hrun, hp, hplaces, ?_⟩
  rw [(h hp).1, ← hfails]
  rfl

end Outline
