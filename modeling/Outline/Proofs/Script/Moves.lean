import Mathlib.Data.List.Infix
import Outline.Proofs.Usage

/-!
# What a script does, move by move

A script is a tree, and a `bail` deep inside of it leaves any number of scopes at once. Laid out in
time, what happens is a list of moves: actions, scopes entered, scopes left. A scope that is entered
is left again, when its body is at an end or when it is cut short, so the moves of a script are
bracketed like the script itself.

The states between are those after the initial parts of that list. What holds of all of them is
proved by induction on the list, without regard to the tree from which it comes.

* `Run.Makes`: the run ends in the state after all moves, an observer sees those scopes entered that
  a move enters, every state seen is one after an initial part, and scopes are left in the order
  opposite to that of entering.
* `run_makes`, `runAll_makes`: a script's run makes the script's moves.
-/
namespace Outline

/-! ## Moves -/

inductive ScriptMove (α : Type) where
  | act (action : α)
  | enter (frame : Frame)
  | leave (frame : Frame)
  deriving DecidableEq, Repr

namespace ScriptMove

variable {α σ : Type} [ScopeOwner σ]

def apply (perform : α → σ → Reply × σ) : ScriptMove α → σ → σ
  | .act a, s => (perform a s).2
  | .enter f, s => ScopeOwner.enter s f
  | .leave f, s => ScopeOwner.leave s f

/-- The state after some moves. -/
def after (perform : α → σ → Reply × σ) (ms : List (ScriptMove α)) (s : σ) : σ :=
  ms.foldl (fun t m => m.apply perform t) s

/-- Moves made within a scope. -/
def within (f : Frame) (ms : List (ScriptMove α)) : List (ScriptMove α) :=
  .enter f :: (ms ++ [.leave f])

variable {perform : α → σ → Reply × σ}

theorem after_cons (m : ScriptMove α) (ms : List (ScriptMove α)) (s : σ) :
    after perform (m :: ms) s = after perform ms (m.apply perform s) := rfl

theorem after_append (ms ns : List (ScriptMove α)) (s : σ) :
    after perform (ms ++ ns) s = after perform ns (after perform ms s) := List.foldl_append

theorem after_within (f : Frame) (ms : List (ScriptMove α)) (s : σ) :
    after perform (within f ms) s =
      ScopeOwner.leave (after perform ms (ScopeOwner.enter s f)) f := by
  rw [within, after_cons, after_append]
  rfl

/-! ### Scopes entered -/

/-- The scopes entered by some moves, each with the state just after. -/
def entries (perform : α → σ → Reply × σ) : List (ScriptMove α) → σ → List (Frame × σ)
  | [], _ => []
  | .enter f :: ms, s => (f, ScopeOwner.enter s f) :: entries perform ms (ScopeOwner.enter s f)
  | m :: ms, s => entries perform ms (m.apply perform s)

theorem entries_append (ms ns : List (ScriptMove α)) (s : σ) :
    entries perform (ms ++ ns) s =
      entries perform ms s ++ entries perform ns (after perform ms s) := by
  induction ms generalizing s with
  | nil => rfl
  | cons m ms ih => cases m <;> simp only [List.cons_append, entries, ih] <;> rfl

theorem entries_within (f : Frame) (ms : List (ScriptMove α)) (s : σ) :
    entries perform (within f ms) s =
      (f, ScopeOwner.enter s f) :: entries perform ms (ScopeOwner.enter s f) := by
  rw [within, entries, entries_append]
  exact congrArg _ (List.append_nil _)

/-- An initial part and the move after it: the first move, or one further on. -/
theorem snoc_prefix_cons {p ms : List (ScriptMove α)} {m n : ScriptMove α} :
    p ++ [m] <+: n :: ms ↔ (p = [] ∧ m = n) ∨ ∃ q, p = n :: q ∧ q ++ [m] <+: ms := by
  cases p with
  | nil => simp
  | cons l p =>
    rw [List.cons_append, List.cons_prefix_cons]
    constructor
    · rintro ⟨rfl, hp⟩
      exact Or.inr ⟨p, rfl, hp⟩
    · rintro (⟨⟨⟩, -⟩ | ⟨q, hq, hms⟩)
      cases hq
      exact ⟨rfl, hms⟩

theorem mem_entries {ms : List (ScriptMove α)} {s : σ} {f : Frame} {t : σ} :
    (f, t) ∈ entries perform ms s ↔
      ∃ p, p ++ [.enter f] <+: ms ∧ t = after perform (p ++ [.enter f]) s := by
  induction ms generalizing s with
  | nil => simp [entries]
  | cons m ms ih =>
    have hsplit : (∃ p, p ++ [.enter f] <+: m :: ms ∧ t = after perform (p ++ [.enter f]) s) ↔
        (m = .enter f ∧ t = m.apply perform s) ∨
          (f, t) ∈ entries perform ms (m.apply perform s) := by
      rw [ih]
      constructor
      · rintro ⟨p, hp, rfl⟩
        rcases snoc_prefix_cons.mp hp with ⟨rfl, rfl⟩ | ⟨q, rfl, hq⟩
        · exact Or.inl ⟨rfl, rfl⟩
        · exact Or.inr ⟨q, hq, rfl⟩
      · rintro (⟨rfl, rfl⟩ | ⟨q, hq, rfl⟩)
        · exact ⟨[], snoc_prefix_cons.mpr (Or.inl ⟨rfl, rfl⟩), rfl⟩
        · exact ⟨m :: q, snoc_prefix_cons.mpr (Or.inr ⟨q, rfl, hq⟩), rfl⟩
    rw [hsplit]
    cases m with
    | act a => simp [entries]
    | leave g => simp [entries]
    | enter g =>
      rw [entries, List.mem_cons, Prod.mk.injEq, enter.injEq, eq_comm (a := f)]
      rfl

/-! ### Scopes around a point -/

/-- The frames of the scopes that are open after some moves, innermost first, when those before are
given. There is no answer if another scope than the innermost is left. -/
def around? : List (ScriptMove α) → List Frame → Option (List Frame)
  | [], fs => some fs
  | .act _ :: ms, fs => around? ms fs
  | .enter f :: ms, fs => around? ms (f :: fs)
  | .leave f :: ms, g :: fs => if f = g then around? ms fs else none
  | .leave _ :: _, [] => none

theorem around?_append (ms ns : List (ScriptMove α)) (fs : List Frame) :
    around? (ms ++ ns) fs = (around? ms fs).bind (around? ns) := by
  induction ms generalizing fs with
  | nil => rfl
  | cons m ms ih =>
    cases m with
    | act a => simp only [List.cons_append, around?, ih]
    | enter f => simp only [List.cons_append, around?, ih]
    | leave f =>
      cases fs with
      | nil => rfl
      | cons g fs =>
        simp only [List.cons_append, around?]
        split
        · exact ih fs
        · rfl

theorem around?_within {f : Frame} {ms : List (ScriptMove α)} {fs : List Frame}
    (h : around? ms (f :: fs) = some (f :: fs)) : around? (within f ms) fs = some fs := by
  rw [within, around?, around?_append, h]
  simp [around?]

end ScriptMove

/-! ## Moves of scripts -/

namespace Script

variable {α σ : Type} [ScopeOwner σ]

mutual

/-- What a step does, from a given state. -/
def moves (perform : α → σ → Reply × σ) : Script α → σ → List (ScriptMove α)
  | .act a, _ => [.act a]
  | .enter f body, s => ScriptMove.within f (movesAll perform body (ScopeOwner.enter s f))
  | .enterNew a body, s =>
    match perform a s with
    | (.frame f, t) => .act a :: ScriptMove.within f (movesAll perform body (ScopeOwner.enter t f))
    | _ => [.act a]
  | .attempt body, s => movesAll perform body s
  | .bail, _ => []

def movesAll (perform : α → σ → Reply × σ) : List (Script α) → σ → List (ScriptMove α)
  | [], _ => []
  | step :: rest, s =>
    let r := run perform step s
    moves perform step s ++ if r.completed then movesAll perform rest r.state else []

end

end Script

/-! ## Runs make their moves -/

/-- The scope that an event shows entered, with the state just after. -/
def Event.opening? {α σ : Type} : Event α σ → Option (Frame × σ)
  | .entered f s => some (f, s)
  | .done _ _ _ => none

section

variable {α σ : Type} [ScopeOwner σ]

/-- The run makes these moves, from `s`. -/
structure Run.Makes (perform : α → σ → Reply × σ) (s : σ) (ms : List (ScriptMove α)) (r : Run α σ) :
    Prop where
  ends : r.state = ScriptMove.after perform ms s
  enters : r.events.filterMap Event.opening? = ScriptMove.entries perform ms s
  shows : ∀ e ∈ r.events, ∃ p, p <+: ms ∧ e.state = ScriptMove.after perform p s
  /-- Every scope entered is left, and the innermost first. -/
  nested : ∀ fs, ScriptMove.around? ms fs = some fs

variable {perform : α → σ → Reply × σ} {s t : σ} {ms ns : List (ScriptMove α)} {r q : Run α σ}

namespace Run

theorem Makes.leaving {f : Frame} (step : Script α)
    (h : Makes perform (ScopeOwner.enter s f) ms r) :
    Makes perform s (ScriptMove.within f ms) (r.leaving step f (ScopeOwner.enter s f)) where
  ends := by
    rw [ScriptMove.after_within, ← h.ends]
    rfl
  enters := by
    have hdone : (if r.completed then [Event.done step .entered (ScopeOwner.leave r.state f)]
        else []).filterMap Event.opening? = [] := by
      split <;> rfl
    rw [ScriptMove.entries_within, ← h.enters]
    simp only [Run.leaving, List.filterMap_append, List.filterMap_cons, hdone, List.append_nil,
      Event.opening?]
  shows e he := by
    simp only [Run.leaving, List.cons_append, List.mem_cons, List.mem_append] at he
    rcases he with rfl | he | he
    · exact ⟨[.enter f], List.cons_prefix_cons.mpr ⟨rfl, List.nil_prefix⟩, rfl⟩
    · obtain ⟨p, hp, he⟩ := h.shows e he
      exact ⟨.enter f :: p, List.cons_prefix_cons.mpr ⟨rfl, hp.trans (List.prefix_append ..)⟩, he⟩
    · refine ⟨ScriptMove.within f ms, List.prefix_rfl, ?_⟩
      rw [ScriptMove.after_within, ← h.ends]
      split at he
      · rw [List.mem_singleton.mp he]
        rfl
      · cases he
  nested fs := ScriptMove.around?_within (h.nested (f :: fs))

/-- A step that makes one action and is then at an end. -/
theorem makes_act (a : α) (step : Script α) (reply : Reply) (h : (perform a s).2 = t) :
    Makes perform s [.act a] ⟨t, [.done step reply t], true⟩ where
  ends := h.symm
  enters := rfl
  shows e he := ⟨[.act a], List.prefix_rfl, by rw [List.mem_singleton.mp he]; exact h.symm⟩
  nested _ := rfl

theorem Makes.act_cons (a : α) (h : (perform a s).2 = t) (hr : Makes perform t ms r) :
    Makes perform s (.act a :: ms) r := by
  subst h
  refine ⟨hr.ends, hr.enters, fun e he => ?_, hr.nested⟩
  obtain ⟨p, hp, hstate⟩ := hr.shows e he
  exact ⟨.act a :: p, List.cons_prefix_cons.mpr ⟨rfl, hp⟩, hstate⟩

theorem Makes.append (hr : Makes perform s ms r) (hq : Makes perform r.state ns q) (b : Bool) :
    Makes perform s (ms ++ ns) ⟨q.state, r.events ++ q.events, b⟩ where
  ends := by rw [ScriptMove.after_append, ← hr.ends, hq.ends]
  enters := by rw [List.filterMap_append, hr.enters, hq.enters, ScriptMove.entries_append, hr.ends]
  shows e he := by
    rcases List.mem_append.mp he with he | he
    · obtain ⟨p, hp, hstate⟩ := hr.shows e he
      exact ⟨p, hp.trans (List.prefix_append ..), hstate⟩
    · obtain ⟨p, hp, hstate⟩ := hq.shows e he
      refine ⟨ms ++ p, (List.prefix_append_right_inj ms).mpr hp, ?_⟩
      rw [hstate, ScriptMove.after_append, hr.ends]
  nested fs := by rw [ScriptMove.around?_append, hr.nested fs, Option.bind_some, hq.nested fs]

/-- The scopes that an observer sees entered are those that a move enters. -/
theorem Makes.entered_iff (h : Makes perform s ms r) {f : Frame} :
    .entered f t ∈ r.events ↔
      ∃ p, p ++ [.enter f] <+: ms ∧ t = ScriptMove.after perform (p ++ [.enter f]) s := by
  rw [← ScriptMove.mem_entries, ← h.enters, List.mem_filterMap]
  constructor
  · intro he
    exact ⟨_, he, rfl⟩
  · rintro ⟨e, he, hopening⟩
    cases e with
    | entered => cases hopening; exact he
    | done => cases hopening

/-- After any initial part of the moves it is known which scopes are open. -/
theorem Makes.exists_around (h : Makes perform s ms r) {p : List (ScriptMove α)} (hp : p <+: ms) :
    ∃ fs, ScriptMove.around? p [] = some fs := by
  obtain ⟨q, rfl⟩ := hp
  have hall := h.nested []
  rw [ScriptMove.around?_append, Option.bind_eq_some_iff] at hall
  obtain ⟨fs, hfs, -⟩ := hall
  exact ⟨fs, hfs⟩

theorem makes_none (s : σ) (b : Bool) : Makes perform s [] (⟨s, [], b⟩ : Run α σ) where
  ends := rfl
  enters := rfl
  shows _ he := by cases he
  nested _ := rfl

end Run

namespace Script

mutual

theorem run_makes : ∀ (step : Script α) (s : σ),
    (step.run perform s).Makes perform s (step.moves perform s)
  | .act a, s => by
    rw [run, moves]
    exact Run.makes_act a _ _ rfl
  | .enter f body, s => by
    rw [run, moves]
    exact (runAll_makes body _).leaving _
  | .enterNew a body, s => by
    rcases hp : perform a s with ⟨reply, t⟩
    have ht : (perform a s).2 = t := congrArg Prod.snd hp
    rw [run, moves, hp]
    cases reply with
    | frame f => exact ((runAll_makes body _).leaving _).act_cons a ht
    | nothing | refused | entered | completed => exact Run.makes_act a _ _ ht
  | .attempt body, s => by
    rw [run, moves]
    have hbody := runAll_makes body s
    -- the event at the end shows the state in which the body ended
    refine ⟨hbody.ends, ?_, fun e he => ?_, hbody.nested⟩
    · rw [List.filterMap_append, hbody.enters]
      exact List.append_nil _
    · rcases List.mem_append.mp he with he | he
      · exact hbody.shows e he
      · rw [List.mem_singleton.mp he]
        exact ⟨_, List.prefix_rfl, hbody.ends⟩
  | .bail, s => by
    rw [run, moves]
    exact Run.makes_none s false

theorem runAll_makes : ∀ (steps : List (Script α)) (s : σ),
    (runAll perform steps s).Makes perform s (movesAll perform steps s)
  | [], s => by
    rw [runAll, movesAll]
    exact Run.makes_none s true
  | step :: rest, s => by
    have hstep := run_makes step s
    rw [runAll, movesAll]
    split
    · exact hstep.append (runAll_makes rest _) _
    · rw [List.append_nil]
      exact hstep

end

end Script
end
end Outline
