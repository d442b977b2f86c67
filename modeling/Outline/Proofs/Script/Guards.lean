import Outline.Proofs.Script.Moves
import Outline.Proofs.Walk.Scopes

/-!
# Scopes restore the stack

A script that leaves the scope stack to its scopes ends with the stack that it began with, by
whichever way it ends. Until then the stack is the one at the start with the frames of the open
scopes on it: entering puts a frame there, leaving takes back the frame that was put there last, and
no action touches it.

* `scopes_after`: this holds after every initial part of the moves, by induction on the moves.
* `restores_of_useAll`: so it is with any owner and actions that do not touch the stack.
* `scopes_restored`: stacks by themselves and extractions.
-/
namespace Outline

/-! ## Frames on a stack -/

namespace ScopeStack

/-- The stack with more frames on it, innermost first. -/
def beneath (k : ScopeStack) (fs : List Frame) : ScopeStack := { k with inner := fs ++ k.inner }

theorem beneath_cons (k : ScopeStack) (f : Frame) (fs : List Frame) :
    k.beneath (f :: fs) = (k.beneath fs).push f := rfl

theorem frames_beneath (k : ScopeStack) (fs : List Frame) :
    (k.beneath fs).frames = k.frames ++ fs.reverse := by
  simp [beneath, frames]

end ScopeStack

/-! ## Scripts that leave the stack to their scopes -/

namespace Script

variable {α σ : Type} [ScopeOwner σ] {perform : α → σ → Reply × σ} {q : α → Bool}

mutual

theorem uses_of_mem_moves : ∀ (step : Script α) (s : σ), step.uses q = true →
    ∀ a, .act a ∈ step.moves perform s → q a = true
  | .act b, s, h, a, ha => by
    rw [moves, List.mem_singleton] at ha
    cases ha
    exact h
  | .enter f body, s, h, a, ha => by
    rw [moves] at ha
    exact useAll_of_mem_moves body _ h a (by simpa [ScriptMove.within] using ha)
  | .enterNew b body, s, h, a, ha => by
    rw [uses, Bool.and_eq_true] at h
    rcases hp : perform b s with ⟨reply, t⟩
    rw [moves, hp] at ha
    cases reply with
    | frame f =>
      simp only [ScriptMove.within, List.mem_cons, List.mem_append, ScriptMove.act.injEq,
        reduceCtorEq, false_or, List.not_mem_nil, or_false] at ha
      rcases ha with rfl | ha
      · exact h.1
      · exact useAll_of_mem_moves body _ h.2 a ha
    | nothing | refused | entered | completed =>
      rw [List.mem_singleton] at ha
      cases ha
      exact h.1
  | .attempt body, s, h, a, ha => by
    rw [moves] at ha
    exact useAll_of_mem_moves body s h a ha
  | .bail, s, h, a, ha => by
    rw [moves] at ha
    cases ha

theorem useAll_of_mem_moves : ∀ (steps : List (Script α)) (s : σ), useAll q steps = true →
    ∀ a, .act a ∈ movesAll perform steps s → q a = true
  | [], s, h, a, ha => by
    rw [movesAll] at ha
    cases ha
  | step :: rest, s, h, a, ha => by
    rw [useAll, Bool.and_eq_true] at h
    rw [movesAll, List.mem_append] at ha
    rcases ha with ha | ha
    · exact uses_of_mem_moves step s h.1 a ha
    · split at ha
      · exact useAll_of_mem_moves rest _ h.2 a ha
      · cases ha

end

/-! ## The stack under the open scopes -/

/-- The action leaves the scope stack alone. -/
def KeepsScopes (perform : α → σ → Reply × σ) (a : α) : Prop :=
  ∀ s, ScopeOwner.scopes (perform a s).2 = ScopeOwner.scopes s

/-- After moves that touch the stack by entering and leaving only, it has the frames of the open
scopes on it. -/
theorem scopes_after {k : ScopeStack} {ms : List (ScriptMove α)} {s : σ} {fs gs : List Frame}
    (hacts : ∀ a, .act a ∈ ms → KeepsScopes perform a) (hopen : ScriptMove.around? ms fs = some gs)
    (hs : ScopeOwner.scopes s = k.beneath fs) :
    ScopeOwner.scopes (ScriptMove.after perform ms s) = k.beneath gs := by
  induction ms generalizing s fs with
  | nil =>
    obtain rfl : fs = gs := by simpa [ScriptMove.around?] using hopen
    exact hs
  | cons m ms ih =>
    have hrest : ∀ a, .act a ∈ ms → KeepsScopes perform a :=
      fun a ha => hacts a (List.mem_cons_of_mem _ ha)
    rw [ScriptMove.after_cons]
    cases m with
    | act a =>
      have hkeeps := hacts a List.mem_cons_self s
      exact ih hrest hopen (hkeeps.trans hs)
    | enter f =>
      refine ih hrest hopen ?_
      rw [ScriptMove.apply, ScopeOwner.scopes_enter, hs, ScopeStack.beneath_cons]
    | leave f =>
      cases fs with
      | nil => cases hopen
      | cons g fs =>
        rw [ScriptMove.around?] at hopen
        split at hopen
        · rename_i hfg
          -- what is released is the frame pushed last, so nothing else is popped in its place
          refine ih hrest hopen ?_
          rw [ScriptMove.apply, ScopeOwner.scopes_leave, hs, hfg, ScopeStack.beneath_cons,
            ScopeStack.release_push]
        · cases hopen

/-- The scopes of a script, run from `s`, have the frames of the scopes around them beneath their
own, and give the stack back as they found it. -/
structure Restores (perform : α → σ → Reply × σ) (steps : List (Script α)) (s : σ) : Prop where
  /-- Just after entering `f`, where the scopes `fs` are open. -/
  entered : ∀ p f, p ++ [.enter f] <+: movesAll perform steps s →
    ∃ fs, ScriptMove.around? p [] = some fs ∧
      let k := ScopeOwner.scopes (ScriptMove.after perform (p ++ [.enter f]) s)
      k.depth = (ScopeOwner.scopes s).depth + (fs.length + 1) ∧ k.peek = f ∧
        k.frames = (ScopeOwner.scopes s).frames ++ fs.reverse ++ [f] ∧
        k.faults = (ScopeOwner.scopes s).faults
  seen : ∀ f t, .entered f t ∈ (runAll perform steps s).events ↔
    ∃ p, p ++ [.enter f] <+: movesAll perform steps s ∧
      t = ScriptMove.after perform (p ++ [.enter f]) s
  /-- At the end, whether the script ran to it or was left by `bail`. -/
  restored : ScopeOwner.scopes (runAll perform steps s).state = ScopeOwner.scopes s

theorem restores_of_useAll (hq : ∀ a, q a = true → KeepsScopes perform a)
    {steps : List (Script α)} (h : useAll q steps = true) (s : σ) : Restores perform steps s := by
  have hmakes : (runAll perform steps s).Makes perform s (movesAll perform steps s) :=
    runAll_makes steps s
  have hacts : ∀ a, .act a ∈ movesAll perform steps s → KeepsScopes perform a :=
    fun a ha => hq a (useAll_of_mem_moves steps s h a ha)
  refine ⟨fun p f hp => ?_, fun f t => hmakes.entered_iff, ?_⟩
  · have hpre : p <+: movesAll perform steps s := (List.prefix_append p _).trans hp
    obtain ⟨fs, hfs⟩ := hmakes.exists_around hpre
    have hscopes : ScopeOwner.scopes (ScriptMove.after perform p s) =
        (ScopeOwner.scopes s).beneath fs :=
      scopes_after (fun a ha => hacts a (hpre.subset ha)) hfs rfl
    have hentered : ScopeOwner.scopes (ScriptMove.after perform (p ++ [.enter f]) s) =
        ((ScopeOwner.scopes s).beneath fs).push f := by
      rw [ScriptMove.after_append, ← hscopes]
      exact ScopeOwner.scopes_enter ..
    refine ⟨fs, hfs, ?_⟩
    simp only [hentered]
    refine ⟨?_, rfl, ?_, rfl⟩
    · rw [ScopeStack.depth_push, ← ScopeStack.length_frames, ← ScopeStack.length_frames,
        ScopeStack.frames_beneath, List.length_append, List.length_reverse, Nat.add_assoc]
    · rw [ScopeStack.frames_push, ScopeStack.frames_beneath]
  · rw [hmakes.ends]
    exact scopes_after hacts (hmakes.nested []) rfl

end Script

/-! ## Stacks and extractions -/

theorem ScopeAction.keepsScopes {σ : Type} [ScopeOwner σ] {a : ScopeAction}
    (h : (!a.isDirect) = true) : Script.KeepsScopes (σ := σ) ScopeAction.perform a := by
  intro s
  cases a with
  | idle => rfl
  | push f => cases h
  | pop => cases h

theorem ExtractionAction.keepsScopes {a : ExtractionAction} (h : (!a.isDirect) = true) :
    Script.KeepsScopes perform a := by
  intro x
  cases a with
  | function shape => exact x.recordFunction_scopes shape
  | classLike shape => exact x.recordClass_scopes shape
  | scope action => exact ScopeAction.keepsScopes h x
  | line text => rfl
  | walk a source s => exact Walk.run_scopes (Walk.inStep_start x s)

theorem Extraction.isOk_finish (x : Extraction) : x.finish.isOk = x.scopes.finish.isOk := by
  unfold finish
  cases x.scopes.finish <;> rfl

namespace Script

variable {α σ : Type} [ScopeOwner σ] {perform : α → σ → Reply × σ} {a : α} {s t : σ}

/-- An action that answers no frame enters nothing, and what would be done within is not done. -/
theorem enterNew_of_nothing (h : perform a s = (.nothing, t)) (body : List (Script α)) :
    (enterNew a body).run perform s = ⟨t, [.done (.enterNew a body) .nothing t], true⟩ ∧
      (enterNew a body).moves perform s = [.act a] := by
  rw [run, moves, h]
  exact ⟨rfl, rfl⟩

end Script

/-- **Scopes restore the stack.** A script on a stack, or on an extraction, that pushes and pops
nothing by itself ends with the frames and the faults it began with, whether it ran to its end or
was left by `bail`. Just after entering a scope the stack is deeper than at the start by the scopes
around that point, the new one included, whose frame is innermost; an observer sees every such point
and no other. So finishing succeeds afterwards if and only if it would have before. A function or
class that is malformed is skipped, and with it the steps within its scope, which is not entered. -/
theorem scopes_restored :
    (∀ (k : ScopeStack) (steps : List (Script ScopeAction)),
      Script.useAll (!·.isDirect) steps = true →
        Script.Restores ScopeAction.perform steps k ∧ (k.runScript steps).state.finish = k.finish) ∧
    (∀ (x : Extraction) (steps : List (Script ExtractionAction)),
      Script.useAll (!·.isDirect) steps = true →
        Script.Restores ExtractionAction.perform steps x ∧
          (x.runScript steps).state.finish.isOk = x.finish.isOk) ∧
    (∀ (x : Extraction) (shape : FunctionShape) (body : List (Script ExtractionAction)) missing,
      shape.check = .error missing →
        let skipped := x.skip .function missing shape.lines.1
        let step := Script.enterNew (.function shape) body
        step.run ExtractionAction.perform x = ⟨skipped, [.done step .nothing skipped], true⟩ ∧
          step.moves ExtractionAction.perform x = [.act (.function shape)]) ∧
    (∀ (x : Extraction) (shape : ClassShape) (body : List (Script ExtractionAction)) missing,
      shape.check = .error missing →
        let skipped := x.skip .classLike missing shape.lines.1
        let step := Script.enterNew (.classLike shape) body
        step.run ExtractionAction.perform x = ⟨skipped, [.done step .nothing skipped], true⟩ ∧
          step.moves ExtractionAction.perform x = [.act (.classLike shape)]) := by
  refine ⟨fun k steps h => ?_, fun x steps h => ?_, fun x shape body missing h => ?_,
    fun x shape body missing h => ?_⟩
  · have hr := Script.restores_of_useAll (fun _ ha => ScopeAction.keepsScopes ha) h k
    exact ⟨hr, congrArg ScopeStack.finish hr.restored⟩
  · have hr := Script.restores_of_useAll (fun _ ha => ExtractionAction.keepsScopes ha) h x
    refine ⟨hr, ?_⟩
    rw [Extraction.isOk_finish, Extraction.isOk_finish]
    exact congrArg (·.finish.isOk) hr.restored
  · refine Script.enterNew_of_nothing ?_ body
    rw [ExtractionAction.perform, Extraction.recordFunction, h]
    rfl
  · refine Script.enterNew_of_nothing ?_ body
    rw [ExtractionAction.perform, Extraction.recordClass, h]
    rfl

/-- Two scopes of the same frame are left at once, then a function's, after a class without a name
was skipped within. -/
def Script.hurried : List (Script ExtractionAction) :=
  let method : Frame := ⟨"f/function:9", .function⟩
  [.attempt [.enter method [.enter method [.bail]]],
    .enterNew (.function ⟨.declared, some "run", true, true, (1, 4), none, false⟩)
      [.enterNew (.classLike ⟨none, true, (2, 3)⟩) [.bail], .enter method [.bail]],
    .act (.line "not written")]

theorem scopes_restored_hurried :
    let begun := Extraction.start (.empty "f" "f.py" .python) .disabled
    let guarded : ScopeStack := { root := ⟨"f", .file⟩, inner := [⟨"c", .classLike⟩], faults := 1 }
    Script.useAll (!·.isDirect) Script.hurried = true ∧
    (begun.runScript Script.hurried).completed = false ∧
    (begun.runScript Script.hurried).state.malformed = #[⟨.classLike, .name, 2⟩] ∧
    (begun.runScript Script.hurried).events.filterMap (·.opening?.map (·.2.scopes.depth)) =
      [2, 3, 2, 3] ∧
    (begun.runScript Script.hurried).state.scopes = begun.scopes ∧
    (begun.runScript Script.hurried).state.finish.isOk = begun.finish.isOk ∧
    (guarded.runScript [.enter ⟨"c", .classLike⟩ [.act .idle, .bail]]).state.finish =
      .error (.outOfOrder 1) := by
  intro begun guarded
  have hrun := scopes_restored.2.1 begun Script.hurried (by decide)
  have hstack := scopes_restored.1 guarded [.enter ⟨"c", .classLike⟩ [.act .idle, .bail]]
    (by decide)
  exact ⟨by decide, by decide +kernel, by decide +kernel, by decide +kernel, hrun.1.restored,
    hrun.2, hstack.2⟩

end Outline
