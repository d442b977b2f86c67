import Mathlib.Data.List.Forall2
import Outline.Scope.Script

/-!
# Scripts on related states

Two runs of one script, on states that may be of different types. If the states at the start are
related, the relation sees to it that their scope stacks are the same, and no action breaks it, then
the runs go through the same steps side by side: they show the same events in related states, give
the same replies, and end in the same way.

* `related_leaving`: entering and leaving a scope around related runs.
* `run_related`, `runAll_related`: a script keeps the relation.
-/
namespace Outline

variable {α σ τ : Type}

/-- The same event, seen in related states. -/
inductive Event.Related (R : σ → τ → Prop) : Event α σ → Event α τ → Prop where
  | entered (frame : Frame) {s : σ} {t : τ} (h : R s t) :
    Related R (.entered frame s) (.entered frame t)
  | done (step : Script α) (reply : Reply) {s : σ} {t : τ} (h : R s t) :
    Related R (.done step reply s) (.done step reply t)

/-- Two runs side by side. -/
structure Run.Related (R : σ → τ → Prop) (r : Run α σ) (q : Run α τ) : Prop where
  state : R r.state q.state
  events : List.Forall₂ (Event.Related R) r.events q.events
  completed : r.completed = q.completed

/-- What a relation needs to be kept by every script. -/
structure Simulates [ScopeOwner σ] [ScopeOwner τ] (R : σ → τ → Prop)
    (perform : α → σ → Reply × σ) (perform' : α → τ → Reply × τ) : Prop where
  scopes : ∀ {s t}, R s t → ScopeOwner.scopes s = ScopeOwner.scopes t
  setScopes : ∀ {s t}, R s t → ∀ k, R (ScopeOwner.setScopes s k) (ScopeOwner.setScopes t k)
  reply : ∀ {s t}, R s t → ∀ a, (perform a s).1 = (perform' a t).1
  perform : ∀ {s t}, R s t → ∀ a, R (perform a s).2 (perform' a t).2

namespace Simulates

variable [ScopeOwner σ] [ScopeOwner τ] {R : σ → τ → Prop} {perform : α → σ → Reply × σ}
  {perform' : α → τ → Reply × τ}

theorem enter (h : Simulates R perform perform') {s : σ} {t : τ} (hst : R s t) (f : Frame) :
    R (ScopeOwner.enter s f) (ScopeOwner.enter t f) := by
  rw [ScopeOwner.enter, ScopeOwner.enter, h.scopes hst]
  exact h.setScopes hst _

theorem leave (h : Simulates R perform perform') {s : σ} {t : τ} (hst : R s t) (f : Frame) :
    R (ScopeOwner.leave s f) (ScopeOwner.leave t f) := by
  rw [ScopeOwner.leave, ScopeOwner.leave, h.scopes hst]
  exact h.setScopes hst _

theorem related_leaving (h : Simulates R perform perform') {step : Script α} {f : Frame}
    {s : σ} {t : τ} (hst : R s t) {r : Run α σ} {q : Run α τ} (hrq : Run.Related R r q) :
    Run.Related R (r.leaving step f s) (q.leaving step f t) := by
  have hleave := h.leave hrq.state f
  refine ⟨hleave, .cons (.entered f hst) (List.rel_append hrq.events ?_), hrq.completed⟩
  rw [hrq.completed]
  split
  · exact .cons (.done step .entered hleave) .nil
  · exact .nil

mutual

theorem run_related (h : Simulates R perform perform') : ∀ (step : Script α) {s : σ} {t : τ},
    R s t → Run.Related R (step.run perform s) (step.run perform' t)
  | .act a, s, t, hst => by
    rw [Script.run, Script.run]
    have hr := h.reply hst a
    have hp := h.perform hst a
    exact ⟨hp, .cons (hr ▸ .done _ _ hp) .nil, rfl⟩
  | .enter f body, s, t, hst => by
    rw [Script.run, Script.run]
    have henter := h.enter hst f
    exact h.related_leaving henter (h.runAll_related body henter)
  | .enterNew a body, s, t, hst => by
    rw [Script.run, Script.run]
    have hr := h.reply hst a
    have hp := h.perform hst a
    generalize perform a s = p, perform' a t = q at hr hp
    obtain ⟨reply, u⟩ := p
    obtain ⟨reply', v⟩ := q
    obtain rfl : reply = reply' := hr
    cases reply with
    | frame f =>
      have henter := h.enter hp f
      exact h.related_leaving henter (h.runAll_related body henter)
    | nothing | refused | entered | completed => exact ⟨hp, .cons (.done _ _ hp) .nil, rfl⟩
  | .attempt body, s, t, hst => by
    rw [Script.run, Script.run]
    have hbody := h.runAll_related body hst
    refine ⟨hbody.state, List.rel_append hbody.events ?_, rfl⟩
    rw [hbody.completed]
    exact .cons (.done _ _ hbody.state) .nil
  | .bail, s, t, hst => by
    rw [Script.run, Script.run]
    exact ⟨hst, .nil, rfl⟩

theorem runAll_related (h : Simulates R perform perform') : ∀ (steps : List (Script α)) {s : σ}
    {t : τ}, R s t → Run.Related R (Script.runAll perform steps s) (Script.runAll perform' steps t)
  | [], s, t, hst => by
    rw [Script.runAll, Script.runAll]
    exact ⟨hst, .nil, rfl⟩
  | step :: rest, s, t, hst => by
    rw [Script.runAll, Script.runAll]
    have hstep := h.run_related step hst
    have hrest := h.runAll_related rest hstep.state
    rw [hstep.completed]
    split
    · exact ⟨hrest.state, List.rel_append hstep.events hrest.events, hrest.completed⟩
    · exact hstep

end

end Simulates

end Outline
