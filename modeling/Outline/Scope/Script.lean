import Outline.Scope

/-!
# Scripts that enter and leave scopes

A script is a tree of steps on a state that owns a scope stack. Entering a scope brackets its body:
the frame is pushed before the body and released after it, whether the body ran to its end or was
left by `bail`. A `bail` leaves every scope around it up to the nearest `attempt`, or ends the run.

Running a script yields the events that an observer sees: one after each step that was not left by
`bail`, and one on entering a scope, before the body.
-/
namespace Outline

/-- A state that owns a scope stack. -/
class ScopeOwner (σ : Type) where
  scopes : σ → ScopeStack
  setScopes : σ → ScopeStack → σ
  scopes_setScopes (s : σ) (k : ScopeStack) : scopes (setScopes s k) = k
  setScopes_scopes (s : σ) : setScopes s (scopes s) = s
  setScopes_setScopes (s : σ) (k l : ScopeStack) : setScopes (setScopes s k) l = setScopes s l

instance : ScopeOwner ScopeStack where
  scopes s := s
  setScopes _ k := k
  scopes_setScopes _ _ := rfl
  setScopes_scopes _ := rfl
  setScopes_setScopes _ _ _ := rfl

namespace ScopeOwner

variable {σ : Type} [ScopeOwner σ]

/-- mirrors `ScopeGuard.enter` -/
def enter (s : σ) (f : Frame) : σ := setScopes s ((scopes s).push f)

/-- mirrors the drop of a `ScopeGuard` -/
def leave (s : σ) (f : Frame) : σ := setScopes s ((scopes s).release f)

@[simp] theorem scopes_enter (s : σ) (f : Frame) : scopes (enter s f) = (scopes s).push f :=
  scopes_setScopes ..

@[simp] theorem scopes_leave (s : σ) (f : Frame) : scopes (leave s f) = (scopes s).release f :=
  scopes_setScopes ..

end ScopeOwner

/-- What a step answers. -/
inductive Reply where
  | nothing
  | frame (f : Frame)
  | refused (e : Imbalance)
  | entered
  | completed (b : Bool)
  deriving DecidableEq, Repr, Inhabited

/-- Steps over actions of type `α`. -/
inductive Script (α : Type) where
  | act (action : α)
  | enter (frame : Frame) (body : List (Script α))
  /-- Performs the action and enters the frame that it answers, if it answers one. -/
  | enterNew (action : α) (body : List (Script α))
  | attempt (body : List (Script α))
  | bail

inductive Event (α σ : Type) where
  | entered (frame : Frame) (state : σ)
  | done (step : Script α) (reply : Reply) (state : σ)

/-- The state in which a script ends, what was seen on the way, and whether it ran to its end. -/
structure Run (α σ : Type) where
  state : σ
  events : List (Event α σ)
  completed : Bool

/-- Leaves the scope of `frame` after its body, also when the body was left by `bail`. -/
def Run.leaving {α σ : Type} [ScopeOwner σ] (step : Script α) (frame : Frame) (opened : σ)
    (body : Run α σ) : Run α σ :=
  let closed := ScopeOwner.leave body.state frame
  { state := closed
    events := .entered frame opened :: body.events ++
      (if body.completed then [.done step .entered closed] else [])
    completed := body.completed }

namespace Script

variable {α σ : Type} [ScopeOwner σ]

mutual

def run (perform : α → σ → Reply × σ) : Script α → σ → Run α σ
  | .act a, s =>
    let (reply, t) := perform a s
    ⟨t, [.done (.act a) reply t], true⟩
  | .enter f body, s =>
    let opened := ScopeOwner.enter s f
    (runAll perform body opened).leaving (.enter f body) f opened
  | .enterNew a body, s =>
    match perform a s with
    | (.frame f, t) =>
      let opened := ScopeOwner.enter t f
      (runAll perform body opened).leaving (.enterNew a body) f opened
    | (reply, t) => ⟨t, [.done (.enterNew a body) reply t], true⟩
  | .attempt body, s =>
    let r := runAll perform body s
    ⟨r.state, r.events ++ [.done (.attempt body) (.completed r.completed) r.state], true⟩
  | .bail, s => ⟨s, [], false⟩

def runAll (perform : α → σ → Reply × σ) : List (Script α) → σ → Run α σ
  | [], s => ⟨s, [], true⟩
  | step :: rest, s =>
    let r := run perform step s
    if r.completed then
      let r' := runAll perform rest r.state
      ⟨r'.state, r.events ++ r'.events, r'.completed⟩
    else r

end

end Script

/-! ## Actions on the stack itself -/

/-- What can be done to a scope stack behind the back of the scopes that are open. -/
inductive ScopeAction where
  | push (frame : Frame)
  | pop
  | idle
  deriving DecidableEq, Repr, Inhabited

/-- A refused `pop` leaves the state as it is. -/
def ScopeAction.perform {σ : Type} [ScopeOwner σ] : ScopeAction → σ → Reply × σ
  | .push f, s => (.nothing, ScopeOwner.enter s f)
  | .pop, s =>
    match (ScopeOwner.scopes s).pop? with
    | some (f, k) => (.frame f, ScopeOwner.setScopes s k)
    | none => (.refused .popAtRoot, s)
  | .idle, s => (.nothing, s)

end Outline
