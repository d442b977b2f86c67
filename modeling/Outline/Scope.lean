import Outline.Entity

/-!
# The scope stack

The frames that enclose the point a traversal has reached: the file's own frame at the bottom,
which is never removed, and the frames entered since. A scope is left by releasing the frame that
was entered; releasing in any other order is a fault, which is counted and reported at the end.
-/
namespace Outline

/-- What can be wrong with the order of entering and leaving scopes. -/
inductive Imbalance where
  | popAtRoot
  | outOfOrder (count : Nat)
  | leftOver (count : Nat)
  deriving DecidableEq, Repr, Inhabited

def Imbalance.message : Imbalance → String
  | .popAtRoot => "pop with only the file frame left"
  | .outOfOrder n => toString n ++ " scope release(s) out of order"
  | .leftOver n => toString n ++ " frame(s) left above the file frame"

structure ScopeStack where
  root : Frame
  /-- The frames above the root, innermost first. -/
  inner : List Frame := []
  faults : Nat := 0
  deriving DecidableEq, Repr, Inhabited

namespace ScopeStack

/-- All frames, outermost first. -/
def frames (s : ScopeStack) : List Frame := s.root :: s.inner.reverse

def depth (s : ScopeStack) : Nat := s.inner.length + 1

def isAtRoot (s : ScopeStack) : Bool := s.inner.isEmpty

def peek (s : ScopeStack) : Frame := s.inner.head?.getD s.root

def push (s : ScopeStack) (f : Frame) : ScopeStack := { s with inner := f :: s.inner }

/-- mirrors `ScopeStack.pop` -/
def pop? (s : ScopeStack) : Option (Frame × ScopeStack) :=
  match s.inner with
  | [] => none
  | f :: fs => some (f, { s with inner := fs })

/-- Leaves the scope of `expected`. Whatever frame is innermost goes; it is a fault if that is
another frame, or if only the root is left.
mirrors `ScopeStack.release` -/
def release (s : ScopeStack) (expected : Frame) : ScopeStack :=
  match s.pop? with
  | some (f, t) => if f = expected then t else { t with faults := t.faults + 1 }
  | none => { s with faults := s.faults + 1 }

/-- The root frame, if every scope was left in order. Faults are reported before frames that were
never left.
mirrors `ScopeStack.finish` -/
def finish (s : ScopeStack) : Except Imbalance Frame :=
  if 0 < s.faults then .error (.outOfOrder s.faults)
  else if s.isAtRoot then .ok s.root
  else .error (.leftOver s.inner.length)

@[simp] theorem peek_push (s : ScopeStack) (f : Frame) : (s.push f).peek = f := rfl

@[simp] theorem depth_push (s : ScopeStack) (f : Frame) : (s.push f).depth = s.depth + 1 := rfl

/-- Leaving the scope just entered is no fault and restores the stack. -/
@[simp] theorem release_push (s : ScopeStack) (f : Frame) : (s.push f).release f = s := by
  simp [push, release, pop?]

end ScopeStack
end Outline
