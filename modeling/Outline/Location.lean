import Outline.Bounds

/-!
# Line spans

A declaration's location is the span of its lines, counted from one, both ends included. Spans
built from a syntax tree are valid (`Location.ofLines?`); spans read from a text need not be.
-/
namespace Outline

structure Location where
  startLine : Nat
  endLine : Nat
  deriving DecidableEq, Repr, Inhabited

namespace Location

/-- Line one or later, and not ending before it starts. -/
def Valid (l : Location) : Prop := 1 ≤ l.startLine ∧ l.startLine ≤ l.endLine

instance (l : Location) : Decidable l.Valid := inferInstanceAs (Decidable (_ ∧ _))

/-- mirrors `Location.new` -/
def ofLines? (startLine endLine : Nat) : Option Location :=
  if 1 ≤ startLine ∧ startLine ≤ endLine then some ⟨startLine, endLine⟩ else none

/-- The number of lines, where it is a 64-bit number: a span that ends before it starts has none,
and neither has the span from line zero to the last 64-bit line.
mirrors `Location.line_count` -/
def lineCount? (l : Location) : Option Nat :=
  if l.startLine ≤ l.endLine ∧ l.endLine - l.startLine + 1 < wordBound then
    some (l.endLine - l.startLine + 1)
  else none

def contains (outer inner : Location) : Bool :=
  outer.startLine ≤ inner.startLine && inner.endLine ≤ outer.endLine

def render (l : Location) : String := toString l.startLine ++ "-" ++ toString l.endLine

theorem ofLines?_eq_some_iff {s e : Nat} {l : Location} :
    ofLines? s e = some l ↔ l = ⟨s, e⟩ ∧ l.Valid := by
  unfold ofLines? Valid
  split
  · constructor
    · intro h; cases h; exact ⟨rfl, by assumption⟩
    · rintro ⟨rfl, -⟩; rfl
  · constructor
    · intro h; cases h
    · rintro ⟨rfl, h⟩; exact absurd h (by assumption)

end Location
end Outline
