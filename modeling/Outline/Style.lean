/-!
# Text styles

Styles are written as escape sequences for a terminal: a colour, and whether the text is bold. A
style without either adds nothing.
-/
namespace Outline

inductive Colour where
  | red
  | green
  | yellow
  | magenta
  | cyan
  | brightBlack
  deriving DecidableEq, Repr, Inhabited

def Colour.code : Colour → Nat
  | .red => 31
  | .green => 32
  | .yellow => 33
  | .magenta => 35
  | .cyan => 36
  | .brightBlack => 90

structure Style where
  colour : Option Colour := none
  bold : Bool := false
  deriving DecidableEq, Repr, Inhabited

namespace Style

/-- The numbers of a style's escape sequence, the colour first. -/
def codes (s : Style) : List Nat :=
  (s.colour.map Colour.code).toList ++ (if s.bold then [1] else [])

def apply (s : Style) (text : String) : String :=
  match s.codes with
  | [] => text
  | codes => "\x1b[" ++ ";".intercalate (codes.map toString) ++ "m" ++ text ++ "\x1b[0m"

end Style

/-- What is styled, and how. -/
structure Theme where
  heading : Style := {}
  classLike : Style := {}
  function : Style := {}
  constructor : Style := {}
  error : Style := {}
  warning : Style := {}
  muted : Style := {}
  deriving DecidableEq, Repr, Inhabited

namespace Theme

def plain : Theme := {}

def coloured : Theme where
  heading := ⟨some .cyan, true⟩
  classLike := ⟨some .magenta, true⟩
  function := ⟨some .green, false⟩
  constructor := ⟨some .yellow, false⟩
  error := ⟨some .red, true⟩
  warning := ⟨some .yellow, true⟩
  muted := ⟨some .brightBlack, false⟩

/-- Colours are for terminals.
mirrors `Theme.detect` -/
def detect (isTerminal : Bool) : Theme := if isTerminal then coloured else plain

end Theme
end Outline
