import Outline.Bounds
import Outline.Text.Binary64
import Outline.Text.Digits

/-!
# Numerals

A number as it is written, and what it stands for: an integer if it is written as one and fits into
64 bits, else a binary fraction. Negative zero is a fraction, too.
-/
namespace Outline.Json
open Text

structure Numeral where
  negative : Bool
  /-- The digits before the point. -/
  whole : List Char
  /-- The digits after it. -/
  fraction : List Char := []
  /-- Whether the exponent is negative, and its digits. -/
  exponent : Option (Bool × List Char) := none
  deriving DecidableEq, Repr, Inhabited

inductive Number where
  | natural (n : Nat)
  | negative (n : Nat)
  | fraction (isNegative : Bool) (x : Text.Binary64)
  deriving DecidableEq, Repr, Inhabited

/-- The digits that fit into 64 bits as one number, that number, and the digits that follow. -/
def leading : (value : Nat) → List Char → Nat × List Char
  | value, [] => (value, [])
  | value, c :: cs =>
    let more := value * 10 + digitValue c
    if more < wordBound then leading more cs else (value, c :: cs)

/-- The significand that fits into 64 bits, and the power of ten that goes with it. Digits that do
not fit are dropped; those before the point still count as places. -/
def Numeral.parts (x : Numeral) : Nat × Int :=
  match leading 0 x.whole with
  | (s, []) =>
    let (s', rest) := leading s x.fraction
    (s', -((x.fraction.length : Int) - rest.length))
  | (s, dropped) => (s, dropped.length)

/-- The number that a numeral stands for; `none` if it is too large for a fraction. -/
def Numeral.number? (x : Numeral) : Option Number :=
  let (significand, places) := x.parts
  let isInteger := x.fraction.isEmpty && x.exponent.isNone && places == 0
  if isInteger && !x.negative then some (.natural significand)
  else if isInteger && 0 < significand && significand ≤ signedBound then
    some (.negative significand)
  else
    let e : Int := match x.exponent with
      | none => 0
      | some (true, ds) => -(natOfDigits ds : Int)
      | some (false, ds) => natOfDigits ds
    -- An exponent that is out of all bounds makes zero or no number, whatever comes before it.
    let e := max (-10000) (min 10000 (places + e))
    (Text.Binary64.ofDecimal? significand e).map (.fraction x.negative)

end Outline.Json
