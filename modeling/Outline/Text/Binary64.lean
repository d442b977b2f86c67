/-!
# Binary fractions of 64 bits

Non-negative numbers `mantissa · 2 ^ exponent` with a mantissa of at most 53 bits and no exponent
below -1074. Quotients are rounded to the nearest such number, ties to the even mantissa; numbers of
`2 ^ 1024` and more are too large. A number is written with the fewest digits that are rounded back
to it.
-/
namespace Outline.Text

structure Binary64 where
  mantissa : Nat
  exponent : Int
  deriving DecidableEq, Repr, Inhabited

namespace Binary64

def zero : Binary64 := ⟨0, -1074⟩

/-- Mantissas have 53 bits at most. -/
def mantissaBound : Nat := 0x20000000000000

/-- The power `b ^ e` as numerator and denominator. -/
def power (b : Nat) (e : Int) : Nat × Nat :=
  if 0 ≤ e then (b.pow e.toNat, 1) else (1, b.pow (-e).toNat)

/-- The value as a fraction. -/
def fraction (x : Binary64) : Nat × Nat :=
  let (n, d) := power 2 x.exponent
  (x.mantissa * n, d)

/-- The integer nearest to `num / den`, ties to even. -/
def roundEven (num den : Nat) : Nat :=
  let q := num / den
  let r := num % den
  if den < 2 * r || (2 * r == den && q % 2 == 1) then q + 1 else q

/-- The number nearest to a fraction; `none` if that is too large. -/
def round? (num den : Nat) : Option Binary64 :=
  if num = 0 then some zero
  else
    let scaled (e : Int) : Nat × Nat :=
      let (n, d) := power 2 e
      (num * d, den * n)
    let first : Int := (Nat.log2 num : Int) - Nat.log2 den - 53
    let (n, d) := scaled first
    let e := max (if mantissaBound ≤ n / d then first + 1 else first) (-1074)
    let (n, d) := scaled e
    let m := roundEven n d
    if 971 < e || (e == 971 && mantissaBound ≤ m) then none else some ⟨m, e⟩

def mul? (x y : Binary64) : Option Binary64 :=
  round? (x.fraction.1 * y.fraction.1) (x.fraction.2 * y.fraction.2)

def div? (x y : Binary64) : Option Binary64 :=
  round? (x.fraction.1 * y.fraction.2) (x.fraction.2 * y.fraction.1)

/-- A power of ten; none beyond the 308th. -/
def ten? (e : Nat) : Option Binary64 := if e ≤ 308 then round? (Nat.pow 10 e) 1 else none

/-- Divides by powers of ten until `e` of them are gone, at most 308 at a time. -/
def lower : (fuel : Nat) → Binary64 → (e : Nat) → Option Binary64
  | 0, x, _ => some x
  | fuel + 1, x, e =>
    if x.mantissa = 0 then some x
    else do
      let y ← x.div? (← ten? (min e 308))
      if e ≤ 308 then some y else lower fuel y (e - 308)

/-- The number `significand · 10 ^ e`, by first rounding the significand and then each product or
quotient. -/
def ofDecimal? (significand : Nat) (e : Int) : Option Binary64 := do
  let x ← round? significand 1
  if 0 ≤ e then
    if x.mantissa = 0 then some x else x.mul? (← ten? e.toNat)
  else lower ((-e).toNat / 308 + 1) x (-e).toNat

/-! ## Text -/

/-- How many digits a number has before the point; zero or less if it is below one tenth. -/
def digitsBeforePoint (num den : Nat) : Int :=
  if den ≤ num then (Nat.toDigits 10 (num / den)).length
  else 1 - (Nat.toDigits 10 (den / num)).length

/-- The nearer of the two neighbours of `num / den` on the grid of multiples of `10 ^ t`, if it is
rounded to `x`; else the other, if that one is. -/
def onGrid? (x : Binary64) (num den : Nat) (t : Int) : Option Nat :=
  let (un, ud) := power 10 t
  let below := num * ud / (den * un)
  let reads (c : Nat) : Bool := round? (c * un) ud == some x
  let nearer := roundEven (num * ud) (den * un)
  let other := if nearer = below then below + 1 else below
  if reads nearer then some nearer else if reads other then some other else none

/-- The fewest digits, and the power of ten that the last of them counts. -/
def shortest (x : Binary64) : Nat × Int :=
  if x.mantissa = 0 then (0, 0)
  else
    let (num, den) := x.fraction
    let before := digitsBeforePoint num den
    let found := (List.range 18).findSome? fun (n : Nat) =>
      let t := before - 1 - n
      (onGrid? x num den t).map (·, t)
    strip 20 (found.getD (0, 0))
where
  /-- Drops zeros at the end of the digits. -/
  strip : Nat → Nat × Int → Nat × Int
    | 0, r => r
    | fuel + 1, (c, t) => if c ≠ 0 ∧ c % 10 = 0 then strip fuel (c / 10, t + 1) else (c, t)

/-- Positional from `1e-5` up to sixteen digits before the point, else with an exponent. -/
def render (x : Binary64) : String :=
  let (c, t) := shortest x
  let ds := Nat.toDigits 10 c
  let point : Int := ds.length + t
  let zeros (n : Int) : List Char := List.replicate n.toNat '0'
  String.ofList <|
    if c = 0 then ['0', '.', '0']
    else if 0 ≤ t ∧ point ≤ 16 then ds ++ zeros t ++ ['.', '0']
    else if 0 < point ∧ point ≤ 16 then ds.take point.toNat ++ '.' :: ds.drop point.toNat
    else if -5 < point ∧ point ≤ 0 then ['0', '.'] ++ zeros (-point) ++ ds
    else
      let exponent := 'e' :: (toString (point - 1)).toList
      match ds with
      | [d] => d :: exponent
      | d :: rest => d :: '.' :: rest ++ exponent
      | [] => exponent

end Binary64
end Outline.Text
