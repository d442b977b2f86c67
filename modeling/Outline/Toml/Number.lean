import Outline.Bounds
import Outline.Text.Binary64
import Outline.Text.Digits

/-!
# TOML numbers and moments

Integers are those of 64 bits with a sign, in base ten, two, eight or sixteen. An underscore may
stand between two digits. Fractions, dates and times are kept as they are written; all that is asked
of them is that they are well formed and within their bounds.
-/
namespace Outline.Toml
open Outline.Text

/-! ## Digits -/

/-- Digits, of which each may follow an underscore, except the first; without the underscores. -/
def moreDigits? (isDigit : Char → Bool) : List Char → Option (List Char × List Char)
  | '_' :: c :: cs => if isDigit c then (keep c) <$> moreDigits? isDigit cs else none
  | ['_'] => none
  | c :: cs => if isDigit c then (keep c) <$> moreDigits? isDigit cs else some ([], c :: cs)
  | [] => some ([], [])
where
  keep (c : Char) (found : List Char × List Char) : List Char × List Char := (c :: found.1, found.2)

def digits? (isDigit : Char → Bool) (cs : List Char) : Option (List Char × List Char) :=
  if cs.head?.any isDigit then moreDigits? isDigit cs else none

def sign : List Char → Option Char × List Char
  | '+' :: cs => (some '+', cs)
  | '-' :: cs => (some '-', cs)
  | cs => (none, cs)

/-- The whole part of a number in base ten. It starts with a zero only if it is one. -/
def whole? (cs : List Char) : Option (List Char × List Char) :=
  match cs with
  | '0' :: rest => some (['0'], rest)
  | _ => digits? isDigit cs

/-! ## Integers -/

def digitIn (base : Nat) (c : Char) : Bool :=
  match hexValue? c with
  | some n => n < base
  | none => false

def natIn (base : Nat) (ds : List Char) : Nat :=
  ds.foldl (fun n c => n * base + (hexValue? c).getD 0) 0

def inBounds? (n : Int) : Option Int :=
  if -(signedBound : Int) ≤ n ∧ n < signedBound then some n else none

def integerIn? (base : Nat) (cs : List Char) : Option (Int × List Char) := do
  let (ds, rest) ← digits? (digitIn base) cs
  return (← inBounds? (natIn base ds), rest)

def integer? (cs : List Char) : Option (Int × List Char) :=
  match cs with
  | '0' :: 'x' :: cs => integerIn? 16 cs
  | '0' :: 'o' :: cs => integerIn? 8 cs
  | '0' :: 'b' :: cs => integerIn? 2 cs
  | cs => do
    let (mark, rest) := sign cs
    let (ds, rest) ← whole? rest
    let n : Int := natOfDigits ds
    return (← inBounds? (if mark = some '-' then -n else n), rest)

/-! ## Fractions -/

/-- Whether the number made of these digits and this power of ten is too large to be finite. -/
def isInfinite (digits : List Char) (e : Int) : Bool :=
  let significant := digits.dropWhile (· == '0')
  let magnitude := significant.length + e
  if significant.isEmpty || magnitude < 300 then false
  else if 400 < magnitude then true
  else
    let (n, d) := Binary64.power 10 e
    (Binary64.round? (natOfDigits significant * n) d).isNone

/-- The exponent and what follows it; `none` if there is a mark but no digit. -/
def exponent? : List Char → Option (Option (List Char × Int) × List Char)
  | c :: cs =>
    if c = 'e' ∨ c = 'E' then do
      let (mark, rest) := sign cs
      let (ds, rest) ← digits? isDigit rest
      let n : Int := natOfDigits ds
      return (some (c :: mark.toList ++ ds, if mark = some '-' then -n else n), rest)
    else some (none, c :: cs)
  | [] => some (none, [])

def special? (cs : List Char) : Option (List Char × List Char) :=
  ["inf".toList, "nan".toList].findSome? fun word => (word.isPrefixOf? cs).map (word, ·)

/-- A number with a fraction or an exponent, or one of the special numbers. One that is too large is
refused; one that is too small counts as negative infinity. -/
def fraction? (cs : List Char) : Option (String × List Char) := do
  let (mark, cs) := sign cs
  match special? cs with
  | some (word, rest) => some (String.ofList (mark.toList ++ word), rest)
  | none =>
    let (whole, rest) ← whole? cs
    let (places, rest) ← match rest with
      | '.' :: rest => digits? isDigit rest
      | rest => some ([], rest)
    let (exponent, rest) ← exponent? rest
    if places.isEmpty && exponent.isNone then none
    else if mark ≠ some '-' && isInfinite (whole ++ places)
        ((exponent.map (·.2)).getD 0 - places.length) then none
    else
      let point := if places.isEmpty then [] else '.' :: places
      some (String.ofList (mark.toList ++ whole ++ point ++ (exponent.map (·.1)).getD []), rest)

/-! ## Dates and times -/

def twoDigits? : List Char → Option (Nat × List Char)
  | a :: b :: rest => if isDigit a && isDigit b then some (natOfDigits [a, b], rest) else none
  | _ => none

def after? (mark : Char) : List Char → Option (List Char)
  | c :: rest => if c = mark then some rest else none
  | [] => none

def daysIn (year month : Nat) : Nat :=
  if month = 2 then
    if year % 4 = 0 ∧ (year % 100 ≠ 0 ∨ year % 400 = 0) then 29 else 28
  else if month = 4 ∨ month = 6 ∨ month = 9 ∨ month = 11 then 30
  else 31

/-- What follows a date. -/
def afterDate? (cs : List Char) : Option (List Char) := do
  let (century, rest) ← twoDigits? cs
  let (year, rest) ← twoDigits? rest
  let (month, rest) ← twoDigits? (← after? '-' rest)
  let (day, rest) ← twoDigits? (← after? '-' rest)
  if 1 ≤ month ∧ month ≤ 12 ∧ 1 ≤ day ∧ day ≤ daysIn (century * 100 + year) month then some rest
  else none

/-- What follows the fraction of a second, if there is one. -/
def afterPlaces (cs : List Char) : List Char :=
  match cs with
  | '.' :: rest => if rest.head?.any isDigit then rest.dropWhile isDigit else cs
  | _ => cs

/-- What follows a time. A minute may have a leap second. -/
def afterTime? (cs : List Char) : Option (List Char) := do
  let (hour, rest) ← twoDigits? cs
  let (minute, rest) ← twoDigits? (← after? ':' rest)
  let (second, rest) ← twoDigits? (← after? ':' rest)
  if hour ≤ 23 ∧ minute ≤ 59 ∧ second ≤ 60 then some (afterPlaces rest) else none

/-- What follows an offset from universal time. -/
def afterOffset? : List Char → Option (List Char)
  | 'Z' :: rest | 'z' :: rest => some rest
  | '+' :: rest | '-' :: rest => do
    let (hour, rest) ← twoDigits? rest
    let (minute, rest) ← twoDigits? (← after? ':' rest)
    if hour ≤ 23 ∧ minute ≤ 59 then some rest else none
  | _ => none

/-- What follows the time of a day with its offset, if there is one. -/
def afterTimeOfDay (cs : List Char) : List Char :=
  match cs with
  | c :: rest =>
    if c = 'T' ∨ c = 't' ∨ c = ' ' then
      match afterTime? rest with
      | some rest => (afterOffset? rest).getD rest
      | none => cs
    else cs
  | [] => cs

/-- A date with or without a time, or a time. -/
def moment? (cs : List Char) : Option (String × List Char) := do
  let rest ← (afterTimeOfDay <$> afterDate? cs) <|> afterTime? cs
  return (String.ofList (cs.take (cs.length - rest.length)), rest)

end Outline.Toml
