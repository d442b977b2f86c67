import Outline.Text.Digits

/-!
# TOML strings

Strings have four forms: between quotation marks with escapes, between apostrophes without, and each
of these between three marks over several lines. Writing picks the first form that needs no escape.
-/
namespace Outline.Toml
open Outline.Text

def isSpace (c : Char) : Bool := c == ' ' || c == '\t'

def skipSpace (cs : List Char) : List Char := cs.dropWhile isSpace

/-- Characters that stand for themselves only in an escape: all controls but the tab. -/
def isControl (c : Char) : Bool := (c.toNat < 0x20 && c != '\t') || c.toNat == 0x7f

/-- What follows the end of a line, if one is here. -/
def afterNewline? : List Char → Option (List Char)
  | '\n' :: rest => some rest
  | '\r' :: '\n' :: rest => some rest
  | _ => none

/-! ## Reading -/

def shortEscape? (c : Char) : Option Char :=
  if c = '"' ∨ c = '\\' then some c
  else if c = 'b' then some '\x08'
  else if c = 't' then some '\t'
  else if c = 'n' then some '\n'
  else if c = 'f' then some '\x0c'
  else if c = 'r' then some '\r'
  else none

def hexChar? (ds : List Char) : Option Char := do
  let n ← hexNat? ds
  if n.isValidChar then some (Char.ofNat n) else none

/-- A character put in front of what was read. -/
def withChar (c : Char) (found : Option (List Char × List Char)) : Option (List Char × List Char) :=
  found.map fun (text, rest) => (c :: text, rest)

/-- A string on one line with escapes, after its opening mark. -/
def basic? : List Char → Option (List Char × List Char)
  | [] => none
  | '"' :: rest => some ([], rest)
  | '\\' :: 'u' :: a :: b :: c :: d :: rest => do withChar (← hexChar? [a, b, c, d]) (basic? rest)
  | '\\' :: 'U' :: a :: b :: c :: d :: e :: f :: g :: h :: rest => do
    withChar (← hexChar? [a, b, c, d, e, f, g, h]) (basic? rest)
  | '\\' :: c :: rest => do withChar (← shortEscape? c) (basic? rest)
  | c :: rest => if isControl c || c == '\\' then none else withChar c (basic? rest)

/-- A string on one line without escapes, after its opening mark. -/
def literal? : List Char → Option (List Char × List Char)
  | [] => none
  | '\'' :: rest => some ([], rest)
  | c :: rest => if isControl c then none else withChar c (literal? rest)

/-- The end of a string of several lines: three marks. One or two more before them belong to the
string. -/
def closing? (mark : Char) (cs : List Char) : Option (List Char × List Char) :=
  let marks := (cs.takeWhile (· == mark)).length
  if marks < 3 then none
  else
    let own := min (marks - 3) 2
    some (List.replicate own mark, cs.drop (own + 3))

/-- A string of several lines, after its opening marks. A backslash at the end of a line skips the
line's end and the blanks after it. -/
def lines? (mark : Char) (escapes : Bool) : (skipping : Bool) → List Char →
    Option (List Char × List Char)
  | _, [] => none
  | skipping, c :: rest =>
    if skipping && (isSpace c || c == '\n') then lines? mark escapes true rest
    else if c = '\r' then
      match rest with
      | '\n' :: rest =>
        if skipping then lines? mark escapes true rest
        else withChar '\n' (lines? mark escapes false rest)
      | _ => none
    else
      match closing? mark (c :: rest) with
      | some found => some found
      | none =>
        if escapes && c == '\\' then
          if (afterNewline? (skipSpace rest)).isSome then lines? mark escapes true rest
          else
            match rest with
            | 'u' :: h₁ :: h₂ :: h₃ :: h₄ :: rest => do
              withChar (← hexChar? [h₁, h₂, h₃, h₄]) (lines? mark escapes false rest)
            | 'U' :: h₁ :: h₂ :: h₃ :: h₄ :: h₅ :: h₆ :: h₇ :: h₈ :: rest => do
              let c ← hexChar? [h₁, h₂, h₃, h₄, h₅, h₆, h₇, h₈]
              withChar c (lines? mark escapes false rest)
            | e :: rest => do withChar (← shortEscape? e) (lines? mark escapes false rest)
            | [] => none
        else if c == '\n' || !isControl c then withChar c (lines? mark escapes false rest)
        else none

/-- A string of several lines with its first line's end, which does not belong to it. -/
def linesFrom? (mark : Char) (escapes : Bool) (cs : List Char) : Option (List Char × List Char) :=
  lines? mark escapes false ((afterNewline? cs).getD cs)

/-- A string of any form. -/
def string? (cs : List Char) : Option (String × List Char) :=
  let found := match cs with
    | '"' :: '"' :: '"' :: rest => linesFrom? '"' true rest
    | '"' :: rest => basic? rest
    | '\'' :: '\'' :: '\'' :: rest => linesFrom? '\'' false rest
    | '\'' :: rest => literal? rest
    | _ => none
  found.map fun (text, rest) => (String.ofList text, rest)

/-! ## Writing -/

/-- The most times that a character stands in a row; `run` counts those just before. -/
def longestRun (mark : Char) : (run : Nat) → List Char → Nat
  | run, [] => run
  | run, c :: cs =>
    if c = mark then longestRun mark (run + 1) cs else max run (longestRun mark 0 cs)

inductive StringForm where
  | basic
  | literal
  | basicLines
  | literalLines
  deriving DecidableEq, Repr, Inhabited

/-- Whether a text can stand in a form as it is. -/
def StringForm.fits (cs : List Char) : StringForm → Bool
  | .basic => !cs.any fun c => isControl c || c == '\\' || c == '"'
  | .literal => !cs.any fun c => isControl c || c == '\''
  | .basicLines =>
    !(cs.any fun c => (isControl c && c != '\n') || c == '\\') && longestRun '"' 0 cs ≤ 2
  | .literalLines => !(cs.any fun c => isControl c && c != '\n') && longestRun '\'' 0 cs ≤ 2

/-- The first form that fits; failing that, the one with escapes, over several lines if the text has
such. -/
def StringForm.choose (cs : List Char) : StringForm :=
  match [basic, literal, basicLines, literalLines].find? (·.fits cs) with
  | some form => form
  | none => if cs.contains '\n' then .basicLines else .basic

def upperHex (n : Nat) : Char := (Nat.digitChar n).toUpper

def controlEscape (c : Char) : List Char :=
  if c = '\x08' then ['\\', 'b']
  else if c = '\t' then ['\\', 't']
  else if c = '\n' then ['\\', 'n']
  else if c = '\x0c' then ['\\', 'f']
  else if c = '\r' then ['\\', 'r']
  else ['\\', 'u', '0', '0', upperHex (c.toNat / 16), upperHex (c.toNat % 16)]

/-- A text with escapes. Over several lines a line's end and up to two marks in a row stand as they
are; `marks` counts those just before. -/
def escaped (overLines : Bool) : (marks : Nat) → List Char → List Char
  | _, [] => []
  | marks, c :: cs =>
    if c = '"' then
      if overLines && marks < 2 then c :: escaped overLines (marks + 1) cs
      else '\\' :: c :: escaped overLines 0 cs
    else
      let written :=
        if c = '\\' then ['\\', '\\']
        else if c = '\n' && overLines then [c]
        else if isControl c || c == '\t' then controlEscape c
        else [c]
      written ++ escaped overLines 0 cs

def StringForm.write (cs : List Char) : StringForm → List Char
  | .basic => '"' :: escaped false 0 cs ++ ['"']
  | .literal => '\'' :: cs ++ ['\'']
  | .basicLines => ['"', '"', '"'] ++ first ++ escaped true 0 cs ++ ['"', '"', '"']
  | .literalLines => ['\'', '\'', '\''] ++ first ++ cs ++ ['\'', '\'', '\'']
where
  /-- A text of several lines starts on a line of its own. -/
  first : List Char := if cs.contains '\n' then ['\n'] else []

def writeString (s : String) : String :=
  String.ofList ((StringForm.choose s.toList).write s.toList)

end Outline.Toml
