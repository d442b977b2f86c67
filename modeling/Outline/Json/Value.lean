import Outline.Text.Digits

/-!
# JSON values and their text

A value is written in one of two layouts: compact, without any blank, or indented by two blanks a
level, with one member or item to a line. Object members keep their order. Only what must be escaped
is escaped.
-/
namespace Outline.Json

inductive Value where
  | null
  | bool (b : Bool)
  | number (n : Nat)
  | string (s : String)
  | array (items : List Value)
  | object (members : List (String × Value))
  deriving Inhabited, Repr

/-- A character inside a string. -/
def escapeChar (c : Char) : List Char :=
  if c = '"' ∨ c = '\\' then ['\\', c]
  else if c = '\x08' then ['\\', 'b']
  else if c = '\t' then ['\\', 't']
  else if c = '\n' then ['\\', 'n']
  else if c = '\x0c' then ['\\', 'f']
  else if c = '\r' then ['\\', 'r']
  else if c.toNat < 0x20 then
    ['\\', 'u', '0', '0', Text.hexDigit (c.toNat / 16), Text.hexDigit c.toNat]
  else [c]

def stringText (s : String) : List Char := '"' :: s.toList.flatMap escapeChar ++ ['"']

def boolText (b : Bool) : List Char := if b then "true".toList else "false".toList

def numberText (n : Nat) : List Char := (toString n).toList

namespace Value

/-! ## Compact -/

mutual

def compactChars : Value → List Char
  | null => "null".toList
  | bool b => boolText b
  | number n => numberText n
  | string s => stringText s
  | array items => '[' :: compactItems items
  | object members => '\x7b' :: compactMembers members

/-- The items, each followed by a comma or, the last, by the closing bracket. -/
def compactItems : List Value → List Char
  | [] => [']']
  | [v] => v.compactChars ++ [']']
  | v :: vs => v.compactChars ++ ',' :: compactItems vs

@[inherit_doc compactItems]
def compactMembers : List (String × Value) → List Char
  | [] => ['\x7d']
  | [(k, v)] => stringText k ++ ':' :: v.compactChars ++ ['\x7d']
  | (k, v) :: ms => stringText k ++ ':' :: v.compactChars ++ ',' :: compactMembers ms

end

def compact (v : Value) : String := String.ofList v.compactChars

/-! ## Indented -/

/-- A line break and the blanks before what stands at a level. -/
def newline (level : Nat) : List Char := '\n' :: List.replicate (2 * level) ' '

mutual

/-- A value that starts on a line of the given level. -/
def prettyChars (level : Nat) : Value → List Char
  | null => "null".toList
  | bool b => boolText b
  | number n => numberText n
  | string s => stringText s
  | array [] => ['[', ']']
  | array items => '[' :: prettyItems level items
  | object [] => ['\x7b', '\x7d']
  | object members => '\x7b' :: prettyMembers level members

/-- The items on lines of their own, one level further in. -/
def prettyItems (level : Nat) : List Value → List Char
  | [] => newline level ++ [']']
  | [v] => newline (level + 1) ++ v.prettyChars (level + 1) ++ newline level ++ [']']
  | v :: vs => newline (level + 1) ++ v.prettyChars (level + 1) ++ ',' :: prettyItems level vs

@[inherit_doc prettyItems]
def prettyMembers (level : Nat) : List (String × Value) → List Char
  | [] => newline level ++ ['\x7d']
  | [(k, v)] =>
    newline (level + 1) ++ stringText k ++ ':' :: ' ' :: v.prettyChars (level + 1) ++
      newline level ++ ['\x7d']
  | (k, v) :: ms =>
    newline (level + 1) ++ stringText k ++ ':' :: ' ' :: v.prettyChars (level + 1) ++
      ',' :: prettyMembers level ms

end

def pretty (v : Value) : String := String.ofList (v.prettyChars 0)

end Value
end Outline.Json
