import Outline.Text.Columns
import Outline.Text.UnprintableRanges

/-!
# Quoted text

A text between quotation marks, as error messages show it: marks and backslashes are escaped, and so
is every character that would not be visible.
-/
namespace Outline.Text

def hexDigits (n : Nat) : List Char := Nat.toDigits 16 n

def isUnprintable (c : Char) : Bool :=
  let n := c.toNat
  n < 0x20 || (0x7f ≤ n && n < 0xa0) || inRanges unprintableRanges n

def quotedChar (c : Char) : List Char :=
  if c = '\x00' then ['\\', '0']
  else if c = '\t' then ['\\', 't']
  else if c = '\n' then ['\\', 'n']
  else if c = '\r' then ['\\', 'r']
  else if c = '"' ∨ c = '\\' then ['\\', c]
  else if isUnprintable c then ['\\', 'u', '\x7b'] ++ hexDigits c.toNat ++ ['\x7d']
  else [c]

def quoted (s : String) : String := String.ofList ('"' :: s.toList.flatMap quotedChar ++ ['"'])

end Outline.Text
