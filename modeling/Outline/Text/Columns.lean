import Outline.Text.ColumnRanges

/-!
# Terminal columns

How many columns a text takes up on a terminal: none for control characters and for what combines
with the character before it, two for the wide characters of East Asian scripts, one for the rest.
-/
namespace Outline.Text

def inRanges (ranges : List (Nat × Nat)) (n : Nat) : Bool :=
  ranges.any fun (lo, hi) => lo ≤ n && n ≤ hi

def charColumns (c : Char) : Nat :=
  let n := c.toNat
  if n < 0x20 then 0
  else if n < 0x7f then 1
  else if n < 0xa0 then 0
  else if inRanges zeroWidthRanges n then 0
  else if inRanges wideRanges n then 2
  else 1

def columns (s : String) : Nat := s.toList.foldl (fun n c => n + charColumns c) 0

/-- Fills a text with blanks on the right up to a number of columns. -/
def padRight (width : Nat) (s : String) : String :=
  s ++ String.ofList (List.replicate (width - columns s) ' ')

/-- The lines of a text; one more than there are line breaks. -/
def lines (s : String) : List String :=
  let rec go : List Char → List (List Char)
    | [] => [[]]
    | c :: cs =>
      if c = '\n' then [] :: go cs
      else
        match go cs with
        | [] => [[c]]
        | l :: ls => (c :: l) :: ls
  (go s.toList).map String.ofList

end Outline.Text
