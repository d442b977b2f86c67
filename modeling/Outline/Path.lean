/-!
# Paths

Paths are texts whose parts are divided by slashes. Empty parts and the part `.` add nothing to a
path, except that a relative path may start with `.`. All functions work on the text, so that a
path keeps the spelling it was given.
-/
namespace Outline.Path

/-- The parts between slashes, empty ones included. -/
def segments : List Char → List (List Char)
  | [] => [[]]
  | c :: cs =>
    if c = '/' then [] :: segments cs
    else
      match segments cs with
      | [] => [[c]]
      | s :: ss => (c :: s) :: ss

/-- The parts put together again. -/
def join : List (List Char) → List Char
  | [] => []
  | [s] => s
  | s :: ss => s ++ '/' :: join ss

/-- A part that adds nothing. -/
def isVoid (segment : List Char) : Bool := segment == [] || segment == ['.']

/-- The parts of a path that are names or `..`. -/
def names (path : String) : List String :=
  ((segments path.toList).filter (!isVoid ·)).map String.ofList

def isAbsolute (path : String) : Bool := path.toList.head? == some '/'

/-- The last part, unless it is `..`. -/
def fileName? (path : String) : Option String :=
  match (names path).getLast? with
  | some ".." => none
  | last => last

/-- What follows the last dot of the file name; a dot at its start does not count. -/
def extension? (path : String) : Option String :=
  (fileName? path).bind fun name =>
    let after := name.toList.reverse.takeWhile (· != '.')
    let before := name.toList.reverse.drop (after.length + 1)
    if before.isEmpty then none else some (String.ofList after.reverse)

/-- The texts left when names are taken from the end, one after the other; the names come last one
first. What adds nothing goes with the name after it. -/
def shortenings : List (List Char) → List (List Char)
  | [] => []
  | s :: ss =>
    if isVoid s then shortenings ss
    else join (ss.dropWhile isVoid).reverse :: shortenings ss

/-- The directories that a relative path leads through, innermost first, as it spells them; the last
one is the empty path. A dot at the start is a directory of its own. -/
def ancestors (path : String) : List String :=
  match path.toList with
  | ['.'] => [""]
  | '.' :: '/' :: rest =>
    ((shortenings (segments ('/' :: rest)).reverse).map fun s => String.ofList ('.' :: s)) ++ [""]
  | cs => (shortenings (segments cs).reverse).map String.ofList

/-- Whether a path is a way to write the directory itself: dots and slashes, a dot first. -/
def isHere (path : String) : Bool := path.toList.head? == some '.' && (names path).isEmpty

/-- A path followed by one more name. -/
def child (dir name : String) : String :=
  if dir.toList.getLast? == some '/' then dir ++ name else dir ++ "/" ++ name

end Outline.Path
