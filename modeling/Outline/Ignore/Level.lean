import Outline.FileTree
import Outline.Ignore

/-!
# Ignore files

A directory may hold ignore files for what is below it. Those of its own kind always count; those of
a version-controlled repository count only inside one, and not beyond it.
-/
namespace Outline

/-! ## Lines -/

/-- The parts between bytes of one value. -/
def splitBytes (mark : UInt8) : List UInt8 → List (List UInt8)
  | [] => [[]]
  | b :: bs =>
    if b = mark then [] :: splitBytes mark bs
    else
      match splitBytes mark bs with
      | [] => [[b]]
      | l :: ls => (b :: l) :: ls

/-- A line without the carriage return before its end. -/
def withoutReturn (line : List UInt8) : List UInt8 :=
  if line.getLast? = some 0x0d then line.dropLast else line

/-- The texts up to the first line that has none. -/
def decodedLines : List (List UInt8) → List String
  | [] => []
  | l :: ls =>
    match String.fromUTF8? ⟨l.toArray⟩ with
    | some s => s :: decodedLines ls
    | none => []

/-- The lines of an ignore file. A byte order mark at the start is not part of the first. -/
def ignoreLines (bytes : ByteArray) : List String :=
  let parts := splitBytes 0x0a bytes.data.toList
  match decodedLines (parts.dropLast.map withoutReturn ++ parts.getLast?.toList) with
  | [] => []
  | first :: rest => String.ofList (first.toList.dropWhile (· == '\uFEFF')) :: rest

/-! ## Levels -/

/-- The rules that one directory adds. -/
structure IgnoreLevel where
  place : Place
  rules : List IgnoreRule := []
  /-- Rules that count inside a repository only. -/
  repositoryRules : List IgnoreRule := []
  /-- Rules that a repository keeps for itself. -/
  privateRules : List IgnoreRule := []
  /-- Whether a repository starts here. -/
  isRepository : Bool := false
  deriving Inhabited

namespace IgnoreLevel

def rulesIn (directory : FileTree) (file : Place) : List IgnoreRule :=
  match directory.at? file with
  | some (.file bytes) => (ignoreLines bytes).filterMap IgnoreRule.ofLine?
  | _ => []

def ofDirectory (place : Place) (directory : FileTree) : IgnoreLevel :=
  { place
    rules := rulesIn directory [".ignore"]
    repositoryRules := rulesIn directory [".gitignore"]
    privateRules := rulesIn directory [".git", "info", "exclude"]
    isRepository := (directory.child? ".git").isSome || (directory.child? ".jj").isSome }

/-- The first verdict on a place, from the innermost level out; each sees the path below it. -/
def firstVerdict? (rules : IgnoreLevel → List IgnoreRule) (levels : List IgnoreLevel)
    (place : Place) (isDirectory : Bool) : Option Verdict :=
  levels.findSome? fun l =>
    verdict? (rules l) ("/".intercalate (place.drop l.place.length)) isDirectory

/-- The levels of the innermost repository, which ends with its own. -/
def ofRepository (levels : List IgnoreLevel) : List IgnoreLevel :=
  match levels.find? (·.isRepository) with
  | some l => levels.takeWhile (!·.isRepository) ++ [l]
  | none => []

/-- What the ignore files say of a place. The general ones go before those of the repository. -/
def verdict? (levels : List IgnoreLevel) (place : Place) (isDirectory : Bool) : Option Verdict :=
  firstVerdict? (·.rules) levels place isDirectory
    <|> firstVerdict? (·.repositoryRules) (ofRepository levels) place isDirectory
    <|> firstVerdict? (·.privateRules) (ofRepository levels) place isDirectory

/-- The levels of the directories above a place, up to the root directory, innermost first. -/
def above (t : FileTree) (place : Place) : List IgnoreLevel :=
  (List.range place.length).reverse.filterMap fun n =>
    (t.at? (place.take n)).map (ofDirectory (place.take n))

end IgnoreLevel
end Outline
