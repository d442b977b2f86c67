/-!
# Source languages

The languages that can be outlined. Each has a tag, which is how a command line, a configuration or
a JSON text names it, a display name, and the file extensions by which a path is recognised.
-/
namespace Outline

inductive Language where
  | python
  | java
  deriving DecidableEq, Repr, Inhabited

namespace Language

def all : List Language := [.python, .java]

def tag : Language → String
  | .python => "python"
  | .java => "java"

def displayName : Language → String
  | .python => "Python"
  | .java => "Java"

def extensions : Language → List String
  | .python => ["py", "pyi"]
  | .java => ["java"]

/-- Reads a tag or one of its aliases in any letter case. Lowering ASCII letters is enough: no other
character has a lower case among the letters of these words.
mirrors `LanguageType.from_str` -/
def ofTag? (s : String) : Option Language :=
  match s.toLower with
  | "python" | "python3" | "py" => some .python
  | "java" => some .java
  | _ => none

end Language

/-- Extensions are compared without regard to the case of ASCII letters. -/
def sameExtension (a b : String) : Bool := a.toLower == b.toLower

/-- The first language that has the extension.
mirrors `LanguageType.from_extension` -/
def Language.ofExtension? (ext : String) : Option Language :=
  Language.all.find? fun l => l.extensions.any (sameExtension · ext)

end Outline
