/-!
# Entities and their ids

An entity is a file, a function or a class-like declaration. A frame names one: it is what a
declaration records as its parent and what the scope stack holds. Ids of declarations are numbered
within their file, by one counter for functions and classes alike.
-/
namespace Outline

inductive EntityKind where
  | file
  | function
  /-- Classes, and what is declared like one: interfaces, enums, records, annotation types. -/
  | classLike
  deriving DecidableEq, Repr, Inhabited

namespace EntityKind

def all : List EntityKind := [.file, .function, .classLike]

def tag : EntityKind → String
  | .file => "file"
  | .function => "function"
  | .classLike => "class"

def ofTag? (s : String) : Option EntityKind := all.find? (·.tag == s)

end EntityKind

abbrev EntityId := String

/-- The entity of a kind that has an id. -/
structure Frame where
  id : EntityId
  kind : EntityKind
  deriving DecidableEq, Repr, Inhabited

/-! ## Numbered ids -/

/-- The id of the `n`-th declaration of a file. -/
def entityId (fileId : EntityId) (kind : EntityKind) (n : Nat) : EntityId :=
  fileId ++ "/" ++ kind.tag ++ ":" ++ toString n

/-- The ids that a file has yet to give out. -/
structure IdSequence where
  fileId : EntityId
  next : Nat := 1
  deriving DecidableEq, Repr, Inhabited

namespace IdSequence

/-- mirrors `IdSequence.next` -/
def take (s : IdSequence) (kind : EntityKind) : EntityId × IdSequence :=
  (entityId s.fileId kind s.next, { s with next := s.next + 1 })

/-- The ids given to declarations of these kinds, one after another. -/
def takeAll (s : IdSequence) : List EntityKind → List EntityId
  | [] => []
  | k :: ks => (s.take k).1 :: (s.take k).2.takeAll ks

end IdSequence
end Outline
