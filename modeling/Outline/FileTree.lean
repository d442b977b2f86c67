/-!
# File trees

A directory with all that is below it, as a value. A place in it is a list of names, the outermost
first, and has none of the spellings that a path may have.

Main statements: an entry that is put under a name is found there and changes no other name
(`lookup_put`), and one that is put at a place is found at the place (`at?_insert_self`).
-/
namespace Outline

/-- Why a file cannot be read or written. -/
inductive FileError where
  | notFound
  | notADirectory
  | isADirectory
  | notUtf8
  deriving DecidableEq, Repr, Inhabited

def FileError.message : FileError → String
  | .notFound => "No such file or directory (os error 2)"
  | .notADirectory => "Not a directory (os error 20)"
  | .isADirectory => "Is a directory (os error 21)"
  | .notUtf8 => "stream did not contain valid UTF-8"

inductive FileTree where
  | file (bytes : ByteArray)
  | directory (entries : List (String × FileTree))

abbrev Place := List String

namespace FileTree

def empty : FileTree := .directory []

instance : Inhabited FileTree := ⟨empty⟩

def isDirectory : FileTree → Bool
  | .directory _ => true
  | .file _ => false

/-- What a directory holds; a file holds nothing. -/
def entries : FileTree → List (String × FileTree)
  | .directory es => es
  | .file _ => []

def child? (t : FileTree) (name : String) : Option FileTree := t.entries.lookup name

def at? (t : FileTree) : Place → Option FileTree
  | [] => some t
  | name :: rest => (t.child? name).bind (·.at? rest)

/-! ## Changes -/

/-- Puts an entry under a name, in the place of one that is there. -/
def put (name : String) (entry : FileTree) : List (String × FileTree) → List (String × FileTree)
  | [] => [(name, entry)]
  | (n, e) :: es => if name = n then (name, entry) :: es else (n, e) :: put name entry es

/-- Puts an entry at a place. Directories on the way are made as needed. -/
def insert (entry : FileTree) : Place → FileTree → FileTree
  | [], _ => entry
  | name :: rest, t =>
    .directory (put name (insert entry rest ((t.child? name).getD empty)) t.entries)

/-- Makes sure that a place holds a directory. -/
def makeDirectory (place : Place) (t : FileTree) : FileTree :=
  match t.at? place with
  | some (.directory _) => t
  | _ => insert empty place t

/-! ## What a change leaves -/

theorem lookup_put (name other : String) (entry : FileTree) (es : List (String × FileTree)) :
    (put name entry es).lookup other = if other = name then some entry else es.lookup other := by
  induction es with
  | nil =>
    by_cases h : other = name
    · simp [put, h]
    · simp [put, List.lookup_cons, beq_eq_false_iff_ne.2 h, h]
  | cons p es ih =>
    obtain ⟨n, e⟩ := p
    unfold put
    by_cases hn : name = n
    · subst hn
      by_cases h : other = name
      · simp [h]
      · simp [List.lookup_cons, beq_eq_false_iff_ne.2 h, h]
    · rw [if_neg hn]
      by_cases h : other = n
      · subst h
        have : other ≠ name := fun hc => hn hc.symm
        simp [this]
      · simp [List.lookup_cons, beq_eq_false_iff_ne.2 h, ih]

/-- A place holds what was put there. -/
theorem at?_insert_self (entry : FileTree) (place : Place) (t : FileTree) :
    (insert entry place t).at? place = some entry := by
  induction place generalizing t with
  | nil => rfl
  | cons name rest ih => simp [insert, at?, child?, entries, lookup_put, ih]

end FileTree
end Outline
