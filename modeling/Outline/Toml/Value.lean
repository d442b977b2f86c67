/-!
# TOML values and tables

A table comes about in one of four ways, and that decides what may still be added to it: an inline
table is complete; a table with a header of its own is not entered by dotted keys; one that a longer
header implies may still get its own; and one that dotted keys make is extended by dotted keys only.
-/
namespace Outline.Toml

/-- How a table came about. -/
inductive Origin where
  | inline
  | header
  /-- By the header of a table inside it. -/
  | implied
  /-- By a dotted key. -/
  | dotted
  deriving DecidableEq, Repr, Inhabited

inductive Value where
  | string (s : String)
  | integer (n : Int)
  | fraction (text : String)
  | boolean (b : Bool)
  | moment (text : String)
  | array (items : List Value)
  | table (origin : Origin) (members : List (String × Value))
  /-- An array of tables that have headers. -/
  | tables (items : List (List (String × Value)))
  deriving Inhabited, Repr

abbrev Members := List (String × Value)

namespace Members

/-- Puts a value in the place of the one under its key. -/
def replace (key : String) (value : Value) (ms : Members) : Members :=
  ms.map fun m => if m.1 = key then (key, value) else m

/-- Changes the table that a path of keys leads to, starting from the members of a table of a given
origin. Missing tables are made on the way, and of an array of tables the last one is entered. -/
def changeAt (dotted : Bool) (change : Origin → Members → Option Members) :
    Origin → (path : List String) → Members → Option Members
  | origin, [], ms => change origin ms
  | _, key :: path, ms =>
    match ms.lookup key with
    | none => do
      let origin := if dotted then Origin.dotted else .implied
      return ms ++ [(key, .table origin (← changeAt dotted change origin path []))]
    | some (.table origin inner) =>
      if origin = .inline || (dotted && origin = .header) then none
      else do return replace key (.table origin (← changeAt dotted change origin path inner)) ms
    | some (.tables items) => do
      let last ← items.getLast?
      let last ← changeAt dotted change .header path last
      return replace key (.tables (items.dropLast ++ [last])) ms
    | some _ => none

/-- Adds a value under a dotted key. -/
def add (key : List String) (value : Value) (ms : Members) : Option Members := do
  let last ← key.getLast?
  let path := key.dropLast
  let change (origin : Origin) (ms : Members) : Option Members :=
    if !path.isEmpty && origin ≠ .dotted then none
    else if (ms.lookup last).isSome then none
    else some (ms ++ [(last, value)])
  changeAt true change .header path ms

/-- Starts the table of a header. A table that was only implied so far is taken over. -/
def openTable (key : List String) (ms : Members) : Option Members := do
  let last ← key.getLast?
  let change (_ : Origin) (ms : Members) : Option Members :=
    match ms.lookup last with
    | none => some (ms ++ [(last, .table .header [])])
    | some (.table .implied inner) => some (replace last (.table .header inner) ms)
    | some _ => none
  changeAt false change .header key.dropLast ms

/-- Starts one more table of an array. -/
def appendTable (key : List String) (ms : Members) : Option Members := do
  let last ← key.getLast?
  let change (_ : Origin) (ms : Members) : Option Members :=
    match ms.lookup last with
    | none => some (ms ++ [(last, .tables [[]])])
    | some (.tables items) => some (replace last (.tables (items ++ [[]])) ms)
    | some _ => none
  changeAt false change .header key.dropLast ms

/-- The members of an inline table with these pairs. -/
def ofPairs (pairs : List (List String × Value)) : Option Members :=
  pairs.foldlM (fun ms (key, value) => ms.add key value) []

end Members

/-! ## Statements -/

/-- A line of a document that says something. -/
inductive Statement where
  | pair (key : List String) (value : Value)
  | header (key : List String)
  | arrayHeader (key : List String)
  deriving Inhabited, Repr

/-- The document so far, and the path of the table that pairs go to. -/
structure Assembly where
  root : Members := []
  current : List String := []
  deriving Inhabited, Repr

def Assembly.say (a : Assembly) : Statement → Option Assembly
  | .pair key value => do
    let root ← Members.changeAt false (fun _ ms => ms.add key value) .header a.current a.root
    return { a with root }
  | .header key => do return { root := ← a.root.openTable key, current := key }
  | .arrayHeader key => do return { root := ← a.root.appendTable key, current := key }

/-- The table that statements make; `none` if one of them has no place. -/
def assemble (statements : List Statement) : Option Members :=
  (statements.foldlM Assembly.say {}).map (·.root)

end Outline.Toml
