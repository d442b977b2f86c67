import Outline.Toml.Number
import Outline.Toml.Text
import Outline.Toml.Value

/-!
# Reading TOML

A document is read into statements, line by line, and these are put together to a table. Values may
be nested and keys dotted up to a fixed depth.
-/
namespace Outline.Toml

/-- Nesting and dotted keys stay below this. -/
def depthLimit : Nat := 80

/-! ## Blanks, comments and ends of lines -/

mutual

/-- Skips blanks, comments and ends of lines. -/
def skipLines : List Char → List Char
  | [] => []
  | '\r' :: '\n' :: cs => skipLines cs
  | c :: cs =>
    if isSpace c || c == '\n' then skipLines cs
    else if c = '#' then skipComment cs
    else c :: cs

/-- Skips the rest of a comment, and what `skipLines` skips after it. -/
def skipComment : List Char → List Char
  | [] => []
  | '\r' :: '\n' :: cs => skipLines cs
  | c :: cs => if c = '\n' then skipLines cs else if isControl c then c :: cs else skipComment cs

end

/-- What follows the end of a statement: blanks, a comment, and the end of the line or text. -/
def afterStatement? (cs : List Char) : Option (List Char) :=
  let rest := match skipSpace cs with
    | '#' :: rest => rest.dropWhile (!isControl ·)
    | rest => rest
  if rest.isEmpty then some [] else afterNewline? rest

/-! ## Keys -/

def isBareKeyChar (c : Char) : Bool := c.isAlphanum || c == '-' || c == '_'

/-- One part of a key: bare, or a string on one line. -/
def keyPart? (cs : List Char) : Option (String × List Char) :=
  match cs with
  | '"' :: rest => (basic? rest).map fun (text, rest) => (String.ofList text, rest)
  | '\'' :: rest => (literal? rest).map fun (text, rest) => (String.ofList text, rest)
  | _ =>
    match cs.span isBareKeyChar with
    | ([], _) => none
    | (text, rest) => some (String.ofList text, rest)

/-- A dotted key of fewer than `limit` parts, and what follows it and the blanks after it. -/
def key? : (limit : Nat) → List Char → Option (List String × List Char)
  | 0, _ | 1, _ => none
  | limit + 1, cs => do
    let (part, rest) ← keyPart? (skipSpace cs)
    match skipSpace rest with
    | '.' :: rest =>
      let (parts, rest) ← key? limit rest
      return (part :: parts, rest)
    | rest => return ([part], rest)

/-! ## Values -/

abbrev Reader (α : Type) := List Char → Option (α × List Char)

def word? (value : Value) (word : String) (cs : List Char) : Option (Value × List Char) :=
  (word.toList.isPrefixOf? cs).map (value, ·)

/-- A number, a date or a time. -/
def number? (cs : List Char) : Option (Value × List Char) :=
  ((moment? cs).map fun (text, rest) => (Value.moment text, rest))
    <|> ((fraction? cs).map fun (text, rest) => (Value.fraction text, rest))
    <|> ((integer? cs).map fun (n, rest) => (Value.integer n, rest))

/-- A value that holds no other. -/
def scalar? (cs : List Char) : Option (Value × List Char) :=
  match cs with
  | '"' :: _ | '\'' :: _ => (string? cs).map fun (s, rest) => (.string s, rest)
  | 't' :: _ => word? (.boolean true) "true" cs
  | 'f' :: _ => word? (.boolean false) "false" cs
  | _ => number? cs

/-- The items of an array after its opening bracket. -/
def items? (value : Reader Value) : (fuel : Nat) → Reader (List Value)
  | 0, _ => none
  | fuel + 1, cs =>
    match skipLines cs with
    | ']' :: rest => some ([], rest)
    | cs => do
      let (v, rest) ← value cs
      match skipLines rest with
      | ']' :: rest => return ([v], rest)
      | ',' :: rest =>
        let (vs, rest) ← items? value fuel rest
        return (v :: vs, rest)
      | _ => none

/-- A key and a value. -/
def pair? (value : Reader Value) : Reader (List String × Value) := fun cs => do
  let (key, rest) ← key? depthLimit cs
  let (v, rest) ← value (skipSpace (← after? '=' rest))
  return ((key, v), rest)

/-- The pairs of an inline table, from the first on. -/
def pairs? (value : Reader Value) : (fuel : Nat) → Reader (List (List String × Value))
  | 0, _ => none
  | fuel + 1, cs => do
    let (p, rest) ← pair? value cs
    match skipSpace rest with
    | '\x7d' :: rest => return ([p], rest)
    | ',' :: rest =>
      let (ps, rest) ← pairs? value fuel rest
      return (p :: ps, rest)
    | _ => none

/-- An inline table after its opening brace. -/
def inlineTable? (value : Reader Value) : Reader Members := fun cs =>
  match skipSpace cs with
  | '\x7d' :: rest => some ([], rest)
  | cs => do
    let (pairs, rest) ← pairs? value (cs.length + 1) cs
    return (← Members.ofPairs pairs, rest)

/-- A value that is nested no deeper than `depth`. -/
def value? : (depth : Nat) → Reader Value
  | 0, cs => scalar? cs
  | depth + 1, cs =>
    match cs with
    | '[' :: rest =>
      (items? (value? depth) (rest.length + 1) rest).map fun (vs, rest) => (.array vs, rest)
    | '\x7b' :: rest =>
      (inlineTable? (value? depth) rest).map fun (ms, rest) => (.table .inline ms, rest)
    | _ => scalar? cs

/-! ## Documents -/

/-- A statement and what follows its line. -/
def statement? (cs : List Char) : Option (Statement × List Char) :=
  match cs with
  | '[' :: '[' :: rest => do
    let (key, rest) ← key? depthLimit rest
    return (.arrayHeader key, ← afterStatement? (← after? ']' (← after? ']' rest)))
  | '[' :: rest => do
    let (key, rest) ← key? depthLimit rest
    return (.header key, ← afterStatement? (← after? ']' rest))
  | _ => do
    let ((key, v), rest) ← pair? (value? (depthLimit - 1)) cs
    return (.pair key v, ← afterStatement? rest)

/-- The statements of a text. Each takes a character at least, so fuel of one more than there are
characters is enough. -/
def statements? : (fuel : Nat) → List Char → Option (List Statement)
  | 0, _ => none
  | fuel + 1, cs =>
    match skipLines cs with
    | [] => some []
    | cs => do
      let (s, rest) ← statement? cs
      return s :: (← statements? fuel rest)

/-- The table that a text describes. A byte order mark may come first. -/
def read? (text : String) : Option Members := do
  let cs := match text.toList with
    | '\uFEFF' :: rest => rest
    | cs => cs
  assemble (← statements? (cs.length + 1) cs)

end Outline.Toml
