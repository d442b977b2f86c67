import Outline.Json.Numeral

/-!
# JSON texts, read as far as they go

Reading a text never fails: it yields a document that holds all up to the first character that does
not fit, and is marked as broken there. What is read from a document is thus checked in the
order of the text, and a part that does not fit its place is noticed before a mistake further on.

An escaped surrogate without its partner is a mistake only where the string is wanted: such a string
has no text.
-/
namespace Outline.Json
open Text

/-- What stands where something else was expected. -/
inductive Unexpected where
  | null
  | bool (b : Bool)
  | number (n : Number)
  | string (s : String)
  | sequence
  | map
  deriving DecidableEq, Repr, Inhabited

inductive Key where
  | text (s : Option String)
  /-- Something other than a string. -/
  | stray (what : Unexpected)
  deriving DecidableEq, Repr, Inhabited

inductive Doc where
  | null
  | bool (b : Bool)
  | number (n : Numeral)
  | string (s : Option String)
  | array (items : List Doc) (closed : Bool)
  | object (members : List (Key × Doc)) (closed : Bool)
  /-- No value can be read here. -/
  | broken
  deriving Inhabited, Repr

/-! ## Blanks -/

def isBlank (c : Char) : Bool := c == ' ' || c == '\n' || c == '\t' || c == '\r'

def skipBlanks (cs : List Char) : List Char := cs.dropWhile isBlank

/-! ## Strings -/

/-- A character, or a 16-bit unit that was written as an escape. -/
inductive Piece where
  | char (c : Char)
  | unit (n : Nat)
  deriving DecidableEq, Repr, Inhabited

def escaped? (c : Char) : Option Char :=
  if c = '"' ∨ c = '\\' ∨ c = '/' then some c
  else if c = 'b' then some '\x08'
  else if c = 'f' then some '\x0c'
  else if c = 'n' then some '\n'
  else if c = 'r' then some '\r'
  else if c = 't' then some '\t'
  else none

/-- The pieces of a string up to its closing mark, and what follows that. -/
def stringPieces? : List Char → Option (List Piece × List Char)
  | [] => none
  | '"' :: rest => some ([], rest)
  | '\\' :: 'u' :: a :: b :: c :: d :: rest => do
    let n ← hexNat? [a, b, c, d]
    let (ps, rest) ← stringPieces? rest
    return (.unit n :: ps, rest)
  | '\\' :: c :: rest => do
    let e ← escaped? c
    let (ps, rest) ← stringPieces? rest
    return (.char e :: ps, rest)
  | c :: rest =>
    if c.toNat < 0x20 ∨ c = '\\' then none
    else do
      let (ps, rest) ← stringPieces? rest
      return (.char c :: ps, rest)

def isHigh (n : Nat) : Bool := 0xd800 ≤ n && n < 0xdc00
def isLow (n : Nat) : Bool := 0xdc00 ≤ n && n < 0xe000

/-- The text that pieces make, if every surrogate has its partner. -/
def piecesText? : List Piece → Option (List Char)
  | [] => some []
  | .char c :: ps => (c :: ·) <$> piecesText? ps
  | .unit h :: .unit l :: ps =>
    if isHigh h then
      if isLow l then
        (Char.ofNat (0x10000 + (h - 0xd800) * 0x400 + (l - 0xdc00)) :: ·) <$> piecesText? ps
      else none
    else if isLow h then none
    else (Char.ofNat h :: ·) <$> piecesText? (.unit l :: ps)
  | .unit h :: ps => if isHigh h || isLow h then none else (Char.ofNat h :: ·) <$> piecesText? ps

/-- The text of a string after its opening mark, and what follows it. -/
def string? (cs : List Char) : Option (Option String × List Char) := do
  let (ps, rest) ← stringPieces? cs
  return ((piecesText? ps).map String.ofList, rest)

/-! ## Numbers -/

def digits (cs : List Char) : List Char × List Char := cs.span isDigit

def exponent? : List Char → Option (Option (Bool × List Char) × List Char)
  | c :: rest =>
    if c = 'e' ∨ c = 'E' then
      let (negative, rest) := match rest with
        | '+' :: rest => (false, rest)
        | '-' :: rest => (true, rest)
        | rest => (false, rest)
      match digits rest with
      | ([], _) => none
      | (ds, rest) => some (some (negative, ds), rest)
    else some (none, c :: rest)
  | [] => some (none, [])

/-- The numeral after its sign. A whole part of several digits does not start with a zero. -/
def numeral? (negative : Bool) (cs : List Char) : Option (Numeral × List Char) := do
  let (whole, rest) ← match digits cs with
    | ([], _) => none
    | ('0' :: _ :: _, _) => none
    | found => some found
  let (fraction, rest) ← match rest with
    | '.' :: rest =>
      match digits rest with
      | ([], _) => none
      | found => some found
    | rest => some ([], rest)
  let (exponent, rest) ← exponent? rest
  return ({ negative, whole, fraction, exponent }, rest)

/-! ## Values -/

/-- What was read, and what follows it unless the reading ended there. -/
abbrev Reading (α : Type) := α × Option (List Char)

def wordReading (doc : Doc) (word : String) (cs : List Char) : Reading Doc :=
  match word.toList.isPrefixOf? cs with
  | some rest => (doc, some rest)
  | none => (.broken, none)

/-- A value that holds no other, after blanks; `none` at a bracket. -/
def scalar? (cs : List Char) : Option (Reading Doc) :=
  match cs with
  | 'n' :: _ => some (wordReading .null "null" cs)
  | 't' :: _ => some (wordReading (.bool true) "true" cs)
  | 'f' :: _ => some (wordReading (.bool false) "false" cs)
  | '"' :: rest =>
    match string? rest with
    | some (s, rest) => some (.string s, some rest)
    | none => some (.broken, none)
  | '[' :: _ | '\x7b' :: _ => none
  | c :: rest =>
    let numeral := if c = '-' then numeral? true rest else numeral? false cs
    match numeral with
    | some (n, rest) => some (.number n, some rest)
    | none => some (.broken, none)
  | [] => some (.broken, none)

/-- What stands in the place of a key. -/
def strayKey? (cs : List Char) : Option Key :=
  match scalar? cs with
  | none => some (.stray (if cs.head? = some '[' then .sequence else .map))
  | some (.null, _) => some (.stray .null)
  | some (.bool b, _) => some (.stray (.bool b))
  | some (.number n, _) => n.number?.map fun n => .stray (.number n)
  | _ => none

mutual

/-- Reads one value. The fuel bounds the nesting and the number of items; a text never needs more
than its length. -/
def value (fuel : Nat) (cs : List Char) : Reading Doc :=
  match fuel with
  | 0 => (.broken, none)
  | fuel + 1 =>
    let cs := skipBlanks cs
    match scalar? cs with
    | some reading => reading
    | none =>
      match cs with
      | '[' :: rest =>
        let (ds, rest) := firstItem fuel rest
        (.array ds rest.isSome, rest)
      | _ =>
        let (ms, rest) := firstMember fuel cs.tail
        (.object ms rest.isSome, rest)

/-- The items after the opening bracket. -/
def firstItem (fuel : Nat) (cs : List Char) : Reading (List Doc) :=
  match fuel with
  | 0 => ([], none)
  | fuel + 1 =>
    match skipBlanks cs with
    | [] => ([], none)
    | ']' :: rest => ([], some rest)
    | cs => moreItems fuel (value fuel cs)

/-- The items from one that was just read on. -/
def moreItems (fuel : Nat) (reading : Reading Doc) : Reading (List Doc) :=
  match fuel, reading with
  | _, (d, none) => ([d], none)
  | 0, (d, some _) => ([d], none)
  | fuel + 1, (d, some cs) =>
    match skipBlanks cs with
    | ']' :: rest => ([d], some rest)
    | ',' :: rest =>
      let (ds, rest) := moreItems fuel (value fuel rest)
      (d :: ds, rest)
    | _ => ([d], none)

/-- The members after the opening brace. -/
def firstMember (fuel : Nat) (cs : List Char) : Reading (List (Key × Doc)) :=
  match fuel with
  | 0 => ([], none)
  | fuel + 1 =>
    match skipBlanks cs with
    | [] => ([], none)
    | '\x7d' :: rest => ([], some rest)
    | cs => member fuel cs

/-- The members from a key on. -/
def member (fuel : Nat) (cs : List Char) : Reading (List (Key × Doc)) :=
  match fuel with
  | 0 => ([], none)
  | fuel + 1 =>
    match skipBlanks cs with
    | '"' :: rest =>
      match string? rest with
      | none => ([], none)
      | some (key, rest) =>
        match skipBlanks rest with
        | ':' :: rest => moreMembers fuel (.text key) (value fuel rest)
        | _ => ([(.text key, .broken)], none)
    | cs => ((strayKey? cs).toList.map (·, .broken), none)

/-- The members from one that was just read on. -/
def moreMembers (fuel : Nat) (key : Key) (reading : Reading Doc) : Reading (List (Key × Doc)) :=
  match fuel, reading with
  | _, (d, none) => ([(key, d)], none)
  | 0, (d, some _) => ([(key, d)], none)
  | fuel + 1, (d, some cs) =>
    match skipBlanks cs with
    | '\x7d' :: rest => ([(key, d)], some rest)
    | ',' :: rest =>
      let (ms, rest) := member fuel rest
      ((key, d) :: ms, rest)
    | _ => ([(key, d)], none)

end

/-- A text as a document, and whether nothing but blanks follows it. -/
structure Document where
  root : Doc
  complete : Bool
  deriving Inhabited

def Document.read (text : String) : Document :=
  let cs := text.toList
  let (root, rest) := value (2 * cs.length + 2) cs
  { root, complete := match rest with
      | some rest => (skipBlanks rest).isEmpty
      | none => false }

mutual

/-- Whether nothing in a value is broken. -/
def Doc.intact : Doc → Bool
  | .array items closed => closed && intactAll items
  | .object members closed => closed && intactMembers members
  | .broken => false
  | _ => true

def Doc.intactAll : List Doc → Bool
  | [] => true
  | d :: ds => d.intact && intactAll ds

def Doc.intactMembers : List (Key × Doc) → Bool
  | [] => true
  | (.text _, d) :: ms => d.intact && intactMembers ms
  | (.stray _, _) :: _ => false

end

end Outline.Json
