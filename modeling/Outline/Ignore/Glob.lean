/-!
# Globs

Patterns for paths: `?` stands for one byte and `*` for any number of bytes, none of them a slash;
`**` between slashes stands for any number of directories; brackets hold a choice of characters and
braces a choice of patterns. Matching is by bytes, so a character outside ASCII counts as several.
-/
namespace Outline.Glob

inductive Token where
  | literal (c : Char)
  /-- Written `?`. -/
  | any
  /-- Written `*`. -/
  | star
  /-- Two stars and a slash at the start: nothing, or whole directories. -/
  | leadingDirs
  /-- A slash and `**` at the end: all that is inside. -/
  | inside
  /-- Two stars between slashes. -/
  | middleDirs
  | oneOf (negated : Bool) (ranges : List (Char × Char))
  | alternatives (branches : List (List Token))
  deriving Inhabited, Repr

/-! ## Reading a pattern -/

/-- What a bracket turns out to open. -/
inductive Bracket where
  | closed (negated : Bool) (ranges : List (Char × Char)) (rest : List Char)
  /-- There is no closing bracket. -/
  | unclosed
  /-- A range ends before it starts. -/
  | reversed

/-- Reads the ranges of a bracket, the last one first. A closing bracket or a dash that comes first
stands for itself, and so does a dash that comes last. -/
def bracketRanges (negated : Bool) : (first inRange : Bool) → (ranges : List (Char × Char)) →
    List Char → Bracket
  | _, _, _, [] => .unclosed
  | first, inRange, ranges, c :: cs =>
    if c = ']' ∧ !first then
      .closed negated (if inRange then ('-', '-') :: ranges else ranges).reverse cs
    else if c = '-' ∧ !first ∧ !inRange then bracketRanges negated false true ranges cs
    else if inRange then
      match ranges with
      | (lo, _) :: rest =>
        if c < lo then .reversed else bracketRanges negated false false ((lo, c) :: rest) cs
      | [] => .unclosed
    else bracketRanges negated false false ((c, c) :: ranges) cs

/-- Reads a bracket after its opening. -/
def bracket : List Char → Bracket
  | '!' :: cs | '^' :: cs => bracketRanges true true false [] cs
  | cs => bracketRanges false true false [] cs

theorem length_bracketRanges {negated first inRange ranges cs n rs rest}
    (h : bracketRanges negated first inRange ranges cs = .closed n rs rest) :
    rest.length < cs.length := by
  induction cs generalizing first inRange ranges with
  | nil => simp [bracketRanges] at h
  | cons c cs ih =>
    rw [List.length_cons]
    unfold bracketRanges at h
    split at h
    · cases h; omega
    · split at h
      · have := ih h; omega
      · split at h
        · split at h
          · split at h
            · cases h
            · have := ih h; omega
          · cases h
        · have := ih h; omega

theorem length_bracket {cs n rs rest} (h : bracket cs = .closed n rs rest) :
    rest.length < cs.length := by
  unfold bracket at h
  split at h
  · have := length_bracketRanges h; simp only [List.length_cons]; omega
  · have := length_bracketRanges h; simp only [List.length_cons]; omega
  · exact length_bracketRanges h

/-- The branches of a group that are done, and the tokens of the one being read; both the last one
first. -/
structure Level where
  branches : List (List Token) := []
  current : List Token := []

/-- What has been read: the innermost level, and the levels around it. -/
structure Reader where
  top : Level := {}
  below : List Level := []
  /-- The character before the next one. -/
  previous : Option Char := none
  /-- Whether a bracket was found unclosed; all later ones then stand for themselves. -/
  plainBrackets : Bool := false

namespace Reader

def inGroup (r : Reader) : Bool := !r.below.isEmpty

def push (r : Reader) (previous : Char) (tokens : List Token) : Reader :=
  { r with top := { r.top with current := tokens.reverse ++ r.top.current }, previous }

/-- Puts a token in the place of the last one. -/
def replaceLast (r : Reader) (previous : Char) (token : Token) : Reader :=
  { r with top := { r.top with current := token :: r.top.current.tail }, previous }

def openGroup (r : Reader) : Reader :=
  { r with top := {}, below := r.top :: r.below, previous := some '\x7b' }

def nextBranch (r : Reader) : Reader :=
  { r with top := { branches := r.top.current.reverse :: r.top.branches }, previous := some ',' }

def closeGroup? (r : Reader) : Option Reader :=
  match r.below with
  | [] => none
  | level :: below =>
    let group := Token.alternatives (r.top.current.reverse :: r.top.branches).reverse
    some { r with
      top := { level with current := group :: level.current }, below, previous := some '\x7d' }

/-- Reads what stands behind two stars: the reader after them, and whether a slash belongs to
them. -/
def doubleStar (r : Reader) (next : Option Char) : Reader × Bool :=
  let plain := (r.push '*' [.star, .star], false)
  if r.top.current.isEmpty then
    match next with
    | none => (r.push '*' [.leadingDirs], false)
    | some '/' => (r.push '/' [.leadingDirs], true)
    | some _ => plain
  else if r.previous ≠ some '/' ∧
      (!r.inGroup ∨ (r.previous ≠ some ',' ∧ r.previous ≠ some '\x7b')) then plain
  else
    let put (slash : Bool) : Reader × Bool :=
      let previous := if slash then '/' else '*'
      match r.top.current.head? with
      | some .leadingDirs => ({ r with previous }, slash)
      | some .inside => ({ r with previous }, slash)
      | _ => (r.replaceLast previous (if slash then .middleDirs else .inside), slash)
    match next with
    | none => put false
    | some '/' => put true
    | some c => if r.inGroup ∧ (c = ',' ∨ c = '\x7d') then put false else plain

/-- Reads the rest of a pattern. -/
def read (r : Reader) (cs : List Char) : Option Reader :=
  match cs with
  | [] => some r
  | '?' :: cs => read (r.push '?' [.any]) cs
  | '*' :: '*' :: cs =>
    match r.doubleStar cs.head?, cs with
    | (r, true), _ :: cs => read r cs
    | (r, _), cs => read r cs
  | '*' :: cs => read (r.push '*' [.star]) cs
  | '[' :: cs =>
    if r.plainBrackets then read (r.push '[' [.literal '[']) cs
    else
      match h : bracket cs with
      | .closed negated ranges rest =>
        have := length_bracket h
        read (r.push ']' [.oneOf negated ranges]) rest
      | .unclosed => read { r.push '[' [.literal '['] with plainBrackets := true } cs
      | .reversed => none
  | '\x7b' :: cs => read r.openGroup cs
  | '\x7d' :: cs =>
    match r.closeGroup? with
    | some r => read r cs
    | none => none
  | ',' :: cs => if r.inGroup then read r.nextBranch cs else read (r.push ',' [.literal ',']) cs
  | '\\' :: c :: cs => read (r.push c [.literal c]) cs
  | ['\\'] => none
  | c :: cs => read (r.push c [.literal c]) cs
termination_by cs.length
decreasing_by all_goals (simp only [List.length_cons]; omega)

end Reader

/-- The tokens of a pattern; `none` if a brace has no partner, a range is reversed, or the pattern
ends in a backslash. -/
def parse? (pattern : String) : Option (List Token) := do
  let r ← Reader.read {} pattern.toList
  if r.inGroup then none else some r.top.current.reverse

/-! ## Matching -/

def slash : UInt8 := 0x2f

def charBytes (c : Char) : List UInt8 := String.utf8EncodeChar c

def suffixes : List UInt8 → List (List UInt8)
  | [] => [[]]
  | b :: s => (b :: s) :: suffixes s

/-- What follows each slash. -/
def afterSlashes : List UInt8 → List (List UInt8)
  | [] => []
  | b :: s => if b = slash then s :: afterSlashes s else afterSlashes s

/-- The suffixes up to and with the first slash. -/
def withinName : List UInt8 → List (List UInt8)
  | [] => [[]]
  | b :: s => if b = slash then [b :: s] else (b :: s) :: withinName s

/-- The ranges of bytes that a range of characters comes to: the bytes of both ends side by side,
with the dash between the last byte of the one and the first byte of the other. -/
def byteRanges (range : Char × Char) : List (UInt8 × UInt8) :=
  if range.1 = range.2 then (charBytes range.1).map fun b => (b, b)
  else
    let lo := charBytes range.1
    let hi := charBytes range.2
    (lo.dropLast.map fun b => (b, b)) ++ (lo.getLast?.toList.zip hi.head?.toList) ++
      (hi.tail.map fun b => (b, b))

def inClass (ranges : List (Char × Char)) (b : UInt8) : Bool :=
  (ranges.flatMap byteRanges).any fun (lo, hi) => lo ≤ b && b ≤ hi

mutual

/-- Whether a token is a group without any branch that says something. -/
def Token.isVacuous : Token → Bool
  | .alternatives branches => allVacuous branches
  | _ => false

def isVacuous : List Token → Bool
  | [] => true
  | t :: ts => t.isVacuous && isVacuous ts

def allVacuous : List (List Token) → Bool
  | [] => true
  | b :: bs => isVacuous b && allVacuous bs

end

mutual

/-- What can be left of a path after a token. -/
def Token.rests (s : List UInt8) : Token → List (List UInt8)
  | .literal c => ((charBytes c).isPrefixOf? s).toList
  | .any =>
    match s with
    | [] => []
    | b :: s => if b = slash then [] else [s]
  | .star => withinName s
  | .leadingDirs => s :: afterSlashes s
  | .inside =>
    match s with
    | [] => []
    | b :: s => if b = slash then suffixes s else []
  | .middleDirs =>
    match s with
    | [] => []
    | b :: s => if b = slash then s :: afterSlashes s else []
  | .oneOf negated ranges =>
    match s with
    | [] => []
    | b :: s => if inClass ranges b != negated then [s] else []
  | .alternatives branches => if allVacuous branches then [s] else branchRests s branches

/-- What can be left of any of some paths after a row of tokens. -/
def rests (ss : List (List UInt8)) : List Token → List (List UInt8)
  | [] => ss
  | t :: ts => rests (ss.flatMap fun s => t.rests s).eraseDups ts

/-- What can be left after any branch of a group. Branches that say nothing do not count. -/
def branchRests (s : List UInt8) : List (List Token) → List (List UInt8)
  | [] => []
  | b :: bs => (if isVacuous b then [] else rests [s] b) ++ branchRests s bs

end

/-- Whether a path is matched from its start to its end. `**` alone matches every path. -/
def isMatch (tokens : List Token) (path : String) : Bool :=
  match tokens with
  | [.leadingDirs] => true
  | _ => (rests [path.toList.flatMap charBytes] tokens).contains []

end Outline.Glob
