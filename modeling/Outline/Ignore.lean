import Outline.Ignore.Glob
import Outline.Path
import Outline.Text.Blank

/-!
# Ignore rules

A line of an ignore file is a rule: a glob and what it says of the paths that it matches. Of the
rules of a list the last one that applies decides. A path on which no rule decides goes by the
directories around it, from the innermost out.
-/
namespace Outline

/-- What a rule says of a path. -/
inductive Verdict where
  | ignored
  | kept
  deriving DecidableEq, Repr, Inhabited

structure IgnoreRule where
  glob : List Glob.Token
  /-- Keeps what it matches instead of ignoring it. -/
  negated : Bool := false
  directoryOnly : Bool := false
  deriving Inhabited, Repr

namespace IgnoreRule

/-- The text of a rule without its marks. -/
structure Line where
  text : List Char
  negated : Bool := false
  /-- Matches from the root only. -/
  anchored : Bool := false
  directoryOnly : Bool := false
  deriving DecidableEq, Repr, Inhabited

/-- A line without the blanks at its end, unless a backslash guards the last of them. -/
def trim (cs : List Char) : List Char :=
  if [' ', '\\'].isPrefixOf cs.reverse then cs else Text.trimEnd cs

/-- Takes the marks from the start: `!` negates, and a slash anchors. A backslash makes the first
mark a plain character. -/
def opening : List Char → Line
  | '\\' :: '!' :: cs => { text := '!' :: cs }
  | '\\' :: '#' :: cs => { text := '#' :: cs }
  | '!' :: '/' :: cs => { text := cs, negated := true, anchored := true }
  | '!' :: cs => { text := cs, negated := true }
  | '/' :: cs => { text := cs, anchored := true }
  | cs => { text := cs }

/-- Takes the slash from the end, and a backslash before it. -/
def closing (l : Line) : Line :=
  match l.text.reverse with
  | '/' :: '\\' :: cs => { l with text := cs.reverse, directoryOnly := true }
  | '/' :: cs => { l with text := cs.reverse, directoryOnly := true }
  | _ => l

/-- The glob of a line. Without a slash inside it matches at any depth, and two stars at its end
match what is inside a directory but not the directory. -/
def globText (l : Line) : List Char :=
  let free := !l.anchored && !l.text.contains '/' && l.text != ['*', '*']
  let text := if free then ['*', '*', '/'] ++ l.text else l.text
  if ['*', '*', '/'].isPrefixOf text.reverse then text ++ ['/', '*'] else text

/-- The rule that a line holds. Comments, blank lines and lines without a valid glob hold none. -/
def ofLine? (line : String) : Option IgnoreRule :=
  match line.toList with
  | '#' :: _ => none
  | cs =>
    match trim cs with
    | [] => none
    | cs =>
      let l := closing (opening cs)
      (Glob.parse? (String.ofList (globText l))).map fun glob =>
        { glob, negated := l.negated, directoryOnly := l.directoryOnly }

def applies (r : IgnoreRule) (path : String) (isDirectory : Bool) : Bool :=
  (!r.directoryOnly || isDirectory) && Glob.isMatch r.glob path

def verdict (r : IgnoreRule) : Verdict := if r.negated then .kept else .ignored

end IgnoreRule

/-- What the last rule that applies says of a path. -/
def verdict? (rules : List IgnoreRule) (path : String) (isDirectory : Bool) : Option Verdict :=
  (rules.reverse.find? (·.applies path isDirectory)).map (·.verdict)

/-! ## Lists with a root -/

/-- Rules for the paths below a root, which may stand in front of them. -/
structure IgnoreList where
  root : String
  rules : List IgnoreRule
  deriving Inhabited, Repr

namespace IgnoreList

def withoutDot (path : List Char) : List Char := (['.', '/'].isPrefixOf? path).getD path

def ofLines (root : String) (lines : List String) : IgnoreList :=
  { root := String.ofList (withoutDot root.toList), rules := lines.filterMap IgnoreRule.ofLine? }

/-- A path as seen from the root. The root is taken away as a text; a name alone keeps its own. -/
def relative (l : IgnoreList) (path : String) : String :=
  let cs := withoutDot path.toList
  String.ofList <|
    if Path.isHere l.root || !cs.contains '/' then cs
    else
      match l.root.toList.isPrefixOf? cs with
      | some ('/' :: rest) => rest
      | some rest => rest
      | none => cs

/-- The verdict on a path or, failing that, on the nearest directory around it that has one. -/
def judge (l : IgnoreList) (path : String) (isDirectory : Bool) : Option Verdict :=
  match verdict? l.rules path isDirectory with
  | some v => some v
  | none => (Path.ancestors path).findSome? fun dir => verdict? l.rules dir true

/-- Whether a path below the root is ignored; `none` for an absolute path that is not below it.
mirrors `IgnoreFilter.is_ignored` -/
def isIgnored? (l : IgnoreList) (path : String) (isDirectory : Bool) : Option Bool :=
  let path := l.relative path
  if Path.isAbsolute path then none else some (l.judge path isDirectory == some .ignored)

end IgnoreList

/-- What is never looked into: the directories of build tools, package managers and editors. -/
def defaultExcludes : List String :=
  ["target/", "node_modules/", "venv/", ".venv/", "vendor/", "dist/", "build/", "out/",
    "__pycache__/", "*.egg-info/", ".git/", ".idea/", ".vscode/"]

/-- The default excludes, and after them some more.
mirrors `IgnoreFilter.new` -/
def IgnoreList.excluding (root : String) (more : List String) : IgnoreList :=
  .ofLines root (defaultExcludes ++ more)

end Outline
