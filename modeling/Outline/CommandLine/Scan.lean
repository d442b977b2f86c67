/-!
# Arguments of a command

Options are given by a long name after two dashes, or by a letter after one; letters can share a
dash. A value is the next argument, or follows in the same one, after an equals sign or, behind a
letter, directly. Two dashes alone end the options. What is not an option is a word.

Arguments are taken in their order: the first that asks for help, or that is in error, decides.
-/
namespace Outline.CommandLine

structure OptionSpec where
  long : String
  letter : Option Char := none
  /-- The name of its value, if it takes one. -/
  value : Option String := none
  /-- Which values it takes. -/
  accepts : String → Bool := fun _ => true
  help : String := ""

/-- What an argument turns out to be. -/
inductive Piece where
  | flag (name : String) (byLetter : Bool)
  | setting (name value : String)
  | word (text : String)
  | fault
  deriving DecidableEq, Repr, Inhabited

/-- A dash and something after it; a dash alone is a word. -/
def looksLikeOption (arg : String) : Bool := arg.toList.head? == some '-' && arg != "-"

/-- Letters that share a dash. The last of them may be an option whose value is still to come. -/
def letters (specs : List OptionSpec) : List Char → List Piece × Option OptionSpec
  | [] => ([], none)
  | c :: cs =>
    match specs.find? (·.letter == some c) with
    | none => ([.fault], none)
    | some spec =>
      if spec.value.isNone then
        let (pieces, pending) := letters specs cs
        (.flag spec.long true :: pieces, pending)
      else
        match cs with
        | [] => ([], some spec)
        | '=' :: value => ([.setting spec.long (String.ofList value)], none)
        | value => ([.setting spec.long (String.ofList value)], none)

/-- An option by its long name, with or without a value. -/
def longOption (specs : List OptionSpec) (body : List Char) : List Piece × Option OptionSpec :=
  let name := String.ofList (body.takeWhile (· != '='))
  match specs.find? (·.long == name), body.dropWhile (· != '=') with
  | none, _ => ([.fault], none)
  | some spec, [] => if spec.value.isNone then ([.flag name false], none) else ([], some spec)
  | some spec, _ :: value =>
    if spec.value.isNone then ([.fault], none) else ([.setting name (String.ofList value)], none)

def option (specs : List OptionSpec) (arg : String) : List Piece × Option OptionSpec :=
  match arg.toList with
  | '-' :: '-' :: body => longOption specs body
  | _ :: cs => letters specs cs
  | [] => ([.fault], none)

/-- The pieces of a command's arguments, and what is left. A command without words leaves all from
its first word on. -/
def scan (specs : List OptionSpec) (takesWords : Bool) : (pending : Option OptionSpec) →
    List String → List Piece × List String
  | none, [] => ([], [])
  | some _, [] => ([.fault], [])
  | some spec, arg :: args =>
    if looksLikeOption arg then ([.fault], [])
    else
      let (pieces, rest) := scan specs takesWords none args
      (.setting spec.long arg :: pieces, rest)
  | none, arg :: args =>
    if arg = "--" then (if takesWords then args.map .word else [.fault], [])
    else if looksLikeOption arg then
      let (pieces, pending) := option specs arg
      let (more, rest) := scan specs takesWords pending args
      (pieces ++ more, rest)
    else if takesWords then
      let (pieces, rest) := scan specs takesWords none args
      (.word arg :: pieces, rest)
    else ([], arg :: args)

/-! ## What was given -/

structure Given where
  flags : List String := []
  settings : List (String × String) := []
  words : List String := []
  deriving DecidableEq, Repr, Inhabited

/-- What ends the reading of arguments before they are all read. -/
inductive Stop where
  | help (summary : Bool)
  | version
  | misuse
  deriving DecidableEq, Repr, Inhabited

/-- Takes one more piece. An option is given once only, and no word is empty. -/
def Given.take (specs : List OptionSpec) (g : Given) : Piece → Except Stop Given
  | .flag name byLetter =>
    if name = "help" then .error (.help byLetter)
    else if name = "version" then .error .version
    else if g.flags.contains name then .error .misuse
    else .ok { g with flags := name :: g.flags }
  | .setting name value =>
    if (g.settings.lookup name).isSome then .error .misuse
    else if specs.any fun spec => spec.long == name && !spec.accepts value then .error .misuse
    else .ok { g with settings := (name, value) :: g.settings }
  | .word text =>
    if text.isEmpty then .error .misuse else .ok { g with words := g.words ++ [text] }
  | .fault => .error .misuse

def gather (specs : List OptionSpec) (pieces : List Piece) : Except Stop Given :=
  pieces.foldlM (Given.take specs) {}

end Outline.CommandLine
