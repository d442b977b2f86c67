import Outline.CommandLine.Scan

/-!
# Help texts

A help text says what a command is for, how it is called, and what its commands, arguments and
options are. The long form starts with a longer description and gives every option some lines of its
own.
-/
namespace Outline.CommandLine

structure CommandSpec where
  /-- How the command is called, from the program's name on. -/
  call : String
  about : String
  /-- A longer description, where there is one. -/
  description : Option String := none
  /-- The names of the commands below this one, and what they are for. -/
  commands : List (String × String) := []
  /-- How the command's words are written, and what they stand for. -/
  words : Option (String × String) := none
  options : List OptionSpec := []

namespace CommandSpec

def padded (width : Nat) (s : String) : String :=
  s ++ String.ofList (List.replicate (width - s.length) ' ')

/-- Rows of a name and an explanation, with the explanations below each other. -/
def table (rows : List (String × String)) : String :=
  let width := rows.foldl (fun w row => max w row.1.length) 0
  String.join (rows.map fun (name, text) => "  " ++ padded width name ++ "  " ++ text ++ "\n")

/-- Rows with the explanation on the next line, and an empty line between rows. -/
def spacedTable (rows : List (String × String)) : String :=
  "\n".intercalate (rows.map fun (name, text) => "  " ++ name ++ "\n          " ++ text ++ "\n")

def optionText (o : OptionSpec) : String :=
  let letter := match o.letter with
    | some c => String.ofList ['-', c, ',', ' ']
    | none => "    "
  letter ++ "--" ++ o.long ++
    match o.value with
    | some name => " <" ++ name ++ ">"
    | none => ""

/-- The option that every command has. -/
def helpOption (text : String) : OptionSpec := { long := "help", letter := some 'h', help := text }

/-- Whether an option is one of the command's own, and not for its help or version. -/
def isOwn (o : OptionSpec) : Bool := o.long != "help" && o.long != "version"

def usage (c : CommandSpec) : String :=
  c.call ++ (if c.options.any isOwn then " [OPTIONS]" else "") ++
    (match c.words with
      | some (text, _) => " " ++ text
      | none => "") ++
    (if c.commands.isEmpty then "" else " <COMMAND>")

/-- A part of a help text under its title; nothing if there is nothing in it. -/
def part (title body : String) : List String :=
  if body.isEmpty then [] else [title ++ ":\n" ++ body]

/-- The help text; the long form only where there is a longer description. -/
def help (c : CommandSpec) (summary : Bool) : String :=
  let long := c.description.isSome && !summary
  let explanation (o : OptionSpec) : String :=
    if o.long != "help" || c.description.isNone then o.help
    else if long then o.help ++ " (see a summary with '-h')"
    else o.help ++ " (see more with '--help')"
  let rows := c.options.map fun o => (optionText o, explanation o)
  let opening := if long then c.description.getD c.about else c.about
  let parts :=
    part "Commands" (table c.commands) ++ part "Arguments" (table c.words.toList) ++
      part "Options" (if long then spacedTable rows else table rows)
  opening ++ "\n\nUsage: " ++ c.usage ++ "\n\n" ++ "\n".intercalate parts

end CommandSpec
end Outline.CommandLine
