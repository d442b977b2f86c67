import Outline.Tree

/-!
# The node dump

A log of the nodes that were recognised, with the text of their children. It is written to a sink
that may stop taking bytes at any point; the first write that does not fit ends the dump. A header
goes before the first line.
-/
namespace Outline

/-- A place for bytes. What does not fit into its capacity is lost, from the first such byte on. -/
structure Sink where
  /-- How many bytes it takes in all; `none` if there is no limit. -/
  capacity : Option Nat
  stored : ByteArray := .empty
  deriving Inhabited

namespace Sink

def unlimited : Sink := { capacity := none }

def fits (s : Sink) (bytes : ByteArray) : Bool :=
  match s.capacity with
  | none => true
  | some n => s.stored.size + bytes.size ≤ n

def write (s : Sink) (bytes : ByteArray) : Sink :=
  match s.capacity with
  | none => { s with stored := s.stored ++ bytes }
  | some n => { s with stored := s.stored ++ bytes.extract 0 (n - s.stored.size) }

end Sink

structure NodeDump where
  sink : Sink
  enabled : Bool
  headerWritten : Bool := false
  deriving Inhabited

namespace NodeDump

def disabled : NodeDump := { sink := { capacity := some 0 }, enabled := false }

def toSink (sink : Sink) : NodeDump := { sink, enabled := true }

def header : String := "\n────────── node dump ──────────\n"

/-- How much of a child's text a line shows. -/
def maxChildText : Nat := 120

/-- Writes one line, after the header if it is the first.
mirrors `Diagnostics.line` -/
def line (d : NodeDump) (text : String) : NodeDump :=
  if d.enabled then
    let bytes := ((if d.headerWritten then "" else header) ++ text ++ "\n").toUTF8
    { sink := d.sink.write bytes, enabled := d.sink.fits bytes, headerWritten := true }
  else d

/-- Text on one line: line breaks are shown by a sign, and a long text is cut.
mirrors `truncate` -/
def truncate (text : String) : String :=
  let chars := text.toList.map fun c => if c = '\n' then '⏎' else c
  if chars.length ≤ maxChildText then String.ofList chars
  else String.ofList (chars.take maxChildText ++ ['…'])

/-- A child's position among its siblings, at least three columns wide. -/
def indexText (i : Nat) : String :=
  String.ofList (List.replicate (3 - (toString i).length) ' ') ++ toString i

def childLine (source : ByteArray) (child : Node) (i : Nat) : String :=
  indexText i ++ " " ++ truncate ((child.text? source).getD "<invalid utf-8>")

/-- The lines for one recognised node. -/
def nodeLines (label : String) (n : Node) (source : ByteArray) : List String :=
  ("ENTERED " ++ label ++ " (" ++ n.kind ++ ") at line " ++ toString (n.start.row + 1)) ::
    n.children.mapIdx fun i child => childLine source child i

/-- mirrors `Diagnostics.dump_node` -/
def node (d : NodeDump) (label : String) (n : Node) (source : ByteArray) : NodeDump :=
  if d.enabled then (nodeLines label n source).foldl line d else d

/-- The lines of a text, each with the break at its end. -/
def brokenLines : List Char → List (List Char)
  | [] => []
  | c :: cs =>
    if c = '\n' then [c] :: brokenLines cs
    else
      match brokenLines cs with
      | [] => [[c]]
      | l :: ls => (c :: l) :: ls

/-- A dump as it is written, piece by piece: the header, and then each line by itself. -/
def pieces (text : String) : List String :=
  match header.toList.isPrefixOf? text.toList with
  | some rest => header :: (brokenLines rest).map String.ofList
  | none => (brokenLines text.toList).map String.ofList

def describe (d : NodeDump) : String :=
  "Diagnostics \x7b enabled: " ++ toString d.enabled ++ ", header_written: " ++
    toString d.headerWritten ++ " \x7d"

end NodeDump
end Outline
