import Outline.Source

/-!
# Extracting many sources

The sources wait in a queue, each with its place in the input. Workers take from the queue and put
what they extract beside the place; at the end the answers are put into the order of the input.
Here the workers proceed in waves, each taking one source.

What workers write to one stream meanwhile is not put into order. A piece is written as a whole, but
the pieces of sources that are worked on at the same time may come in any order.
-/
namespace Outline

/-- What became of one source. -/
structure Outcome where
  path : String
  result : Except ExtractError Extracted
  /-- What was written to the node dump meanwhile. -/
  dump : ByteArray

namespace Batch

/-- At least one worker, and no more than there are sources. -/
def workers (jobs sources : Nat) : Nat := max 1 (min jobs sources)

def outcome (e : Extractor) (language : Option Language) (dump : NodeDump) (i : SourceInput) :
    Outcome :=
  let (result, dump) := e.extractDumping i language dump
  { path := i.path, result, dump := dump.sink.stored }

/-- Puts the answers into the order of their places. -/
def inOrder {α : Type} (done : List (α × Nat)) : List α :=
  (done.mergeSort fun a b => a.2 ≤ b.2).map (·.1)

/-- Works through the queue, as many sources at a time as there are workers. -/
def waves {α β : Type} (work : α → β) (n : Nat) (queue : List (α × Nat))
    (done : List (β × Nat)) : List (β × Nat) :=
  match queue with
  | [] => done
  | first :: rest =>
    let wave := first :: rest.take n
    waves work n (rest.drop n) (done ++ wave.map fun (i, place) => (work i, place))
termination_by queue.length
decreasing_by simp only [List.length_drop, List.length_cons]; omega

/-! ## Writing to one stream -/

/-- The next piece of a writer, and what is left then. Writers are counted that have pieces left. -/
def next? {α : Type} : Nat → List (List α) → Option (α × List (List α))
  | _, [] => none
  | k, [] :: ws => (next? k ws).map fun (x, rest) => (x, [] :: rest)
  | 0, (x :: w) :: ws => some (x, w :: ws)
  | k + 1, w :: ws => (next? k ws).map fun (x, rest) => (x, w :: rest)

/-- What several writers write in all, in the order in which it is written. They come to work one
after the other, `n` at a time, and one makes room for the next when it has nothing left. The
schedule says whose turn it is; a turn of no one is passed over, and when there are no more turns
the writers go on one by one. -/
def interleave {α : Type} (n : Nat) : List Nat → List (List α) → List α
  | [], writers => writers.flatten
  | turn :: turns, writers =>
    match next? (turn % n) writers with
    | some (x, rest) => x :: interleave n turns rest
    | none => interleave n turns writers

end Batch

/-- The outcomes, in the order of the inputs.
mirrors `extract_batch` -/
def Extractor.extractBatch (e : Extractor) (inputs : List SourceInput)
    (language : Option Language) (jobs : Nat) (dump : NodeDump := .disabled) : List Outcome :=
  let n := Batch.workers jobs inputs.length
  Batch.inOrder (Batch.waves (Batch.outcome e language dump) (n - 1) inputs.zipIdx [])

end Outline
