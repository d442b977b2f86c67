import Outline.Language
import Outline.Path
import Outline.Shape
import Outline.Tree

/-!
# Adapters

An adapter tells what the nodes of one language's syntax trees declare. Nothing else about a
language is known to the rest of the library.
-/
namespace Outline

/-- mirrors `DeclarationAdapter` -/
structure Adapter where
  language : Language
  extensions : List String := language.extensions
  recognize : Site → ByteArray → Construct
  /-- Whether what sits under a field of a declaration belongs to the scope around it. -/
  outsideOwnScope : String → Bool := fun _ => false

namespace Adapter

/-- mirrors `DeclarationAdapter.can_handle` -/
def handles (a : Adapter) (path : String) : Bool :=
  match Path.extension? path with
  | some ext => a.extensions.any (sameExtension · ext)
  | none => false

/-- An adapter that recognises nothing. -/
def blank (language : Language) : Adapter := { language, recognize := fun _ _ => .other }

end Adapter

/-! ## Registries -/

/-- Adapters in the order of their registration; the first that fits is taken. -/
abbrev Registry := List Adapter

namespace Registry

/-- mirrors `AdapterRegistry.find_adapter` -/
def find? (r : Registry) (path : String) : Option Adapter := List.find? (·.handles path) r

/-- mirrors `AdapterRegistry.for_language` -/
def forLanguage? (r : Registry) (l : Language) : Option Adapter := List.find? (·.language == l) r

end Registry
end Outline
