import Outline.Adapter.Java
import Outline.Adapter.Python

/-!
# The built-in adapters
-/
namespace Outline

def Language.adapter : Language → Adapter
  | .python => Python.adapter
  | .java => Java.adapter

/-- mirrors `default_registry` -/
def Registry.builtin : Registry := Language.all.map Language.adapter

end Outline
