import Outline.Extraction.Walk

/-!
# Scripts on an extraction
-/
namespace Outline

/-- What a script can do with an extraction besides entering scopes. -/
inductive ExtractionAction where
  | function (shape : FunctionShape)
  | classLike (shape : ClassShape)
  | scope (action : ScopeAction)
  | line (text : String)
  | walk (adapter : Adapter) (source : ByteArray) (site : Site)

namespace ExtractionAction

def replyOf : Option Frame → Reply
  | some f => .frame f
  | none => .nothing

def perform : ExtractionAction → Extraction → Reply × Extraction
  | .function shape, x => (replyOf (x.recordFunction shape).1, (x.recordFunction shape).2)
  | .classLike shape, x => (replyOf (x.recordClass shape).1, (x.recordClass shape).2)
  | .scope action, x => action.perform x
  | .line text, x => (.nothing, x.line text)
  | .walk a source s, x => (.nothing, x.walk a source s)

end ExtractionAction

def Extraction.runScript (x : Extraction) (steps : List (Script ExtractionAction)) :
    Run ExtractionAction Extraction :=
  Script.runAll ExtractionAction.perform steps x

def ScopeStack.runScript (s : ScopeStack) (steps : List (Script ScopeAction)) :
    Run ScopeAction ScopeStack :=
  Script.runAll ScopeAction.perform steps s

end Outline
