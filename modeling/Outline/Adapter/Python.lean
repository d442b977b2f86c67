import Outline.Adapter

/-!
# Python declarations

Functions, lambdas and classes. Default values, annotations and base classes are evaluated in the
scope around the declaration, so the fields that hold them lie outside its own scope.
-/
namespace Outline.Python

/-- Whether a definition below these ancestors, nearest first, stands directly in the body of a
class, decorators aside.
mirrors `is_class_member` -/
def isClassMember : List Node → Bool
  | [] => false
  | parent :: above =>
    if parent.kind = "decorated_definition" then isClassMember above
    else if parent.kind = "block" then
      match above with
      | [] => false
      | owner :: _ => owner.kind == "class_definition"
    else false

def function (s : Site) (source : ByteArray) : FunctionShape :=
  let name := s.node.fieldText? "name" source
  { form := .declared
    name
    hasParameters := s.node.hasField "parameters"
    hasBody := s.node.hasField "body"
    lines := s.node.lines
    returnType := s.node.fieldText? "return_type" source
    isConstructor := name == some "__init__" && isClassMember s.ancestors }

def lambda (n : Node) : FunctionShape :=
  { form := .anonymous
    name := none
    hasParameters := n.hasField "parameters"
    hasBody := n.hasField "body"
    lines := n.lines }

def classDefinition (n : Node) (source : ByteArray) : ClassShape :=
  { name := n.fieldText? "name" source, hasBody := n.hasField "body", lines := n.lines }

/-- mirrors `PythonAdapter.recognize` -/
def recognize (s : Site) (source : ByteArray) : Construct :=
  match s.node.kind with
  | "function_definition" => .function (function s source)
  | "lambda" => .function (lambda s.node)
  | "class_definition" => .classLike (classDefinition s.node source)
  | _ => .other

def outsideFields : List String := ["parameters", "return_type", "superclasses"]

def adapter : Adapter :=
  { language := .python, recognize, outsideOwnScope := outsideFields.contains }

end Outline.Python
