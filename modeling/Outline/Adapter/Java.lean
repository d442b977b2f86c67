import Outline.Adapter

/-!
# Java declarations

Methods, constructors (the compact ones of records included) and lambdas are functions; classes,
interfaces, enums, records and annotation types are class-like. A method without a body, as in an
interface, is abstract.
-/
namespace Outline.Java

def method (n : Node) (source : ByteArray) : FunctionShape :=
  let hasBody := n.hasField "body"
  { form := if hasBody then .declared else .abstract
    name := n.fieldText? "name" source
    hasParameters := n.hasField "parameters"
    hasBody
    lines := n.lines
    returnType := n.fieldText? "type" source }

def constructor (n : Node) (source : ByteArray) : FunctionShape :=
  { form := .declared
    name := n.fieldText? "name" source
    hasParameters := n.hasField "parameters"
    hasBody := n.hasField "body"
    lines := n.lines
    isConstructor := true }

/-- The parameters of a compact constructor are those of its record's header. -/
def compactConstructor (n : Node) (source : ByteArray) : FunctionShape :=
  { constructor n source with hasParameters := true }

def lambda (n : Node) : FunctionShape :=
  { form := .anonymous
    name := none
    hasParameters := n.hasField "parameters"
    hasBody := n.hasField "body"
    lines := n.lines }

def typeDeclaration (n : Node) (source : ByteArray) : ClassShape :=
  { name := n.fieldText? "name" source, hasBody := n.hasField "body", lines := n.lines }

/-- mirrors `JavaAdapter.recognize` -/
def recognize (s : Site) (source : ByteArray) : Construct :=
  match s.node.kind with
  | "method_declaration" => .function (method s.node source)
  | "constructor_declaration" => .function (constructor s.node source)
  | "compact_constructor_declaration" => .function (compactConstructor s.node source)
  | "lambda_expression" => .function (lambda s.node)
  | "class_declaration" | "interface_declaration" | "enum_declaration" | "record_declaration"
  | "annotation_type_declaration" => .classLike (typeDeclaration s.node source)
  | _ => .other

def adapter : Adapter := { language := .java, recognize }

end Outline.Java
