import Outline.Location

/-!
# Shapes of declarations

What recognising a node yields before anything is recorded: the parts that were found. A shape
becomes a declaration if no mandatory part is missing; which parts are mandatory depends on the form
of a function.
-/
namespace Outline

inductive MissingPart where
  | name
  | parameterList
  | body
  | sourceSpan
  deriving DecidableEq, Repr, Inhabited

def MissingPart.text : MissingPart → String
  | .name => "name"
  | .parameterList => "parameter list"
  | .body => "body"
  | .sourceSpan => "source span"

inductive CallableForm where
  | declared
  /-- May lack a body. -/
  | abstract
  /-- May lack a name and a parameter list. -/
  | anonymous
  deriving DecidableEq, Repr, Inhabited

structure FunctionShape where
  form : CallableForm
  name : Option String
  hasParameters : Bool
  hasBody : Bool
  /-- First and last line. -/
  lines : Nat × Nat
  returnType : Option String := none
  isConstructor : Bool := false
  deriving DecidableEq, Repr, Inhabited

structure ClassShape where
  name : Option String
  hasBody : Bool
  lines : Nat × Nat
  deriving DecidableEq, Repr, Inhabited

inductive Construct where
  | function (shape : FunctionShape)
  | classLike (shape : ClassShape)
  | other
  deriving DecidableEq, Repr, Inhabited

/-- A name that is not there, or is there but empty. -/
def lacksName (name : Option String) : Bool := (name.getD "").isEmpty

def checkSpan (lines : Nat × Nat) : Except MissingPart Location :=
  match Location.ofLines? lines.1 lines.2 with
  | some l => .ok l
  | none => .error .sourceSpan

/-- The location, or the first mandatory part that is missing.
mirrors `check` -/
def FunctionShape.check (s : FunctionShape) : Except MissingPart Location :=
  if s.form ≠ .anonymous ∧ lacksName s.name then .error .name
  else if s.form ≠ .anonymous ∧ !s.hasParameters then .error .parameterList
  else if s.form ≠ .abstract ∧ !s.hasBody then .error .body
  else checkSpan s.lines

@[inherit_doc FunctionShape.check]
def ClassShape.check (s : ClassShape) : Except MissingPart Location :=
  if lacksName s.name then .error .name
  else if !s.hasBody then .error .body
  else checkSpan s.lines

end Outline
