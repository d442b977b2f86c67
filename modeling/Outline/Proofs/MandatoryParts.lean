import Mathlib.Data.List.Forall2
import Outline.Adapter.Builtin
import Outline.Proofs.Walk.Inventory

/-!
# Mandatory parts

Which nodes declare something, and what such a node must have, as a table for each language
(`Language.declaring`). A walk records a declaring node that has all its mandatory parts, and
reports any other by the first part that it lacks; a report leaves no other trace than the lines in
the dump.

* `settles_check`: the two checks on shapes find the first part that a shape misses.
* `Language.recognized`: what is recognised is what the table lists, and a shape misses the mandatory
  parts that its node lacks.
* `malformed?_eq_some_iff`, `declares_eq_some_iff`: the report on a site and what is recorded for it,
  by the table.
* `visit_of_isDamaged`, `visit_of_isWhole`: what a visit answers and changes.
* `Extraction.forall₂_walk`: what a walk adds, beside the sites it adds it for.
* `skipped_iff_part_lacking`: single visits and whole walks.
-/
namespace Outline

/-! ## The table -/

/-- The place of a part in the order in which parts are looked for. -/
def MissingPart.rank : MissingPart → Nat
  | .name => 0
  | .parameterList => 1
  | .body => 2
  | .sourceSpan => 3

/-- A kind of node that declares something. -/
structure Declaring where
  kind : String
  construct : EntityKind
  /-- What it must have besides lines that are in order. -/
  parts : List MissingPart

def Declaring.mandatory (d : Declaring) : List MissingPart := d.parts ++ [.sourceSpan]

def Language.declaring : Language → List Declaring
  | .python =>
    [⟨"function_definition", .function, [.name, .parameterList, .body]⟩,
     ⟨"class_definition", .classLike, [.name, .body]⟩,
     ⟨"lambda", .function, [.body]⟩]
  | .java =>
    [⟨"method_declaration", .function, [.name, .parameterList]⟩,
     ⟨"constructor_declaration", .function, [.name, .parameterList, .body]⟩,
     ⟨"compact_constructor_declaration", .function, [.name, .body]⟩,
     ⟨"lambda_expression", .function, [.body]⟩,
     ⟨"class_declaration", .classLike, [.name, .body]⟩,
     ⟨"interface_declaration", .classLike, [.name, .body]⟩,
     ⟨"enum_declaration", .classLike, [.name, .body]⟩,
     ⟨"record_declaration", .classLike, [.name, .body]⟩,
     ⟨"annotation_type_declaration", .classLike, [.name, .body]⟩]

def Language.declaring? (l : Language) (kind : String) : Option Declaring :=
  l.declaring.find? (·.kind = kind)

def Language.lambdaKind : Language → String
  | .python => "lambda"
  | .java => "lambda_expression"

namespace Node

/-- The children that sit under a field, in order. -/
def under (n : Node) (field : String) : List Node := n.children.filter (·.field = some field)

/-- A name is lacking if there is no child for it, or if the first such child covers no bytes, or
bytes that are no UTF-8; a parameter list or a body if there is no child for it; and a span if the
node ends in a row before the one it starts in. -/
def Lacks (source : ByteArray) (n : Node) : MissingPart → Prop
  | .name => ∀ c ∈ (n.under "name").head?,
      source.extract c.startByte c.endByte = .empty ∨
        ¬ (source.extract c.startByte c.endByte).IsValidUTF8
  | .parameterList => n.under "parameters" = []
  | .body => n.under "body" = []
  | .sourceSpan => n.stop.row < n.start.row

instance (source : ByteArray) (n : Node) (p : MissingPart) : Decidable (n.Lacks source p) :=
  match p with
  | .name => inferInstanceAs (Decidable (∀ c ∈ (n.under "name").head?, _ ∨ ¬ _))
  | .parameterList => inferInstanceAs (Decidable (n.under "parameters" = []))
  | .body => inferInstanceAs (Decidable (n.under "body" = []))
  | .sourceSpan => inferInstanceAs (Decidable (n.stop.row < n.start.row))

theorem childByField?_eq (n : Node) (field : String) :
    n.childByField? field = (n.under field).head? := by
  rw [childByField?, under, List.head?_filter]
  congr 1
  funext c
  by_cases h : c.field = some field <;> simp [h]

theorem hasField_eq_false_iff {n : Node} {field : String} :
    n.hasField field = false ↔ n.under field = [] := by
  rw [hasField, childByField?_eq]
  simp

end Node

/-- A text is empty just where its bytes are. -/
theorem lacksName_fromUTF8? (bytes : ByteArray) :
    lacksName (String.fromUTF8? bytes) = true ↔ bytes = .empty ∨ ¬ bytes.IsValidUTF8 := by
  unfold String.fromUTF8? lacksName
  by_cases h : bytes.IsValidUTF8
  · have hbytes : (String.fromUTF8 bytes h).toByteArray = bytes := rfl
    rw [dif_pos h, Option.getD_some, String.isEmpty_iff, ← String.toByteArray_inj, hbytes]
    simp [h]
  · simp [h]

theorem Node.lacksName_iff (source : ByteArray) (n : Node) :
    lacksName (n.fieldText? "name" source) = true ↔ n.Lacks source .name := by
  unfold fieldText? Lacks
  rw [childByField?_eq]
  cases (n.under "name").head? with
  | none => simp [lacksName]
  | some c =>
    simp only [Option.bind_some, text?, lacksName_fromUTF8?, Option.mem_some, forall_eq']

/-- A node that ends at the very start of a row does not reach into it, which takes away one row at
most, and only from a node that spans two. -/
theorem Node.ofLines?_lines (source : ByteArray) (n : Node) :
    Location.ofLines? n.lines.1 n.lines.2 = none ↔ n.Lacks source .sourceSpan := by
  unfold Location.ofLines? lines Lacks
  simp only [ite_eq_right_iff, reduceCtorEq, imp_false]
  split <;> omega

/-! ## The first part that is missing -/

namespace MissingPart

/-- Of the parts with a property, the one that is looked for first. -/
def IsFirst (P : MissingPart → Prop) (p : MissingPart) : Prop := P p ∧ ∀ q, P q → p.rank ≤ q.rank

theorem rank_inj {p q : MissingPart} (h : p.rank = q.rank) : p = q := by
  cases p <;> cases q <;> simp_all [rank]

theorem IsFirst.unique {P : MissingPart → Prop} {p q : MissingPart} (hp : IsFirst P p)
    (hq : IsFirst P q) : p = q :=
  rank_inj (Nat.le_antisymm (hp.2 q hq.1) (hq.2 p hp.1))

end MissingPart

/-- A check answers the first of the missing parts, or a location if none is missing. -/
def Settles (P : MissingPart → Prop) : Except MissingPart Location → Prop
  | .error p => MissingPart.IsFirst P p
  | .ok _ => ∀ p, ¬ P p

theorem Settles.congr {P Q : MissingPart → Prop} (h : ∀ p, P p ↔ Q p)
    {answer : Except MissingPart Location} (hs : Settles P answer) : Settles Q answer := by
  have hPQ : P = Q := funext fun p => propext (h p)
  rwa [← hPQ]

theorem Settles.error_iff {P : MissingPart → Prop} {answer : Except MissingPart Location}
    (hs : Settles P answer) {p : MissingPart} : answer = .error p ↔ MissingPart.IsFirst P p := by
  cases answer with
  | error q =>
    rw [Except.error.injEq]
    exact ⟨fun h => h ▸ hs, hs.unique⟩
  | ok location => exact ⟨nofun, fun hp => absurd hp.1 (hs p)⟩

theorem Settles.toOption_iff {P : MissingPart → Prop} {answer : Except MissingPart Location}
    (hs : Settles P answer) : (∃ location, answer.toOption = some location) ↔ ∀ p, ¬ P p := by
  cases answer with
  | error q => exact ⟨nofun, fun h => absurd hs.1 (h q)⟩
  | ok location => exact ⟨fun _ => hs, fun _ => ⟨location, rfl⟩⟩

/-- Looking for name, parameter list and body, in this order, and for the lines last. -/
theorem settles_cascade (P : MissingPart → Prop) [DecidablePred P] {lines : Nat × Nat}
    (hspan : P .sourceSpan ↔ Location.ofLines? lines.1 lines.2 = none) :
    Settles P (if P .name then .error .name else if P .parameterList then .error .parameterList
      else if P .body then .error .body else checkSpan lines) := by
  by_cases hname : P .name
  · rw [if_pos hname]
    exact ⟨hname, fun q _ => Nat.zero_le _⟩
  rw [if_neg hname]
  by_cases hparameters : P .parameterList
  · rw [if_pos hparameters]
    refine ⟨hparameters, fun q hq => ?_⟩
    cases q with
    | name => exact absurd hq hname
    | parameterList | body | sourceSpan => decide
  rw [if_neg hparameters]
  by_cases hbody : P .body
  · rw [if_pos hbody]
    refine ⟨hbody, fun q hq => ?_⟩
    cases q with
    | name => exact absurd hq hname
    | parameterList => exact absurd hq hparameters
    | body | sourceSpan => decide
  rw [if_neg hbody, checkSpan]
  cases hlines : Location.ofLines? lines.1 lines.2 with
  | none =>
    refine ⟨hspan.mpr hlines, fun q hq => ?_⟩
    cases q with
    | name => exact absurd hq hname
    | parameterList => exact absurd hq hparameters
    | body => exact absurd hq hbody
    | sourceSpan => exact Nat.le_refl _
  | some location =>
    intro q hq
    cases q with
    | name => exact hname hq
    | parameterList => exact hparameters hq
    | body => exact hbody hq
    | sourceSpan => rw [hspan, hlines] at hq; cases hq

/-- What a function's shape must have and has not. -/
def FunctionShape.Misses (s : FunctionShape) : MissingPart → Prop
  | .name => s.form ≠ .anonymous ∧ lacksName s.name
  | .parameterList => s.form ≠ .anonymous ∧ !s.hasParameters
  | .body => s.form ≠ .abstract ∧ !s.hasBody
  | .sourceSpan => Location.ofLines? s.lines.1 s.lines.2 = none

instance (s : FunctionShape) : DecidablePred s.Misses
  | .name => inferInstanceAs (Decidable (_ ∧ _))
  | .parameterList => inferInstanceAs (Decidable (_ ∧ _))
  | .body => inferInstanceAs (Decidable (_ ∧ _))
  | .sourceSpan => inferInstanceAs (Decidable (_ = none))

@[inherit_doc FunctionShape.Misses]
def ClassShape.Misses (s : ClassShape) : MissingPart → Prop
  | .name => lacksName s.name
  | .parameterList => False
  | .body => !s.hasBody
  | .sourceSpan => Location.ofLines? s.lines.1 s.lines.2 = none

instance (s : ClassShape) : DecidablePred s.Misses
  | .name => inferInstanceAs (Decidable (_ = true))
  | .parameterList => instDecidableFalse
  | .body => inferInstanceAs (Decidable (_ = true))
  | .sourceSpan => inferInstanceAs (Decidable (_ = none))

theorem FunctionShape.settles_check (s : FunctionShape) : Settles s.Misses s.check :=
  settles_cascade s.Misses Iff.rfl

theorem ClassShape.settles_check (s : ClassShape) : Settles s.Misses s.check :=
  settles_cascade s.Misses Iff.rfl

/-! ## What is recognised -/

/-- A mandatory part that a node lacks. -/
def Node.Misses (source : ByteArray) (n : Node) (d : Declaring) (p : MissingPart) : Prop :=
  p ∈ d.mandatory ∧ n.Lacks source p

namespace Node

variable {source : ByteArray} {n : Node} {d : Declaring}

@[simp] theorem misses_name : n.Misses source d .name ↔
    .name ∈ d.parts ∧ lacksName (n.fieldText? "name" source) = true := by
  simp [Misses, Declaring.mandatory, lacksName_iff]

@[simp] theorem misses_parameterList : n.Misses source d .parameterList ↔
    .parameterList ∈ d.parts ∧ n.hasField "parameters" = false := by
  simp [Misses, Declaring.mandatory, hasField_eq_false_iff, Lacks]

@[simp] theorem misses_body : n.Misses source d .body ↔
    .body ∈ d.parts ∧ n.hasField "body" = false := by
  simp [Misses, Declaring.mandatory, hasField_eq_false_iff, Lacks]

@[simp] theorem misses_sourceSpan : n.Misses source d .sourceSpan ↔
    Location.ofLines? n.lines.1 n.lines.2 = none := by
  simp [Misses, Declaring.mandatory, ofLines?_lines source]

end Node

/-- A function's shape that misses what its node misses, and is anonymous just if the node is a
lambda. -/
structure FunctionShape.Fits (l : Language) (source : ByteArray) (n : Node) (d : Declaring)
    (s : FunctionShape) : Prop where
  construct : d.construct = .function
  lines : s.lines = n.lines
  misses : ∀ p, s.Misses p ↔ n.Misses source d p
  anonymous : s.form = .anonymous ↔ n.kind = l.lambdaKind
  nameless : s.form = .anonymous → s.name = none

@[inherit_doc FunctionShape.Fits]
structure ClassShape.Fits (source : ByteArray) (n : Node) (d : Declaring) (s : ClassShape) :
    Prop where
  construct : d.construct = .classLike
  lines : s.lines = n.lines
  misses : ∀ p, s.Misses p ↔ n.Misses source d p

/-- A shape that is not anonymous, of a node that is no lambda. -/
theorem FunctionShape.Fits.of_named {l : Language} {source : ByteArray} {n : Node} {d : Declaring}
    {s : FunctionShape} (hd : d.construct = .function) (hlines : s.lines = n.lines)
    (hform : s.form ≠ .anonymous) (hk : n.kind ≠ l.lambdaKind)
    (hmisses : ∀ p, s.Misses p ↔ n.Misses source d p) : s.Fits l source n d where
  construct := hd
  lines := hlines
  misses := hmisses
  anonymous := iff_of_false hform hk
  nameless h := absurd h hform

/-- What is recognised in a node for which the table has, or has not, an entry. -/
inductive Recognized (l : Language) (source : ByteArray) (n : Node) :
    Option Declaring → Construct → Prop where
  | function {d : Declaring} {s : FunctionShape} (h : s.Fits l source n d) :
    Recognized l source n (some d) (.function s)
  | classLike {d : Declaring} {s : ClassShape} (h : s.Fits source n d) :
    Recognized l source n (some d) (.classLike s)
  | other : Recognized l source n none .other

theorem Language.declaring?_eq_none {l : Language} {kind : String}
    (h : ∀ d ∈ l.declaring, kind ≠ d.kind) : l.declaring? kind = none := by
  refine List.find?_eq_none.mpr fun d hd hk => ?_
  exact h d hd (of_decide_eq_true hk).symm

theorem Python.recognized (t : Site) (source : ByteArray) :
    Recognized .python source t.node (Language.python.declaring? t.node.kind)
      (Python.recognize t source) := by
  unfold Python.recognize
  split
  · rename_i hk
    have hne : t.node.kind ≠ "lambda" := by simp [hk]
    rw [hk]
    refine .function (.of_named rfl rfl nofun hne fun p => ?_)
    cases p <;> simp [FunctionShape.Misses, Python.function]
  · rename_i hk
    rw [hk]
    refine .function ⟨rfl, rfl, fun p => ?_, iff_of_true rfl hk, fun _ => rfl⟩
    cases p <;> simp [FunctionShape.Misses, Python.lambda]
  · rename_i hk
    rw [hk]
    refine .classLike ⟨rfl, rfl, fun p => ?_⟩
    cases p <;> simp [ClassShape.Misses, Python.classDefinition]
  · rename_i hfunction hlambda hclass
    rw [Language.declaring?_eq_none]
    · exact .other
    · intro d hd hk
      simp only [Language.declaring, List.mem_cons, List.not_mem_nil, or_false] at hd
      rcases hd with rfl | rfl | rfl <;> contradiction

/-- A method without a body is abstract and one with a body is not, so a body is never missing. -/
theorem Java.method_misses (source : ByteArray) (n : Node) (p : MissingPart) :
    (Java.method n source).Misses p ↔ n.Misses source
      ⟨"method_declaration", .function, [.name, .parameterList]⟩ p := by
  cases hbody : n.hasField "body" <;> cases p <;>
    simp [FunctionShape.Misses, Java.method, hbody]

theorem Java.method_form (source : ByteArray) (n : Node) :
    (Java.method n source).form ≠ .anonymous := by
  cases hbody : n.hasField "body" <;> simp [Java.method, hbody]

theorem Java.typeDeclaration_fits (source : ByteArray) (n : Node) (kind : String) :
    (Java.typeDeclaration n source).Fits source n ⟨kind, .classLike, [.name, .body]⟩ := by
  refine ⟨rfl, rfl, fun p => ?_⟩
  cases p <;> simp [ClassShape.Misses, Java.typeDeclaration]

theorem Java.recognized (t : Site) (source : ByteArray) :
    Recognized .java source t.node (Language.java.declaring? t.node.kind)
      (Java.recognize t source) := by
  unfold Java.recognize
  split
  · rename_i hk
    have hne : t.node.kind ≠ "lambda_expression" := by simp [hk]
    rw [hk]
    have hform := Java.method_form source t.node
    exact .function (.of_named rfl rfl hform hne (Java.method_misses source t.node))
  · rename_i hk
    have hne : t.node.kind ≠ "lambda_expression" := by simp [hk]
    rw [hk]
    refine .function (.of_named rfl rfl nofun hne fun p => ?_)
    cases p <;> simp [FunctionShape.Misses, Java.constructor]
  · rename_i hk
    have hne : t.node.kind ≠ "lambda_expression" := by simp [hk]
    rw [hk]
    refine .function (.of_named rfl rfl nofun hne fun p => ?_)
    -- the parameters stand in the record's header, so the shape misses none
    cases p <;> simp [FunctionShape.Misses, Java.compactConstructor, Java.constructor]
  · rename_i hk
    rw [hk]
    refine .function ⟨rfl, rfl, fun p => ?_, iff_of_true rfl hk, fun _ => rfl⟩
    cases p <;> simp [FunctionShape.Misses, Java.lambda]
  all_goals rename_i hk
  · rw [hk]; exact .classLike (Java.typeDeclaration_fits ..)
  · rw [hk]; exact .classLike (Java.typeDeclaration_fits ..)
  · rw [hk]; exact .classLike (Java.typeDeclaration_fits ..)
  · rw [hk]; exact .classLike (Java.typeDeclaration_fits ..)
  · rw [hk]; exact .classLike (Java.typeDeclaration_fits ..)
  · rw [Language.declaring?_eq_none]
    · exact .other
    · intro d hd hk
      simp only [Language.declaring, List.mem_cons, List.not_mem_nil, or_false] at hd
      rcases hd with rfl | rfl | rfl | rfl | rfl | rfl | rfl | rfl | rfl <;> contradiction

theorem Language.recognized (l : Language) (t : Site) (source : ByteArray) :
    Recognized l source t.node (l.declaring? t.node.kind) (l.adapter.recognize t source) := by
  cases l with
  | python => exact Python.recognized t source
  | java => exact Java.recognized t source

/-- The nodes that are recognised are those that the table lists. -/
theorem Language.kind?_recognize (l : Language) (t : Site) (source : ByteArray) :
    (l.adapter.recognize t source).kind? =
      (l.declaring? t.node.kind).map (·.construct) := by
  have h := l.recognized t source
  generalize l.declaring? t.node.kind = entry at h
  generalize l.adapter.recognize t source = found at h
  cases h with
  | function h => rw [Option.map_some, h.construct]; rfl
  | classLike h => rw [Option.map_some, h.construct]; rfl
  | other => rfl

/-! ## Reports and records -/

/-- The report on a site is about its construct and first line, and names the first of the mandatory
parts that the node lacks. -/
def Malformed.Reports (l : Language) (source : ByteArray) (t : Site) (m : Malformed) : Prop :=
  ∃ d ∈ l.declaring? t.node.kind, m.construct = d.construct ∧ m.line = t.node.start.row + 1 ∧
    MissingPart.IsFirst (t.node.Misses source d) m.missing

namespace Site

variable (l : Language) (source : ByteArray)

/-- A declaring site that lacks a mandatory part. -/
def IsDamaged (t : Site) : Prop :=
  ∃ d ∈ l.declaring? t.node.kind, ∃ p ∈ d.mandatory, t.node.Lacks source p

/-- A site that declares a construct and lacks no mandatory part. -/
def IsWhole (construct : EntityKind) (t : Site) : Prop :=
  ∃ d ∈ l.declaring? t.node.kind, d.construct = construct ∧
    ∀ p ∈ d.mandatory, ¬ t.node.Lacks source p

instance (t : Site) : Decidable (t.IsDamaged l source) :=
  inferInstanceAs (Decidable (∃ d ∈ l.declaring? t.node.kind, ∃ p ∈ d.mandatory, _))

instance (construct : EntityKind) (t : Site) : Decidable (t.IsWhole l source construct) :=
  inferInstanceAs (Decidable (∃ d ∈ l.declaring? t.node.kind, _ ∧ ∀ p ∈ d.mandatory, ¬ _))

variable {l source}

theorem describes_iff_malformed? {a : Adapter} {t : Site} {m : Malformed} :
    m.Describes (a.recognize t source) ↔ t.malformed? a source = some m := by
  refine ⟨fun h => ?_, malformed?_describes⟩
  obtain ⟨construct, missing, line⟩ := m
  unfold malformed?
  cases hr : a.recognize t source with
  | function s =>
    rw [hr] at h
    obtain ⟨rfl, rfl, hc⟩ := h
    simp only [hc]
  | classLike s =>
    rw [hr] at h
    obtain ⟨rfl, rfl, hc⟩ := h
    simp only [hc]
  | other =>
    rw [hr] at h
    exact h.elim

theorem malformed?_eq_some_iff {t : Site} {m : Malformed} :
    t.malformed? l.adapter source = some m ↔ m.Reports l source t := by
  rw [← describes_iff_malformed?, Malformed.Reports]
  have h := l.recognized t source
  generalize l.declaring? t.node.kind = entry at h
  generalize l.adapter.recognize t source = found at h
  cases h with
  | @function d s h =>
    have hline : t.node.start.row + 1 = s.lines.1 := by rw [h.lines]; rfl
    simp [Malformed.Describes, h.construct, hline, (s.settles_check.congr h.misses).error_iff]
  | @classLike d s h =>
    have hline : t.node.start.row + 1 = s.lines.1 := by rw [h.lines]; rfl
    simp [Malformed.Describes, h.construct, hline, (s.settles_check.congr h.misses).error_iff]
  | other => simp [Malformed.Describes]

theorem declares_eq_some_iff {t : Site} {construct : EntityKind} :
    t.declares l.adapter source = some construct ↔ t.IsWhole l source construct := by
  unfold declares IsWhole
  have h := l.recognized t source
  generalize l.declaring? t.node.kind = entry at h
  generalize l.adapter.recognize t source = found at h
  cases h with
  | @function d s h =>
    have hnone := (s.settles_check.congr h.misses).toOption_iff
    simp only [Node.Misses, not_and] at hnone
    simp [Option.map_eq_some_iff, h.construct, ← hnone, and_comm]
  | @classLike d s h =>
    have hnone := (s.settles_check.congr h.misses).toOption_iff
    simp only [Node.Misses, not_and] at hnone
    simp [Option.map_eq_some_iff, h.construct, ← hnone, and_comm]
  | other => simp

theorem malformed?_isSome_iff {t : Site} :
    (t.malformed? l.adapter source).isSome = true ↔ t.IsDamaged l source := by
  have hrecorded : t.isRecorded l.adapter source = true ↔ ∃ c, t.IsWhole l source c := by
    simp only [isRecorded, Option.isSome_iff_exists, declares_eq_some_iff]
  rw [malformed?_isSome, isRecognized, l.kind?_recognize, Bool.and_eq_true, Bool.not_eq_true',
    ← Bool.not_eq_true, hrecorded]
  unfold IsWhole IsDamaged
  cases l.declaring? t.node.kind with
  | none => simp
  | some d => simp

/-- A site is reported or recorded, not both. -/
theorem malformed?_eq_none_of_isWhole {t : Site} {construct : EntityKind}
    (h : t.IsWhole l source construct) : t.malformed? l.adapter source = none := by
  rw [← Option.not_isSome_iff_eq_none, malformed?_isSome_iff]
  obtain ⟨d, hd, -, hall⟩ := h
  rintro ⟨e, he, p, hp, hlacks⟩
  rw [Option.mem_unique he hd] at hp
  exact hall p hp hlacks

section

variable {fileId : EntityId} {number : Nat} {parent : Frame} {t : Site}

theorem function?_isSome_iff :
    (t.function? l.adapter source fileId number parent).isSome = true ↔
      t.IsWhole l source .function := by
  rw [← declares_eq_some_iff]
  unfold function? declares
  cases l.adapter.recognize t source <;> simp [Option.isSome_iff_exists]

theorem class?_isSome_iff :
    (t.class? l.adapter source fileId number parent).isSome = true ↔
      t.IsWhole l source .classLike := by
  rw [← declares_eq_some_iff]
  unfold class? declares
  cases l.adapter.recognize t source <;> simp [Option.isSome_iff_exists]

theorem function?_name {d : FunctionDecl}
    (hd : t.function? l.adapter source fileId number parent = some d) :
    d.name = "" ↔ t.node.kind = l.lambdaKind := by
  unfold function? at hd
  have h := l.recognized t source
  generalize l.declaring? t.node.kind = entry at h
  generalize l.adapter.recognize t source = found at h hd
  cases h with
  | @function e s h =>
    obtain ⟨location, hlocation, rfl⟩ := Option.map_eq_some_iff.mp hd
    have hnone := s.settles_check.toOption_iff.mp ⟨location, hlocation⟩ .name
    rw [← h.anonymous]
    by_cases hform : s.form = .anonymous
    · simp [hform, h.nameless hform]
    · have hname : ¬ lacksName s.name = true := fun hlacks => hnone ⟨hform, hlacks⟩
      simpa [hform, lacksName] using hname
  | classLike h => cases hd
  | other => cases hd

theorem class?_name {d : ClassDecl}
    (hd : t.class? l.adapter source fileId number parent = some d) : d.name ≠ "" := by
  unfold class? at hd
  cases hr : l.adapter.recognize t source with
  | function s => rw [hr] at hd; cases hd
  | classLike s =>
    rw [hr] at hd
    obtain ⟨location, hlocation, rfl⟩ := Option.map_eq_some_iff.mp hd
    have hname : ¬ lacksName s.name = true :=
      s.settles_check.toOption_iff.mp ⟨location, hlocation⟩ .name
    simpa [lacksName] using hname
  | other => rw [hr] at hd; cases hd

end
end Site

/-! ## Visits -/

namespace Extraction

variable (x : Extraction) {l : Language} {source : ByteArray} {t : Site}

/-- A report is added, lines are dumped, and nothing else is changed or answered. -/
theorem visit_of_describes {a : Adapter} {m : Malformed}
    (h : m.Describes (a.recognize t source)) :
    x.visit a source t =
      (none, { x with
        malformed := x.malformed.push m
        dump := x.dump.node m.construct.tag t.node source }) := by
  obtain ⟨construct, missing, line⟩ := m
  unfold visit
  cases hr : a.recognize t source with
  | function s =>
    rw [hr] at h
    obtain ⟨rfl, rfl, hc⟩ := h
    simp only [recordFunction, hc]
    rfl
  | classLike s =>
    rw [hr] at h
    obtain ⟨rfl, rfl, hc⟩ := h
    simp only [recordClass, hc]
    rfl
  | other =>
    rw [hr] at h
    exact h.elim

theorem visit_of_isDamaged (h : t.IsDamaged l source) :
    ∃ m : Malformed, m.Reports l source t ∧
      x.visit l.adapter source t =
        (none, { x with
          malformed := x.malformed.push m
          dump := x.dump.node m.construct.tag t.node source }) := by
  obtain ⟨m, hm⟩ := Option.isSome_iff_exists.mp (Site.malformed?_isSome_iff.mpr h)
  exact ⟨m, Site.malformed?_eq_some_iff.mp hm, x.visit_of_describes (Site.malformed?_describes hm)⟩

theorem visit_of_isWhole {construct : EntityKind} (h : t.IsWhole l source construct) :
    (x.visit l.adapter source t).1 =
        some ⟨entityId x.ids.fileId construct x.ids.next, construct⟩ ∧
      (x.visit l.adapter source t).2.malformed = x.malformed := by
  obtain ⟨hframe, hfindings⟩ := x.visit_findings l.adapter source t
  constructor
  · rw [hframe, Findings.visit_frame, Site.frame?, Site.declares_eq_some_iff.mpr h]
    rfl
  · have hmalformed := congrArg Findings.malformed hfindings
    have hnone := x.findings.visit_malformed l.adapter source t x.scopes.peek
    rw [Site.malformed?_eq_none_of_isWhole h, ← hmalformed, Option.toList_none,
      List.append_nil] at hnone
    exact Array.ext' hnone

end Extraction

/-! ## Walks -/

/-- Where each visit adds what it finds to a list of findings, a walk adds something for the sites
of one sort that it comes to, and it adds it in their order. -/
theorem Extraction.forall₂_walk {β : Type} {a : Adapter} {source : ByteArray}
    (view : Findings → List β) (item : EntityId → Nat → Frame → Site → Option β)
    (hview : ∀ r t parent, view (r.visit a source t parent).2 =
      view r ++ (item r.ids.fileId r.ids.next parent t).toList)
    {P : Site → Prop} [DecidablePred P] {R : Site → β → Prop}
    (hP : ∀ fileId number parent t, (item fileId number parent t).isSome = true ↔ P t)
    (hR : ∀ fileId number parent t b, item fileId number parent t = some b → R t b)
    (x : Extraction) (s : Site) :
    ∃ added, view (x.walk a source s).findings = view x.findings ++ added ∧
      List.Forall₂ R (s.reachedSites.filter P) added := by
  let vs := s.node.visits a source x.ids.fileId s.ancestors x.scopes.peek x.ids.next
  have hsites : s.reachedSites = vs.map (·.site) := (map_site_visits ..).symm
  have hnumbered : Numbered a source x.findings.ids.next vs := numbered_visits ..
  have hfold : (x.walk a source s).findings = vs.foldl (Findings.follow a source) x.findings := by
    rw [walk_findings, Node.outline_eq_foldl]
    rfl
  refine ⟨_, by rw [hfold]; exact view_foldl hview hnumbered, ?_⟩
  rw [hsites, List.filter_map, List.forall₂_map_left_iff]
  refine forall₂_filterMap (fun v => ?_) (fun v b => hR _ _ _ v.site b) vs
  rw [Function.comp_apply, Bool.eq_iff_iff, hP, decide_eq_true_iff]

/-- **Skipped is what lacks a mandatory part.** For either language, the nodes that are recognised
are those that the table lists. A visit to one that lacks a mandatory part, in any state, answers
nothing and changes nothing but the list of reports and the dump; the report names the first part
that is lacking. A visit to one that lacks none answers the frame of the declaration it records, and
reports nothing. Over a whole walk the reports stand beside the damaged sites it comes to, and the
functions and classes beside the whole ones; a function has no name just if its node is a lambda. -/
theorem skipped_iff_part_lacking (l : Language) (source : ByteArray) :
    (∀ t : Site, (l.adapter.recognize t source).kind? =
      (l.declaring? t.node.kind).map (·.construct)) ∧
    (∀ (x : Extraction) (t : Site), t.IsDamaged l source →
      ∃ m : Malformed, m.Reports l source t ∧
        x.visit l.adapter source t =
          (none, { x with
            malformed := x.malformed.push m
            dump := x.dump.node m.construct.tag t.node source })) ∧
    (∀ (x : Extraction) (t : Site) (construct : EntityKind), t.IsWhole l source construct →
      (x.visit l.adapter source t).1 =
          some ⟨entityId x.ids.fileId construct x.ids.next, construct⟩ ∧
        (x.visit l.adapter source t).2.malformed = x.malformed) ∧
    ∀ (x : Extraction) (s : Site), ∃ reports functions classes,
      (x.walk l.adapter source s).malformed.toList = x.malformed.toList ++ reports ∧
      (x.walk l.adapter source s).file.functions.toList =
        x.file.functions.toList ++ functions ∧
      (x.walk l.adapter source s).file.classes.toList = x.file.classes.toList ++ classes ∧
      List.Forall₂ (fun t (m : Malformed) => m.Reports l source t)
        (s.reachedSites.filter (·.IsDamaged l source)) reports ∧
      List.Forall₂ (fun t (d : FunctionDecl) => d.name = "" ↔ t.node.kind = l.lambdaKind)
        (s.reachedSites.filter (·.IsWhole l source .function)) functions ∧
      List.Forall₂ (fun _ (d : ClassDecl) => d.name ≠ "")
        (s.reachedSites.filter (·.IsWhole l source .classLike)) classes := by
  refine ⟨fun t => l.kind?_recognize t source, fun x t => x.visit_of_isDamaged,
    fun x t construct => x.visit_of_isWhole, fun x s => ?_⟩
  obtain ⟨reports, hreports, hdamaged⟩ := Extraction.forall₂_walk (·.malformed.toList)
    (fun _ _ _ t => t.malformed? l.adapter source)
    (fun r t parent => r.visit_malformed l.adapter source t parent)
    (fun _ _ _ _ => Site.malformed?_isSome_iff) (fun _ _ _ _ _ => Site.malformed?_eq_some_iff.mp)
    x s
  obtain ⟨functions, hfunctions, hnamed⟩ := Extraction.forall₂_walk (·.file.functions.toList)
    (Site.function? l.adapter source)
    (fun r t parent => r.visit_functions l.adapter source t parent)
    (fun _ _ _ _ => Site.function?_isSome_iff) (fun _ _ _ _ _ => Site.function?_name) x s
  obtain ⟨classes, hclasses, hnames⟩ := Extraction.forall₂_walk (·.file.classes.toList)
    (Site.class? l.adapter source)
    (fun r t parent => r.visit_classes l.adapter source t parent)
    (fun _ _ _ _ => Site.class?_isSome_iff) (fun _ _ _ _ _ => Site.class?_name) x s
  exact ⟨reports, functions, classes, hreports, hfunctions, hclasses, hdamaged, hnamed, hnames⟩

/-- The tree of a text with gaps: class and method have a name of no width, and the lambda, which
stands in an error, has no body. The constructor is whole. -/
def Node.damaged : Node :=
  let place (kind : String) (field : Option String) (named isError isMissing : Bool)
      (first last : Nat) (children : List Node) : Node :=
    ⟨kind, field, named, isError, isMissing, true, first, last, ⟨0, first⟩, ⟨0, last⟩, children⟩
  let node (kind : String) (field : Option String) (first last : Nat)
      (children : List Node) : Node := place kind field true false false first last children
  let token (kind : String) (first last : Nat) : Node :=
    place kind none false false false first last []
  let gap (byte : Nat) : Node :=
    place "identifier" (some "name") true false true byte byte []
  node "program" none 0 31 [
    node "class_declaration" none 0 31 [token "class" 0 5, gap 5,
      node "class_body" (some "body") 6 31 [token "\x7b" 6 7,
        node "method_declaration" none 8 16 [node "integral_type" (some "type") 8 11 [], gap 11,
          node "formal_parameters" (some "parameters") 12 15 [], token ";" 15 16],
        node "constructor_declaration" none 17 24 [node "identifier" (some "name") 17 18 [],
          node "formal_parameters" (some "parameters") 18 21 [],
          node "constructor_body" (some "body") 22 24 []],
        place "ERROR" none true true false 25 29 [
          node "lambda_expression" none 25 29 [
            node "identifier" (some "parameters") 25 26 [], token "->" 27 29]],
        token "\x7d" 30 31]]]

/-- The text of that tree. -/
def damagedText : ByteArray := "class \x7b int (a); K(b) \x7b\x7d r -> \x7d".toUTF8

/-- An extraction of that text, before anything is found. -/
def Extraction.ofDamaged : Extraction := .start (.empty "f" "A.java" .java) .disabled

/-- Class, method and lambda are reported, the method when it is visited as on the way of the walk,
and the constructor is the only function. -/
theorem skipped_iff_part_lacking_damaged :
    ((Site.root Node.damaged).reachedSites.filter (·.IsDamaged .java damagedText)).map
        (·.node.kind) = ["class_declaration", "method_declaration", "lambda_expression"] ∧
    (Extraction.ofDamaged.walk Language.java.adapter damagedText
      (Site.root Node.damaged)).malformed.size = 3 ∧
    (Extraction.ofDamaged.walk Language.java.adapter damagedText
      (Site.root Node.damaged)).file.functions.size = 1 ∧
    ∃ t ∈ (Site.root Node.damaged).reachedSites,
      t.node.kind = "method_declaration" ∧ t.IsDamaged .java damagedText ∧
      ∃ m : Malformed, m.Reports .java damagedText t ∧
        (Extraction.ofDamaged.visit Language.java.adapter damagedText t).2.malformed = #[m] := by
  obtain ⟨-, hskip, -, hwalk⟩ := skipped_iff_part_lacking .java damagedText
  obtain ⟨reports, functions, -, hreports, hfunctions, -, hdamaged, hwhole, -⟩ :=
    hwalk Extraction.ofDamaged (Site.root Node.damaged)
  have hkinds : ((Site.root Node.damaged).reachedSites.filter
      (·.IsDamaged .java damagedText)).map (·.node.kind) =
      ["class_declaration", "method_declaration", "lambda_expression"] := by decide +kernel
  have hcount : ((Site.root Node.damaged).reachedSites.filter
      (·.IsWhole .java damagedText .function)).length = 1 := by decide +kernel
  refine ⟨hkinds, ?_, ?_, ?_⟩
  · have hthree := congrArg List.length hkinds
    rw [List.length_map] at hthree
    rw [← Array.length_toList, hreports, List.length_append, ← hdamaged.length_eq, hthree]
    rfl
  · rw [← Array.length_toList, hfunctions, List.length_append, ← hwhole.length_eq, hcount]
    rfl
  · have hmethod : ∃ t ∈ (Site.root Node.damaged).reachedSites,
        t.node.kind = "method_declaration" ∧ t.IsDamaged .java damagedText := by decide +kernel
    obtain ⟨t, ht, hkind, hlacks⟩ := hmethod
    obtain ⟨m, hm, hvisit⟩ := hskip Extraction.ofDamaged t hlacks
    exact ⟨t, ht, hkind, hlacks, m, hm, by rw [hvisit]; rfl⟩

end Outline
