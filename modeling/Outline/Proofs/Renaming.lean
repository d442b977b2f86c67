import Outline.Proofs.Outcomes

/-!
# Extracting under another name

A source has an id and a path, and neither has a part in what is found in it. The file id goes into
the ids of declarations, from there into frames, and by the scope stack into the parents of later
declarations; everywhere it is what an id begins with, and what follows it is said from the tree
alone. So the same text under another id yields the same declarations with another file id in front
of each id, also where one of the two ids begins with the other. The path goes nowhere but into the
file's own path and name.

* `Rebased`: two ids that differ in the file id with which they begin.
* `renamed_frameAt?`, `renamed_parentAt`: frames and owners at an address.
* `renamed_functionAt?`, `renamed_classAt?`: declarations at an address.
* `extraction_under_another_name`: two extractions of one text.
-/
namespace Outline

/-! ## Ids with another file id in front -/

/-- The first id begins with the file id `f`; the second is the same with `g` in its place. -/
def Rebased (f g first second : EntityId) : Prop :=
  ∃ tail, first = f ++ tail ∧ second = g ++ tail

theorem rebased_fileId (f g : EntityId) : Rebased f g f g := ⟨"", by simp, by simp⟩

theorem rebased_entityId (f g : EntityId) (kind : EntityKind) (n : Nat) :
    Rebased f g (entityId f kind n) (entityId g kind n) := by
  refine ⟨"/" ++ kind.tag ++ ":" ++ toString n, ?_, ?_⟩ <;>
    simp only [entityId, String.append_assoc]

theorem Rebased.eq {f first second : EntityId} (h : Rebased f f first second) :
    second = first := by
  obtain ⟨tail, rfl, rfl⟩ := h
  rfl

/-- The same frame under another file id. -/
structure Frame.Renamed (f g : EntityId) (p q : Frame) : Prop where
  id : Rebased f g p.id q.id
  kind : q.kind = p.kind

/-- The same function under another file id. -/
structure FunctionDecl.Renamed (f g : EntityId) (c d : FunctionDecl) : Prop where
  id : Rebased f g c.id d.id
  name : d.name = c.name
  returnType : d.returnType = c.returnType
  isConstructor : d.isConstructor = c.isConstructor
  location : d.location = c.location
  parent : c.parent.Renamed f g d.parent

/-- The same class under another file id. -/
structure ClassDecl.Renamed (f g : EntityId) (c d : ClassDecl) : Prop where
  id : Rebased f g c.id d.id
  name : d.name = c.name
  location : d.location = c.location
  parent : c.parent.Renamed f g d.parent

theorem Frame.Renamed.eq {f : EntityId} {p q : Frame} (h : p.Renamed f f q) : q = p := by
  cases p
  cases q
  simp only [Frame.mk.injEq]
  exact ⟨h.id.eq, h.kind⟩

theorem FunctionDecl.Renamed.eq {f : EntityId} {c d : FunctionDecl} (h : c.Renamed f f d) :
    d = c := by
  cases c
  cases d
  simp only [FunctionDecl.mk.injEq]
  exact ⟨h.id.eq, h.name, h.returnType, h.isConstructor, h.location, h.parent.eq⟩

theorem ClassDecl.Renamed.eq {f : EntityId} {c d : ClassDecl} (h : c.Renamed f f d) : d = c := by
  cases c
  cases d
  simp only [ClassDecl.mk.injEq]
  exact ⟨h.id.eq, h.name, h.location, h.parent.eq⟩

/-! ## What stands at an address -/

namespace Site

variable (a : Adapter) (source : ByteArray) (f g : EntityId) (s : Site)

theorem renamed_frame? (n : Nat) :
    Option.Rel (Frame.Renamed f g) (s.frame? a source f n) (s.frame? a source g n) := by
  unfold frame?
  cases s.declares a source with
  | none => exact .none
  | some kind => exact .some ⟨rebased_entityId f g kind n, rfl⟩

theorem renamed_frameAt? (p : Address) :
    Option.Rel (Frame.Renamed f g) (s.frameAt? a source f p) (s.frameAt? a source g p) := by
  unfold frameAt?
  cases s.at? p with
  | none => exact .none
  | some t => exact t.renamed_frame? a source f g _

/-- Which node owns an address has nothing to do with the file id. -/
theorem renamed_parentAt (p : Address) :
    (s.parentAt a source f p).Renamed f g (s.parentAt a source g p) := by
  have hfile : Frame.Renamed f g ⟨f, .file⟩ ⟨g, .file⟩ := ⟨rebased_fileId f g, rfl⟩
  unfold parentAt
  cases (List.range p.length).reverse.find? (s.owns a source p) with
  | none => exact hfile
  | some k =>
    have hframe := s.renamed_frameAt? a source f g (p.take k)
    dsimp only
    generalize s.frameAt? a source f (p.take k) = first at hframe
    generalize s.frameAt? a source g (p.take k) = second at hframe
    cases hframe with
    | none => exact hfile
    | some h => exact h

theorem renamed_functionAt? (p : Address) : Option.Rel (FunctionDecl.Renamed f g)
    (s.functionAt? a source f p) (s.functionAt? a source g p) := by
  have hparent := s.renamed_parentAt a source f g p
  unfold functionAt?
  cases s.at? p with
  | none => exact .none
  | some t =>
    simp only [Option.bind_some, function?]
    cases a.recognize t source with
    | function shape =>
      dsimp only
      cases shape.check with
      | error missing => exact .none
      | ok location => exact .some ⟨rebased_entityId .., rfl, rfl, rfl, rfl, hparent⟩
    | classLike shape => exact .none
    | other => exact .none

theorem renamed_classAt? (p : Address) : Option.Rel (ClassDecl.Renamed f g)
    (s.classAt? a source f p) (s.classAt? a source g p) := by
  have hparent := s.renamed_parentAt a source f g p
  unfold classAt?
  cases s.at? p with
  | none => exact .none
  | some t =>
    simp only [Option.bind_some, class?]
    cases a.recognize t source with
    | function shape => exact .none
    | classLike shape =>
      dsimp only
      cases shape.check with
      | error missing => exact .none
      | ok location => exact .some ⟨rebased_entityId .., rfl, rfl, hparent⟩
    | other => exact .none

end Site

/-- What is found at some addresses under two file ids, side by side. -/
theorem forall₂_filterMap_of_rel {α β γ : Type} {R : β → γ → Prop} {first : α → Option β}
    {second : α → Option γ} (h : ∀ x, Option.Rel R (first x) (second x)) (xs : List α) :
    List.Forall₂ R (xs.filterMap first) (xs.filterMap second) := by
  have heq : List.Forall₂ Eq xs xs := List.forall₂_same.mpr fun _ _ => rfl
  exact List.rel_filterMap (fun x y hxy => hxy ▸ h x) heq

/-! ## Extractions -/

namespace Extractor

variable {e : Extractor} {i j : SourceInput} {a : Adapter}

/-- A file that is extracted has what its source tells, and beside that functions and classes. -/
theorem walked_file_eq (dump : NodeDump) : (e.walked i a dump).file =
    { id := i.fileId
      path := i.path
      name := baseName i.path
      language := a.language
      functions := (e.walked i a dump).file.functions
      classes := (e.walked i a dump).file.classes } := by
  obtain ⟨functions, classes, h⟩ := Extraction.file_walk
    (SourceFile.empty i.fileId i.path a.language) dump a i.content.toUTF8
    (Site.root (e.parse a.language i))
  rw [walked, h]
  rfl

variable (hcontent : j.content = i.content) (htree : e.parse a.language j = e.parse a.language i)
  (d d' : NodeDump)
include hcontent htree

theorem renamed_functions : List.Forall₂ (FunctionDecl.Renamed i.fileId j.fileId)
    (e.walked i a d).file.functions.toList (e.walked j a d').file.functions.toList := by
  rw [walked, walked, Extraction.functions_walk, Extraction.functions_walk, hcontent, htree]
  exact forall₂_filterMap_of_rel (Site.renamed_functionAt? a _ _ _ _) _

theorem renamed_classes : List.Forall₂ (ClassDecl.Renamed i.fileId j.fileId)
    (e.walked i a d).file.classes.toList (e.walked j a d').file.classes.toList := by
  rw [walked, walked, Extraction.classes_walk, Extraction.classes_walk, hcontent, htree]
  exact forall₂_filterMap_of_rel (Site.renamed_classAt? a _ _ _ _) _

theorem same_malformed : (e.walked j a d').malformed = (e.walked i a d).malformed := by
  rw [← Array.toList_inj, walked, walked, (walk_inventory ..).2, (walk_inventory ..).2, hcontent,
    htree]

end Extractor

/-- **A source yields the same under another name.** Two sources have one text and one tree, which
is not refused; their ids, given or derived, and their paths may be any. Both are extracted, with any
adapter, and the same declarations are malformed. There are as many functions and as many classes,
and each differs from the one in the same place only in its own id and its parent's: where the one
begins with the file id of the first source, the other has that of the second in its place. The path
is in the file's path and name and nowhere else. -/
theorem extraction_under_another_name (e : Extractor) (a : Adapter) (i j : SourceInput)
    (d d' : NodeDump) (hcontent : j.content = i.content)
    (htree : e.parse a.language j = e.parse a.language i)
    (hclean : (e.parse a.language i).fault? = none) :
    ∃ x y : Extracted,
      (e.extractWith i a d).1 = .ok x ∧ (e.extractWith j a d').1 = .ok y ∧
      y.malformed = x.malformed ∧
      y.file.functions.size = x.file.functions.size ∧
      y.file.classes.size = x.file.classes.size ∧
      List.Forall₂ (FunctionDecl.Renamed i.fileId j.fileId)
        x.file.functions.toList y.file.functions.toList ∧
      List.Forall₂ (ClassDecl.Renamed i.fileId j.fileId)
        x.file.classes.toList y.file.classes.toList ∧
      x.file.id = i.fileId ∧ y.file.id = j.fileId ∧
      x.file.path = i.path ∧ y.file.path = j.path ∧
      x.file.name = baseName i.path ∧ y.file.name = baseName j.path ∧
      y.file.language = x.file.language ∧
      (j.fileId = i.fileId →
        y.file = { x.file with path := j.path, name := baseName j.path }) := by
  have hx := Extractor.walked_file_eq (e := e) (i := i) (a := a) d
  have hy := Extractor.walked_file_eq (e := e) (i := j) (a := a) d'
  have hfunctions := Extractor.renamed_functions hcontent htree d d'
  have hclasses := Extractor.renamed_classes hcontent htree d d'
  have hclean' : (e.parse a.language j).fault? = none := by rw [htree, hclean]
  refine ⟨_, _, Extractor.extractWith_of_clean hclean d, Extractor.extractWith_of_clean hclean' d',
    Extractor.same_malformed hcontent htree d d', ?_, ?_, hfunctions, hclasses,
    congrArg SourceFile.id hx, congrArg SourceFile.id hy, congrArg SourceFile.path hx,
    congrArg SourceFile.path hy, congrArg SourceFile.name hx, congrArg SourceFile.name hy,
    (congrArg SourceFile.language hy).trans (congrArg SourceFile.language hx).symm, fun hid => ?_⟩
  · simpa using hfunctions.length_eq.symm
  · simpa using hclasses.length_eq.symm
  · rw [hid] at hfunctions hclasses
    have hsame := hfunctions.imp fun _ _ h => h.eq.symm
    have hsame' := hclasses.imp fun _ _ h => h.eq.symm
    rw [List.forall₂_eq_eq_eq, Array.toList_inj] at hsame hsame'
    rw [hy, hx, hid, hsame, hsame']

/-- The tree of `lambda: lambda: 0`. -/
def Node.nestedLambdas : Node :=
  ⟨"module", none, true, false, false, false, 0, 17, ⟨0, 0⟩, ⟨0, 17⟩,
    [⟨"lambda", none, true, false, false, false, 0, 17, ⟨0, 0⟩, ⟨0, 17⟩,
      [⟨"lambda", none, false, false, false, false, 0, 6, ⟨0, 0⟩, ⟨0, 6⟩, []⟩,
        ⟨":", none, false, false, false, false, 6, 7, ⟨0, 6⟩, ⟨0, 7⟩, []⟩,
        ⟨"lambda", some "body", true, false, false, false, 8, 17, ⟨0, 8⟩, ⟨0, 17⟩,
          [⟨"lambda", none, false, false, false, false, 8, 14, ⟨0, 8⟩, ⟨0, 14⟩, []⟩,
            ⟨":", none, false, false, false, false, 14, 15, ⟨0, 14⟩, ⟨0, 15⟩, []⟩,
            ⟨"integer", some "body", true, false, false, false, 16, 17, ⟨0, 16⟩, ⟨0, 17⟩,
              []⟩]⟩]⟩]⟩

/-- The second file id is the id of a function in the first file. -/
theorem extraction_under_another_name_nested :
    ∃ x y : Extracted,
      (({ parse := fun _ _ => Node.nestedLambdas } : Extractor).extractWith
        ⟨some "f", "a.py", "lambda: lambda: 0"⟩ Python.adapter .disabled).1 = .ok x ∧
      (({ parse := fun _ _ => Node.nestedLambdas } : Extractor).extractWith
        ⟨some "f/function:1", "b/c.py", "lambda: lambda: 0"⟩ Python.adapter .disabled).1 = .ok y ∧
      List.Forall₂ (FunctionDecl.Renamed "f" "f/function:1")
        x.file.functions.toList y.file.functions.toList ∧
      x.file.functions.toList.map (fun c => (c.id, c.parent.id)) =
        [("f/function:1", "f"), ("f/function:2", "f/function:1")] ∧
      y.file.functions.toList.map (fun c => (c.id, c.parent.id)) =
        [("f/function:1/function:1", "f/function:1"),
          ("f/function:1/function:2", "f/function:1/function:1")] ∧
      (y.file.path, y.file.name) = ("b/c.py", "c.py") := by
  have hclean : Node.nestedLambdas.fault? = none := rfl
  obtain ⟨x, y, hx, hy, -, -, -, hfunctions, -, -, -, -, hpath, -, hname, -⟩ :=
    extraction_under_another_name { parse := fun _ _ => Node.nestedLambdas } Python.adapter
      ⟨some "f", "a.py", "lambda: lambda: 0"⟩ ⟨some "f/function:1", "b/c.py", "lambda: lambda: 0"⟩
      .disabled .disabled rfl rfl hclean
  refine ⟨x, y, hx, hy, hfunctions, ?_, ?_, ?_⟩
  · rw [Extractor.extractWith_of_clean hclean] at hx
    cases hx
    rw [Extractor.walked, Extraction.functions_walk]
    decide +kernel
  · rw [Extractor.extractWith_of_clean hclean] at hy
    cases hy
    rw [Extractor.walked, Extraction.functions_walk]
    decide +kernel
  · rw [hpath, hname]
    decide +kernel

end Outline
