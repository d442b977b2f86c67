import Mathlib.Data.List.Forall2
import Outline.Proofs.Numbering
import Outline.Proofs.Preorder
import Outline.Proofs.Walk.Ownership

/-!
# What a walk makes of each node

A walk hands to the adapter the named nodes below which it has met named nodes only, each once, in
document order. Of those that are recognised as a declaration it records the ones that lack nothing
and reports the others, so the list of the recorded and the list of the reported share them out
between them.

* `reachedSites_eq`: the sites a walk comes to, by recursion over the tree.
* `due_next?`, `trail_eq_due`: a step hands over the first of the sites that are due, so a walk
  hands over all of them, in order.
* `logs_foldl`: what visits record, in order.
* `forall₂_filterMap`: a list and what is made of some of its members, side by side.
* `walk_loses_nothing`: what becomes of each node that is recognised.
-/
namespace Outline

/-! ## The sites a walk comes to -/

namespace Site

/-- A site and all below it, in document order. -/
def below (s : Site) : List Site := s.node.sites s.ancestors

/-- Whether a site below `s` is named, and every node between, `s` included. -/
def isReachedFrom (t s : Site) : Bool :=
  t.node.named && (t.ancestors.take (t.ancestors.length - s.ancestors.length)).all (·.named)

def reachedSites (s : Site) : List Site := s.below.filter (·.isReachedFrom s)

theorem isReachedFrom_self (s : Site) : s.isReachedFrom s = s.node.named := by
  simp [isReachedFrom]

/-- One level down, the node itself is one more to be named. -/
theorem isReachedFrom_child {n c : Node} {above : List Node} {t : Site}
    (h : t ∈ c.sites (n :: above)) :
    t.isReachedFrom ⟨n, above⟩ = (t.isReachedFrom ⟨c, n :: above⟩ && n.named) := by
  obtain ⟨inner, hinner⟩ := Node.ancestors_of_mem_sites h
  have houter : t.ancestors.take (t.ancestors.length - above.length) = inner ++ [n] := by
    rw [hinner, List.append_cons, List.length_append, Nat.add_sub_cancel, List.take_left]
  have hbelow : t.ancestors.take (t.ancestors.length - (n :: above).length) = inner := by
    rw [hinner]
    simp
  simp only [isReachedFrom, houter, hbelow, List.all_append, List.all_cons, List.all_nil,
    Bool.and_true, Bool.and_assoc]

theorem reachedSites_eq (s : Site) :
    s.reachedSites = if s.node.named then s :: s.children.flatMap reachedSites else [] := by
  obtain ⟨n, above⟩ := s
  have hchild : ∀ c ∈ n.children,
      (c.sites (n :: above)).filter (·.isReachedFrom ⟨n, above⟩) =
        if n.named then reachedSites ⟨c, n :: above⟩ else [] := by
    intro c _
    cases hn : n.named with
    | true =>
      refine List.filter_congr fun t ht => ?_
      rw [isReachedFrom_child ht, hn, Bool.and_true]
    | false =>
      refine List.filter_eq_nil_iff.mpr fun t ht => ?_
      rw [isReachedFrom_child ht, hn, Bool.and_false]
      simp
  rw [reachedSites, below, Node.sites_eq, List.filter_cons, isReachedFrom_self,
    List.filter_flatMap, List.flatMap_congr hchild]
  cases hn : n.named with
  | true => simp [children, List.flatMap_map]
  | false => simp

end Site

/-! ## What a walk hands over -/

namespace Walk

/-- The site that the next step hands to the adapter, if it hands over one. -/
def handed : Walk → Option Site
  | ⟨s :: _, _, _⟩ => if s.node.named then some s else none
  | ⟨[], _, _⟩ => none

/-- The sites that the remaining steps hand over, in order. -/
def trail (a : Adapter) (source : ByteArray) (w : Walk) : List Site :=
  match h : next? a source w with
  | some v =>
    have := work_next? h
    w.handed.toList ++ trail a source v
  | none => []
termination_by w.work
decreasing_by assumption

/-- The sites that a walk has yet to come to. -/
def due (w : Walk) : List Site :=
  w.pending.flatMap Site.reachedSites ++
    (w.enclosing.map (·.after)).flatMap (·.flatMap Site.reachedSites)

variable {a : Adapter} {source : ByteArray} {w v : Walk}

theorem trail_of_next? (h : next? a source w = some v) :
    trail a source w = w.handed.toList ++ trail a source v := by
  rw [trail]
  split
  · rename_i u hu
    rw [h] at hu
    cases hu
    rfl
  · rename_i hn
    rw [h] at hn
    cases hn

theorem trail_of_halted (h : next? a source w = none) : trail a source w = [] := by
  rw [trail]
  split
  · rename_i u hu
    rw [h] at hu
    cases hu
  · rfl

theorem due_descend {s : Site} (hs : s.node.named = true) (rest : List Site)
    (os : List OpenNode) (x : Extraction) :
    due ⟨s :: rest, os, x⟩ = s :: due (descend a source s rest os x) := by
  have hafter := map_after_alignInnermost x os (inOwnScope a s.node)
  have hsites : s.reachedSites = s :: s.children.flatMap Site.reachedSites := by
    rw [Site.reachedSites_eq, if_pos hs]
  unfold descend
  split
  · rename_i hempty
    have hnone : s.children = [] := by
      rw [Site.children, List.isEmpty_iff.mp hempty]
      rfl
    simp only [due, hafter, List.flatMap_cons, hsites, hnone, List.flatMap_nil, List.cons_append,
      List.nil_append]
  · simp only [due, hafter, List.flatMap_cons, hsites, List.map_cons, List.cons_append,
      List.append_assoc]

/-- A step hands over the first site that is due, or none, and leaves the others due. -/
theorem due_next? (h : next? a source w = some v) : w.due = w.handed.toList ++ v.due := by
  unfold next? at h
  split at h
  · rename_i s rest os x
    split at h <;> cases h <;> rename_i hn
    · rw [due_descend hn, handed, if_pos hn]
      rfl
    · have hs : s.reachedSites = [] := by rw [Site.reachedSites_eq, if_neg hn]
      rw [handed, if_neg hn]
      simp only [due, List.flatMap_cons, hs, List.nil_append, Option.toList_none]
  · cases h
    simp [due, handed]
  · cases h

theorem trail_eq_due (a : Adapter) (source : ByteArray) (w : Walk) : trail a source w = w.due := by
  -- each step lowers the work that is left
  induction hw : w.work using Nat.strongRecOn generalizing w with
  | ind n ih =>
    cases h : next? a source w with
    | none =>
      obtain ⟨hp, ho⟩ := next?_eq_none h
      rw [trail_of_halted h, due, hp, ho]
      rfl
    | some v => rw [trail_of_next? h, due_next? h, ih v.work (hw ▸ work_next? h) v rfl]

/-- A step depends on what the adapter makes of the site that is handed over, and of no other. -/
theorem next?_congr {b : Adapter} (ho : b.outsideOwnScope = a.outsideOwnScope)
    (hr : ∀ t, w.handed = some t → b.recognize t source = a.recognize t source) :
    next? b source w = next? a source w := by
  obtain ⟨pending, os, x⟩ := w
  cases pending with
  | nil => cases os <;> rfl
  | cons s rest =>
    cases hn : s.node.named with
    | false => simp [next?, hn]
    | true =>
      have hs : b.recognize s source = a.recognize s source := hr s (by simp [handed, hn])
      have hscope : inOwnScope b s.node = inOwnScope a s.node := by
        simp only [inOwnScope, ho]
      simp only [next?, hn, if_true, descend, hscope, Extraction.visit, hs]

end Walk

/-! ## What becomes of a site -/

/-- The kind of what was recognised. -/
def Construct.kind? : Construct → Option EntityKind
  | .function _ => some .function
  | .classLike _ => some .classLike
  | .other => none

/-- A declaration of the kind that was recognised, with the name, the lines and, for a function, the
return type and the mark of a constructor that were found. -/
def Decl.Describes : Decl → Construct → Prop
  | .function d, .function s =>
    d.name = s.name.getD "" ∧ d.returnType = s.returnType ∧ d.isConstructor = s.isConstructor ∧
      d.location = ⟨s.lines.1, s.lines.2⟩
  | .classLike d, .classLike s => d.name = s.name.getD "" ∧ d.location = ⟨s.lines.1, s.lines.2⟩
  | _, _ => False

/-- A report of the kind that was recognised, with its first line and the part that is missing. -/
def Malformed.Describes (m : Malformed) : Construct → Prop
  | .function s =>
    m.construct = .function ∧ m.line = s.lines.1 ∧ s.check = .error m.missing
  | .classLike s =>
    m.construct = .classLike ∧ m.line = s.lines.1 ∧ s.check = .error m.missing
  | .other => False

theorem checkSpan_eq {lines : Nat × Nat} {l : Location} (h : checkSpan lines = .ok l) :
    l = ⟨lines.1, lines.2⟩ := by
  unfold checkSpan at h
  split at h
  · rename_i l' hl
    cases h
    exact (Location.ofLines?_eq_some_iff.mp hl).1
  · cases h

theorem FunctionShape.check_eq {s : FunctionShape} {l : Location} (h : s.check = .ok l) :
    l = ⟨s.lines.1, s.lines.2⟩ := by
  unfold check at h
  split at h
  · cases h
  split at h
  · cases h
  split at h
  · cases h
  exact checkSpan_eq h

theorem ClassShape.check_eq {s : ClassShape} {l : Location} (h : s.check = .ok l) :
    l = ⟨s.lines.1, s.lines.2⟩ := by
  unfold check at h
  split at h
  · cases h
  split at h
  · cases h
  exact checkSpan_eq h

namespace Site

variable (a : Adapter) (source : ByteArray)

def isRecognized (s : Site) : Bool := (a.recognize s source).kind?.isSome

/-- The sites a walk comes to that are recognised as a declaration. -/
def recognizedSites (s : Site) : List Site := s.reachedSites.filter (·.isRecognized a source)

/-- Whether a declaration is recorded for a site. -/
def isRecorded (s : Site) : Bool := (s.declares a source).isSome

/-- The declaration that is recorded for a site, once its number and its parent are known. -/
def decl? (fileId : EntityId) (number : Nat) (parent : Frame) (s : Site) : Option Decl :=
  ((s.function? a source fileId number parent).map Decl.function).or
    ((s.class? a source fileId number parent).map Decl.classLike)

/-- The report on a site that lacks a mandatory part. -/
def malformed? (s : Site) : Option Malformed :=
  match a.recognize s source with
  | .function shape => match shape.check with
    | .ok _ => none
    | .error missing => some ⟨.function, missing, shape.lines.1⟩
  | .classLike shape => match shape.check with
    | .ok _ => none
    | .error missing => some ⟨.classLike, missing, shape.lines.1⟩
  | .other => none

variable {a source}

theorem decl?_isSome {fileId : EntityId} {number : Nat} {parent : Frame} (s : Site) :
    (s.decl? a source fileId number parent).isSome = s.isRecorded a source := by
  unfold decl? function? class? isRecorded declares
  cases a.recognize s source <;> simp

/-- A site that is recognised is recorded or reported, and not both. -/
theorem malformed?_isSome (s : Site) :
    (s.malformed? a source).isSome = (s.isRecognized a source && !s.isRecorded a source) := by
  unfold malformed? isRecognized isRecorded declares
  cases a.recognize s source with
  | function shape => cases h : shape.check <;> simp [Construct.kind?, h, Except.toOption]
  | classLike shape => cases h : shape.check <;> simp [Construct.kind?, h, Except.toOption]
  | other => rfl

theorem isRecognized_of_isRecorded {s : Site} (h : s.isRecorded a source = true) :
    s.isRecognized a source = true := by
  unfold isRecorded declares at h
  unfold isRecognized
  cases hr : a.recognize s source with
  | function shape => rfl
  | classLike shape => rfl
  | other => simp [hr] at h

theorem decl?_describes {fileId : EntityId} {number : Nat} {parent : Frame} {s : Site} {d : Decl}
    (h : s.decl? a source fileId number parent = some d) :
    d.Describes (a.recognize s source) := by
  unfold decl? function? class? at h
  cases hr : a.recognize s source with
  | function shape =>
    cases hc : shape.check with
    | error missing => simp [hr, hc, Except.toOption] at h
    | ok location =>
      simp only [hr, hc, Except.toOption, Option.map_some, Option.some_or, Option.some.injEq] at h
      subst h
      exact ⟨rfl, rfl, rfl, shape.check_eq hc⟩
  | classLike shape =>
    cases hc : shape.check with
    | error missing => simp [hr, hc, Except.toOption] at h
    | ok location =>
      simp only [hr, hc, Except.toOption, Option.map_some, Option.map_none, Option.none_or,
        Option.some.injEq] at h
      subst h
      exact ⟨rfl, shape.check_eq hc⟩
  | other => simp [hr] at h

theorem malformed?_describes {s : Site} {m : Malformed} (h : s.malformed? a source = some m) :
    m.Describes (a.recognize s source) := by
  unfold malformed? at h
  cases hr : a.recognize s source with
  | function shape =>
    cases hc : shape.check with
    | ok location => simp [hr, hc] at h
    | error missing =>
      simp only [hr, hc, Option.some.injEq] at h
      subst h
      exact ⟨rfl, rfl, hc⟩
  | classLike shape =>
    cases hc : shape.check with
    | ok location => simp [hr, hc] at h
    | error missing =>
      simp only [hr, hc, Option.some.injEq] at h
      subst h
      exact ⟨rfl, rfl, hc⟩
  | other => simp [hr] at h

end Site

/-! ## What visits record and report -/

namespace Findings

variable (r : Findings) (a : Adapter) (source : ByteArray) (s : Site) (parent : Frame)

theorem visit_logs : r.Logs (s.decl? a source r.ids.fileId r.ids.next parent).toList
    (r.visit a source s parent).2 := by
  unfold visit Site.decl? Site.function? Site.class?
  cases a.recognize s source with
  | function shape =>
    simp only [recordFunction]
    cases shape.check with
    | error missing => exact .nil rfl rfl
    | ok location => exact .single rfl rfl rfl
  | classLike shape =>
    simp only [recordClass]
    cases shape.check with
    | error missing => exact .nil rfl rfl
    | ok location => exact .single rfl rfl rfl
  | other => exact .nil rfl rfl

theorem visit_malformed : (r.visit a source s parent).2.malformed.toList =
    r.malformed.toList ++ (s.malformed? a source).toList := by
  unfold visit Site.malformed?
  cases a.recognize s source with
  | function shape => simp only [recordFunction]; cases shape.check <;> simp [skip]
  | classLike shape => simp only [recordClass]; cases shape.check <;> simp [skip]
  | other => simp

end Findings

section

variable {a : Adapter} {source : ByteArray} {fileId : EntityId}

theorem map_site_visitsAll {ns : List Node}
    (h : ∀ n ∈ ns, ∀ above parent number,
      (n.visits a source fileId above parent number).map (·.site) = Site.reachedSites ⟨n, above⟩)
    (above : List Node) (parent : Frame) (frame : Option Frame) (i number : Nat) :
    (Node.visitsAll a source fileId above parent frame i number ns).map (·.site) =
      ns.flatMap fun n => Site.reachedSites ⟨n, above⟩ := by
  induction ns generalizing i number with
  | nil => rw [Node.visitsAll]; rfl
  | cons n ns ih =>
    rw [List.forall_mem_cons] at h
    rw [Node.visitsAll, List.map_append, ih h.2, List.flatMap_cons, ← h.1 above, List.map_map]
    rfl

/-- A walk visits the sites it comes to. -/
theorem map_site_visits (n : Node) (above : List Node) (parent : Frame) (number : Nat) :
    (n.visits a source fileId above parent number).map (·.site) =
      Site.reachedSites ⟨n, above⟩ := by
  induction n using Node.children_induction generalizing above parent number with
  | step n ih =>
    rw [Node.visits_eq, Site.reachedSites_eq]
    split
    · rw [List.map_cons, map_site_visitsAll ih, Site.children, List.flatMap_map]
    · rfl

/-- The declarations that are recorded on visits. -/
def declsOn (a : Adapter) (source : ByteArray) (fileId : EntityId) (vs : List Visit) : List Decl :=
  vs.filterMap fun v => v.site.decl? a source fileId v.number v.parent

theorem logs_foldl {vs : List Visit} {r : Findings} (h : Numbered a source r.ids.next vs) :
    r.Logs (declsOn a source r.ids.fileId vs) (vs.foldl (Findings.follow a source) r) := by
  induction vs generalizing r with
  | nil => exact .of_eq rfl
  | cons v vs ih =>
    have hv := r.visit_logs a source v.site v.parent
    have hr : (r.follow a source v).ids =
        { r.ids with next := r.ids.next + (v.site.declares a source).isSome.toNat } :=
      Findings.visit_ids ..
    have hvs := ih (r := r.follow a source v) (by rw [hr]; exact h.2)
    rw [hr] at hvs
    have hsplit : declsOn a source r.ids.fileId (v :: vs) =
        (v.site.decl? a source r.ids.fileId r.ids.next v.parent).toList ++
          declsOn a source r.ids.fileId vs := by
      simp only [declsOn, List.filterMap_eq_flatMap_toList, List.flatMap_cons, h.1]
    rw [hsplit]
    exact hv.trans hvs

theorem malformed_foldl (a : Adapter) (source : ByteArray) (vs : List Visit) (r : Findings) :
    (vs.foldl (Findings.follow a source) r).malformed.toList =
      r.malformed.toList ++ vs.filterMap fun v => v.site.malformed? a source := by
  induction vs generalizing r with
  | nil => simp
  | cons v vs ih =>
    rw [List.foldl_cons, ih, Findings.follow, Findings.visit_malformed, List.append_assoc]
    simp only [List.filterMap_eq_flatMap_toList, List.flatMap_cons]

end

/-! ## Side by side -/

/-- The members of a list with a result, beside their results. -/
theorem forall₂_filterMap {α β : Type} {R : α → β → Prop} {p : α → Bool} {f : α → Option β}
    (hp : ∀ x, (f x).isSome = p x) (hR : ∀ x b, f x = some b → R x b) (xs : List α) :
    List.Forall₂ R (xs.filter p) (xs.filterMap f) := by
  induction xs with
  | nil => exact .nil
  | cons x xs ih =>
    have hx := hp x
    cases hf : f x with
    | none =>
      rw [hf] at hx
      rw [List.filterMap_cons_none hf, List.filter_cons_of_neg (by simp [← hx])]
      exact ih
    | some b =>
      rw [hf] at hx
      rw [List.filterMap_cons_some hf, List.filter_cons_of_pos (by simp [← hx])]
      exact .cons (hR x b hf) ih

namespace Site

variable {a : Adapter} {source : ByteArray}

theorem filter_recorded (sites : List Site) :
    (sites.filter (·.isRecognized a source)).filter (·.isRecorded a source) =
      sites.filter (·.isRecorded a source) := by
  rw [List.filter_filter]
  refine List.filter_congr fun s _ => ?_
  cases h : s.isRecorded a source with
  | true => rw [isRecognized_of_isRecorded h]; rfl
  | false => rfl

/-- Every site is beside the declaration that a visit to it recorded, if one was recorded. -/
theorem forall₂_declsOn (a : Adapter) (source : ByteArray) (fileId : EntityId) (vs : List Visit) :
    List.Forall₂ (fun t (d : Decl) => d.Describes (a.recognize t source))
      ((vs.map (·.site)).filter (·.isRecorded a source)) (declsOn a source fileId vs) := by
  rw [List.filter_map, List.forall₂_map_left_iff]
  exact forall₂_filterMap (fun v => decl?_isSome v.site) (fun v d => decl?_describes) vs

theorem forall₂_malformed (a : Adapter) (source : ByteArray) (sites : List Site) :
    List.Forall₂ (fun t (m : Malformed) => m.Describes (a.recognize t source))
      ((sites.filter (·.isRecognized a source)).filter (!·.isRecorded a source))
      (sites.filterMap (·.malformed? a source)) := by
  rw [List.filter_filter]
  refine forall₂_filterMap (fun t => ?_) (fun t m => malformed?_describes) sites
  rw [malformed?_isSome, Bool.and_comm]

end Site

/-- What a walk from a fresh extraction records, and what it reports. -/
theorem walk_inventory (file : SourceFile) (dump : NodeDump) (a : Adapter) (source : ByteArray)
    (s : Site) :
    (Extraction.start file dump).findings.Logs
      (declsOn a source file.id (s.visits a source file.id))
      ((Extraction.start file dump).walk a source s).findings ∧
    ((Extraction.start file dump).walk a source s).malformed.toList =
      s.reachedSites.filterMap (·.malformed? a source) := by
  have hnumbered : Numbered a source 1 (s.visits a source file.id) := numbered_visits ..
  have hfold : ((Extraction.start file dump).walk a source s).findings =
      (s.visits a source file.id).foldl (Findings.follow a source)
        (Extraction.start file dump).findings := by
    rw [Extraction.walk_findings, Node.outline_eq_foldl]
    rfl
  constructor
  · rw [hfold]
    exact logs_foldl hnumbered
  · have hsites : (s.visits a source file.id).map (·.site) = s.reachedSites :=
      map_site_visits ..
    have hmalformed := malformed_foldl a source (s.visits a source file.id)
      (Extraction.start file dump).findings
    rw [← hfold] at hmalformed
    rw [← hsites, List.filterMap_map]
    exact hmalformed

/-- **Nothing is lost, duplicated or reordered.** A walk from a fresh extraction hands over the
sites that are named up to the start, each once and in document order, and a step looks at what the
adapter makes of the site handed over and of no other. The sites recognised as a declaration fall
into two parts, each in document order: beside the one stand the declarations recorded, in the order
of their numbers, and beside the other the reports. -/
theorem walk_loses_nothing (file : SourceFile) (dump : NodeDump) (a : Adapter)
    (source : ByteArray) (s : Site) :
    (Walk.start (Extraction.start file dump) s).trail a source =
      s.below.filter (·.isReachedFrom s) ∧
    (∀ (w : Walk) (b : Adapter), b.outsideOwnScope = a.outsideOwnScope →
      (∀ t, w.handed = some t → b.recognize t source = a.recognize t source) →
      Walk.next? b source w = Walk.next? a source w) ∧
    ∃ log : List Decl,
      Usage.Gapless file log ((Extraction.start file dump).walk a source s) ∧
      List.Forall₂ (fun t (d : Decl) => d.Describes (a.recognize t source))
        ((s.recognizedSites a source).filter (·.isRecorded a source)) log ∧
      List.Forall₂ (fun t (m : Malformed) => m.Describes (a.recognize t source))
        ((s.recognizedSites a source).filter (!·.isRecorded a source))
        ((Extraction.start file dump).walk a source s).malformed.toList ∧
      ((Extraction.start file dump).walk a source s).file.entityCount +
          ((Extraction.start file dump).walk a source s).malformed.size =
        file.entityCount + (s.recognizedSites a source).length := by
  obtain ⟨hlog, hmalformed⟩ := walk_inventory file dump a source s
  have hgapless := Usage.gapless_of_logs hlog
  have hrecorded := Site.forall₂_declsOn a source file.id (s.visits a source file.id)
  rw [show (s.visits a source file.id).map (·.site) = s.reachedSites from map_site_visits ..,
    ← Site.filter_recorded] at hrecorded
  have hreported := Site.forall₂_malformed a source s.reachedSites
  rw [← hmalformed] at hreported
  refine ⟨?_, fun w b => Walk.next?_congr, _, hgapless, hrecorded, hreported, ?_⟩
  · rw [Walk.trail_eq_due]
    simp [Walk.due, Walk.start, Site.reachedSites]
  · have h1 := hrecorded.length_eq
    have h2 := hreported.length_eq
    have h3 := List.length_eq_length_filter_add (l := s.recognizedSites a source)
      (fun t => t.isRecorded a source)
    simp only [Site.recognizedSites] at h3 ⊢
    rw [hgapless.count, ← Array.length_toList, ← h1, ← h2, h3, Nat.add_assoc]

end Outline
