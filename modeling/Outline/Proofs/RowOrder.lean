import Mathlib.Data.List.Basic
import Mathlib.Data.List.Nodup
import Outline.Proofs.Outcomes
import Outline.Proofs.Positions
import Outline.Proofs.Renaming
import Outline.Report

/-!
# The order of a table's rows

The table of a file has the classes and the functions in one list, sorted by their first lines and,
on one line, the classes before the functions. Declarations are recorded in document order, so their
lines do not decrease. Sorting is stable: it can move a row only past rows that may not stand above
it, and on lines that do not decrease these are functions before classes on one line.

* `listed_perm`: every declaration has one row.
* `sublist_log_of_listed`, `sublist_listed_iff`: two rows against the order of recording.
* `listed_eq_iff`: all rows against the order of recording.
* `pairwise_startLine`, `parent_sublist`: lines and parents in the order of recording.
* `rows_in_order_iff`: when the rows of an extracted file are in source order.
* `local_class_above_its_method`: a file whose rows are not.
-/
namespace Outline

/-! ## Rows -/

namespace Decl

def startLine : Decl → Nat
  | .function d => d.location.startLine
  | .classLike d => d.location.startLine

def isFunction : Decl → Bool
  | .function _ => true
  | .classLike _ => false

def parent : Decl → Frame
  | .function d => d.parent
  | .classLike d => d.parent

def location : Decl → Location
  | .function d => d.location
  | .classLike d => d.location

theorem startLine_eq (d : Decl) : d.startLine = d.location.startLine := by cases d <;> rfl

/-- Whether the row of one declaration may stand above the row of another: it starts on an earlier
line, or on the same one and is not a function above a class. -/
def mayPrecede (d e : Decl) : Bool :=
  d.startLine < e.startLine || (d.startLine == e.startLine && (!d.isFunction || e.isFunction))

theorem mayPrecede_iff {d e : Decl} : d.mayPrecede e = true ↔
    d.startLine < e.startLine ∨
      d.startLine = e.startLine ∧ d.isFunction.toNat ≤ e.isFunction.toNat := by
  cases hd : d.isFunction <;> cases he : e.isFunction <;> simp [mayPrecede, hd, he]

theorem mayPrecede_trans (a b c : Decl) (hab : a.mayPrecede b = true)
    (hbc : b.mayPrecede c = true) : a.mayPrecede c = true := by
  rw [mayPrecede_iff] at *
  omega

theorem mayPrecede_total (a b : Decl) : (a.mayPrecede b || b.mayPrecede a) = true := by
  rw [Bool.or_eq_true, mayPrecede_iff, mayPrecede_iff]
  omega

/-- Declarations whose rows may stand in either order. -/
def isAlike (d e : Decl) : Bool := d.startLine == e.startLine && d.isFunction == e.isFunction

theorem isAlike_iff {d e : Decl} :
    d.isAlike e = true ↔ d.mayPrecede e = true ∧ e.mayPrecede d = true := by
  rw [mayPrecede_iff, mayPrecede_iff]
  cases hd : d.isFunction <;> cases he : e.isFunction <;> simp [isAlike, hd, he] <;> omega

end Decl

/-- The declarations of a file, the classes first. -/
def SourceFile.decls (file : SourceFile) : List Decl :=
  file.classes.toList.map .classLike ++ file.functions.toList.map .function

namespace Report

def entry (file : SourceFile) : Decl → Entry
  | .function d => functionEntry file d
  | .classLike d => classEntry file d

theorem Entry.before_iff {a b : Entry} :
    a.before b = true ↔ a.line < b.line ∨ a.line = b.line ∧ a.rank ≤ b.rank := by
  simp [before]

theorem before_entry (file : SourceFile) (d e : Decl) :
    (entry file d).before (entry file e) = d.mayPrecede e := by
  rw [Bool.eq_iff_iff, Decl.mayPrecede_iff, Entry.before_iff]
  cases d <;> cases e <;> rfl

/-- The declarations of a file in the order of their rows. -/
def listed (file : SourceFile) : List Decl := file.decls.mergeSort Decl.mayPrecede

theorem pairwise_listed (file : SourceFile) :
    (listed file).Pairwise fun a b => a.mayPrecede b = true :=
  List.pairwise_mergeSort Decl.mayPrecede_trans Decl.mayPrecede_total _

theorem entries_eq (file : SourceFile) : entries file = (listed file).map (entry file) := by
  rw [listed, List.map_mergeSort (s := Entry.before) fun d _ e _ => (before_entry file d e).symm]
  simp [entries, SourceFile.decls, Function.comp_def, entry]

/-- What a row shows of a declaration. -/
def cells (file : SourceFile) (d : Decl) : List String := (entry file d).cells

theorem declarations_eq (file : SourceFile) : declarations file =
    if listed file = [] then ""
    else Table.render ["Kind", "Name", "Lines", "Returns"] ((listed file).map (cells file)) := by
  rw [declarations, entries_eq]
  cases listed file with
  | nil => rfl
  | cons d ds =>
    rw [if_neg (List.cons_ne_nil d ds)]
    change Table.render _ (((d :: ds).map (entry file)).map (·.cells)) = _
    rw [List.map_map]
    rfl

end Report

/-! ## Stable sorting -/

/-- Members of a list that may stand in either order are sorted into the order that they have. -/
theorem filter_mergeSort {α : Type} {le : α → α → Bool}
    (trans : ∀ a b c, le a b = true → le b c = true → le a c = true)
    (total : ∀ a b, (le a b || le b a) = true) {p : α → Bool}
    (hp : ∀ a b, p a = true → p b = true → le a b = true) (l : List α) :
    (l.mergeSort le).filter p = l.filter p := by
  have hsorted : (l.filter p).Pairwise fun a b => le a b = true :=
    List.pairwise_of_forall_mem_list fun a ha b hb =>
      hp a b (List.mem_filter.mp ha).2 (List.mem_filter.mp hb).2
  have hsub : (l.filter p).Sublist (l.mergeSort le) :=
    List.sublist_mergeSort trans total hsorted List.filter_sublist
  have hsub' := hsub.filter p
  rw [List.filter_filter] at hsub'
  simp only [Bool.and_self] at hsub'
  exact (hsub'.eq_of_length ((List.mergeSort_perm l le).filter p).length_eq.symm).symm

/-! ## Rows and the order of recording -/

theorem SourceFile.Recorded.nodup {f₀ f : SourceFile} {log : List Decl} (h : f₀.Recorded log f) :
    log.Nodup := by
  refine List.pairwise_iff_getElem.mpr fun i j hi hj hij heq => ?_
  have hid := (h.id_eq_iff h (List.getElem?_eq_getElem hi) (List.getElem?_eq_getElem hj)).mp
    (congrArg (·.frame.id) heq)
  omega

/-- In a list without repetition, of two members the one that comes first has the smaller place. -/
theorem idxOf_lt_of_sublist {α : Type} [DecidableEq α] {l : List α} (h : l.Nodup) {a b : α}
    (hab : [a, b].Sublist l) : l.idxOf a < l.idxOf b := by
  have hplaces : l.Pairwise fun x y => l.idxOf x < l.idxOf y := by
    refine List.pairwise_iff_getElem.mpr fun i j hi hj hij => ?_
    rw [h.idxOf_getElem, h.idxOf_getElem]
    exact hij
  exact List.pairwise_iff_forall_sublist.mp hplaces hab

/-- In another order of the same list, two members come in the same order or the other way round. -/
theorem pair_sublist_of_perm {α : Type} {l l' : List α} (hperm : l.Perm l') (h : l.Nodup) {a b : α}
    (hab : [a, b].Sublist l) : [a, b].Sublist l' ∨ [b, a].Sublist l' := by
  have hne : a ≠ b := by
    rintro rfl
    exact List.nodup_iff_sublist.mp h a hab
  have ha : a ∈ l' := hperm.mem_iff.mp (hab.subset (by simp))
  have hb : b ∈ l' := hperm.mem_iff.mp (hab.subset (by simp))
  obtain ⟨before, after, rfl⟩ := List.append_of_mem ha
  rw [List.mem_append, List.mem_cons] at hb
  rcases hb with hb | rfl | hb
  · exact Or.inr ((List.singleton_sublist.mpr hb).append
      ((List.nil_sublist after).cons_cons a))
  · exact absurd rfl hne
  · exact Or.inl (((List.singleton_sublist.mpr hb).cons_cons a).trans
      (List.sublist_append_right before (a :: after)))

namespace Report

variable {id : EntityId} {path : String} {language : Language} {log : List Decl}
  {file : SourceFile} (h : (SourceFile.empty id path language).Recorded log file)
include h

theorem decls_eq :
    file.decls = log.filter (fun d => !d.isFunction) ++ log.filter (fun d => d.isFunction) := by
  have hclasses : log.filterMap (fun d => d.class?.map Decl.classLike) =
      log.filter fun d => !d.isFunction := by
    rw [← List.filterMap_eq_filter]
    refine List.filterMap_congr fun d _ => ?_
    cases d <;> rfl
  have hfunctions : log.filterMap (fun d => d.function?.map Decl.function) =
      log.filter fun d => d.isFunction := by
    rw [← List.filterMap_eq_filter]
    refine List.filterMap_congr fun d _ => ?_
    cases d <;> rfl
  rw [SourceFile.decls, h.file, SourceFile.classes_addAll, SourceFile.functions_addAll, ← hclasses,
    ← hfunctions]
  simp [SourceFile.empty, List.map_filterMap]

theorem mem_decls {d : Decl} : d ∈ file.decls ↔ d ∈ log := by
  rw [decls_eq h, List.mem_append, List.mem_filter, List.mem_filter]
  cases d.isFunction <;> simp

/-- Every declaration has one row. -/
theorem listed_perm : (listed file).Perm log := by
  refine (List.mergeSort_perm ..).trans ?_
  rw [decls_eq h]
  exact List.perm_append_comm.trans (List.filter_append_perm ..)

/-- Among declarations of one kind, the file has the order of recording. -/
theorem filter_decls (kind : Bool) (p : Decl → Bool) (hp : ∀ d, p d = true → d.isFunction = kind) :
    file.decls.filter p = log.filter p := by
  have hpart (k : Bool) : (log.filter fun d => d.isFunction == k).filter p =
      if k = kind then log.filter p else [] := by
    rw [List.filter_filter]
    split
    · refine List.filter_congr fun d _ => ?_
      cases hd : p d with
      | false => rfl
      | true => simp [hp d hd, *]
    · refine List.filter_eq_nil_iff.mpr fun d _ hd => ?_
      simp only [Bool.and_eq_true, beq_iff_eq] at hd
      exact absurd (hd.2.symm.trans (hp d hd.1)) ‹_›
  have hfalse := hpart false
  have htrue := hpart true
  simp only [beq_false, beq_true] at hfalse htrue
  rw [decls_eq h, List.filter_append, hfalse, htrue]
  cases kind <;> simp

/-- Rows that may stand in either order have the order of recording. -/
theorem sublist_log_of_listed {a b : Decl} (hab : [a, b].Sublist (listed file))
    (hba : b.mayPrecede a = true) : [a, b].Sublist log := by
  have hle : a.mayPrecede b = true := List.pairwise_iff_forall_sublist.mp (pairwise_listed file) hab
  have halike (d : Decl) (hd : d.isAlike a = true) :
      d.mayPrecede a = true ∧ a.mayPrecede d = true := Decl.isAlike_iff.mp hd
  have hsub := hab.filter (·.isAlike a)
  rw [listed, filter_mergeSort Decl.mayPrecede_trans Decl.mayPrecede_total fun d e hd he =>
      Decl.mayPrecede_trans d a e (halike d hd).1 (halike e he).2,
    filter_decls h a.isFunction _ fun d hd => by simp_all [Decl.isAlike]] at hsub
  have hpair : [a, b].filter (·.isAlike a) = [a, b] := by
    have ha : a.isAlike a = true := by simp [Decl.isAlike]
    have hb : b.isAlike a = true := Decl.isAlike_iff.mpr ⟨hba, hle⟩
    simp [ha, hb]
  rw [hpair] at hsub
  exact hsub.trans List.filter_sublist

/-- Of two declarations, the one recorded first has its row above the other's unless it may not. -/
theorem sublist_listed_iff {a b : Decl} (hab : [a, b].Sublist log) :
    [a, b].Sublist (listed file) ↔ a.mayPrecede b = true := by
  refine ⟨List.pairwise_iff_forall_sublist.mp (pairwise_listed file), fun hle => ?_⟩
  rcases pair_sublist_of_perm (listed_perm h).symm h.nodup hab with hrow | hrow
  · exact hrow
  · -- the other way round they would have been recorded in that order
    have hplaces := idxOf_lt_of_sublist h.nodup hab
    have hplaces' := idxOf_lt_of_sublist h.nodup (sublist_log_of_listed h hrow hle)
    omega

/-- The rows have the order of recording if no declaration is recorded before one whose row it may
not precede. -/
theorem listed_eq_iff : listed file = log ↔ log.Pairwise fun a b => a.mayPrecede b = true := by
  constructor
  · intro heq
    rw [← heq]
    exact pairwise_listed file
  · intro hlog
    have hrows : (listed file).Pairwise fun a b => log.idxOf a < log.idxOf b := by
      refine List.pairwise_iff_forall_sublist.mpr fun {a b} hab => ?_
      have hnodup : (listed file).Nodup := (listed_perm h).nodup_iff.mpr h.nodup
      rcases pair_sublist_of_perm (listed_perm h) hnodup hab with hl | hl
      · exact idxOf_lt_of_sublist h.nodup hl
      · have hba := List.pairwise_iff_forall_sublist.mp hlog hl
        exact idxOf_lt_of_sublist h.nodup (sublist_log_of_listed h hab hba)
    have hrecorded : log.Pairwise fun a b => log.idxOf a < log.idxOf b :=
      List.pairwise_iff_forall_sublist.mpr (idxOf_lt_of_sublist h.nodup)
    refine List.Perm.eq_of_pairwise (fun a b _ _ hab hba => ?_) hrows hrecorded (listed_perm h)
    omega

end Report

/-! ## Lines and parents in the order of recording -/

/-- A declaration that describes what a built-in adapter recognised has the lines of the node. -/
theorem Decl.Describes.location {l : Language} {t : Site} {source : ByteArray} {d : Decl}
    (h : d.Describes (l.adapter.recognize t source)) :
    d.location = ⟨t.node.lines.1, t.node.lines.2⟩ := by
  have hlines {lines : Nat × Nat} (hl : (l.adapter.recognize t source).lines? = some lines) :
      lines = t.node.lines := Language.lines_of_recognize hl
  cases hr : l.adapter.recognize t source with
  | function shape =>
    rw [hr] at h hlines
    cases d with
    | function d => rw [← hlines rfl]; exact h.2.2.2
    | classLike d => cases h
  | classLike shape =>
    rw [hr] at h hlines
    cases d with
    | function d => cases h
    | classLike d => rw [← hlines rfl]; exact h.2
  | other =>
    rw [hr] at h
    cases d <;> cases h

/-- The sites that a walk comes to are in the order in which they begin. -/
theorem Site.pairwise_reachedSites {s : Site} (h : s.node.Ordered) :
    s.reachedSites.Pairwise fun t u => t.node.start ≤ u.node.start := by
  have hnodes := h.pairwise_start
  rw [← s.node.map_node_sites s.ancestors, List.pairwise_map] at hnodes
  exact hnodes.sublist List.filter_sublist

/-- The declarations that are recorded have the lines of their sites. -/
theorem map_startLine (l : Language) (source : ByteArray) (fileId : EntityId) (s : Site) :
    (declsOn l.adapter source fileId (s.visits l.adapter source fileId)).map (·.startLine) =
      (s.reachedSites.filter (·.isRecorded l.adapter source)).map (·.node.start.row + 1) := by
  have hbeside := Site.forall₂_declsOn l.adapter source fileId (s.visits l.adapter source fileId)
  rw [show (s.visits l.adapter source fileId).map (·.site) = s.reachedSites from
    map_site_visits ..] at hbeside
  have heq : List.Forall₂ Eq
      ((s.reachedSites.filter (·.isRecorded l.adapter source)).map (·.node.start.row + 1))
      ((declsOn l.adapter source fileId (s.visits l.adapter source fileId)).map (·.startLine)) :=
    List.forall₂_map_left_iff.mpr (List.forall₂_map_right_iff.mpr (hbeside.imp fun t d h => by
      rw [Decl.startLine_eq, h.location]
      rfl))
  exact (List.forall₂_eq_eq_eq ▸ heq).symm

theorem pairwise_startLine (l : Language) (source : ByteArray) (fileId : EntityId) {s : Site}
    (h : s.node.Ordered) :
    (declsOn l.adapter source fileId (s.visits l.adapter source fileId)).Pairwise
      fun d e => d.startLine ≤ e.startLine := by
  have hsites := (Site.pairwise_reachedSites h).sublist
    (List.filter_sublist (p := (·.isRecorded l.adapter source)))
  have hlines := List.pairwise_map.mpr (hsites.imp fun hst =>
    Nat.succ_le_succ (Point.row_le hst))
  rw [← map_startLine] at hlines
  exact List.pairwise_map.mp hlines

/-- What is in the log of a file has been gained. -/
theorem Decl.mem_gained {f₀ f : SourceFile} {log : List Decl} (h : f₀.Recorded log f) {d : Decl}
    (hd : d ∈ log) : ∃ c ∈ f₀.gained f, c.frame = d.frame ∧ c.parent = d.parent := by
  cases d with
  | function c =>
    refine ⟨c.declaration, List.mem_append_left _ (List.mem_map_of_mem ?_), rfl, rfl⟩
    rw [h.file, SourceFile.functions_addAll, ← Array.length_toList, List.drop_left]
    exact List.mem_filterMap.mpr ⟨_, hd, rfl⟩
  | classLike c =>
    refine ⟨c.declaration, List.mem_append_right _ (List.mem_map_of_mem ?_), rfl, rfl⟩
    rw [h.file, SourceFile.classes_addAll, ← Array.length_toList, List.drop_left]
    exact List.mem_filterMap.mpr ⟨_, hd, rfl⟩

/-- A parent is recorded before what it encloses. -/
theorem parent_sublist {f₀ : SourceFile} {x : Extraction} {log : List Decl}
    (hx : x.Sound f₀) (h : f₀.Recorded log x.file) {p d : Decl} (hp : p ∈ log) (hd : d ∈ log)
    (hparent : d.parent = p.frame) : [p, d].Sublist log := by
  obtain ⟨c, hc, hframe, hcparent⟩ := Decl.mem_gained h hd
  obtain ⟨-, n, -, hn, hearlier⟩ := hx.gained c hc
  rw [hcparent, hparent] at hearlier
  rw [hframe] at hn
  obtain ⟨i, hi⟩ := List.mem_iff_getElem?.mp hp
  obtain ⟨j, hj⟩ := List.mem_iff_getElem?.mp hd
  rcases hearlier with hfile | ⟨-, -, -, m, hm, hid⟩
  · have hkind := congrArg Frame.kind hfile
    cases p <;> cases hkind
  · rw [h.number i p hi, entityId_inj] at hid
    rw [h.number j d hj, entityId_inj] at hn
    have hij : i < j := by omega
    have hpairs : log.Pairwise fun a b => [a, b].Sublist log :=
      List.pairwise_iff_forall_sublist.mpr id
    obtain ⟨hi', rfl⟩ := List.getElem?_eq_some_iff.mp hi
    obtain ⟨hj', rfl⟩ := List.getElem?_eq_some_iff.mp hj
    exact List.pairwise_iff_getElem.mp hpairs i j hi' hj' hij

/-! ## The table of an extracted file -/

/-- What an extraction records, line by line. -/
theorem Extractor.exists_log (e : Extractor) (i : SourceInput) (l : Language) (dump : NodeDump)
    (h : (e.parse l.adapter.language i).Ordered) :
    ∃ log : List Decl,
      (SourceFile.empty i.fileId i.path l.adapter.language).Recorded log
        (e.walked i l.adapter dump).file ∧
      log.Pairwise fun d c => d.startLine ≤ c.startLine := by
  have hlog := (walk_inventory (SourceFile.empty i.fileId i.path l.adapter.language) dump l.adapter
    i.content.toUTF8 (Site.root (e.parse l.adapter.language i))).1
  exact ⟨_, hlog.recorded, pairwise_startLine l i.content.toUTF8 i.fileId h⟩

/-- On lines that do not decrease, only a function above a class can be out of turn. -/
theorem Decl.mayPrecede_iff_of_le {d e : Decl} (h : d.startLine ≤ e.startLine) :
    d.mayPrecede e = true ↔
      ¬ (d.isFunction = true ∧ e.isFunction = false ∧ d.startLine = e.startLine) := by
  rw [mayPrecede_iff]
  cases hd : d.isFunction <;> cases he : e.isFunction <;> simp <;> omega

/-- **Rows are in source order but where a function comes before a class on one line.** A file is
extracted with a built-in adapter from a tree whose nodes lie within their parents and begin no
earlier than the siblings before them and what is in these. Its declarations were recorded in the
order of their numbers, each after the one that encloses it. The table has a row for each of them,
once. The rows have that order if and only if no function was recorded before a class that starts on
the same line; and a declaration has its row below the one that encloses it, unless it is a class in
a function that starts on the same line. -/
theorem rows_in_order_iff (e : Extractor) (i : SourceInput) (l : Language) (dump : NodeDump)
    (x : Extracted) (hx : (e.extractWith i l.adapter dump).1 = .ok x)
    (hordered : (e.parse l.adapter.language i).Ordered) :
    ∃ log : List Decl, (SourceFile.empty i.fileId i.path l.adapter.language).Recorded log x.file ∧
      Report.declarations x.file = (if Report.listed x.file = [] then "" else
        Table.render ["Kind", "Name", "Lines", "Returns"]
          ((Report.listed x.file).map (Report.cells x.file))) ∧
      (Report.listed x.file).Perm log ∧
      (Report.listed x.file = log ↔ ∀ d c : Decl, [d, c].Sublist log → d.isFunction = true →
        c.isFunction = false → d.startLine ≠ c.startLine) ∧
      ∀ p ∈ log, ∀ d ∈ log, d.parent = p.frame → [p, d].Sublist log ∧
        ([p, d].Sublist (Report.listed x.file) ↔
          ¬ (p.isFunction = true ∧ d.isFunction = false ∧ p.startLine = d.startLine)) := by
  cases hfault : (e.parse l.adapter.language i).fault? with
  | some fault =>
    rw [Extractor.extractWith_of_fault hfault] at hx
    cases hx
  | none =>
    rw [Extractor.extractWith_of_clean hfault] at hx
    cases hx
    have hsound : (e.walked i l.adapter dump).Sound
        (SourceFile.empty i.fileId i.path l.adapter.language) :=
      (Walk.sound_walk (Extraction.sound_start ..) _).1
    obtain ⟨log, hrecorded, hlines⟩ := e.exists_log i l dump hordered
    have hturn {a b : Decl} (hab : [a, b].Sublist log) :=
      Decl.mayPrecede_iff_of_le (List.pairwise_iff_forall_sublist.mp hlines hab)
    refine ⟨log, hrecorded, Report.declarations_eq _, Report.listed_perm hrecorded, ?_, ?_⟩
    · refine (Report.listed_eq_iff hrecorded).trans (List.pairwise_iff_forall_sublist.trans ?_)
      constructor
      · exact fun h d c hdc hd hc heq => (hturn hdc).mp (h hdc) ⟨hd, hc, heq⟩
      · exact fun h d c hdc => (hturn hdc).mpr fun ⟨hd, hc, heq⟩ => h d c hdc hd hc heq
    · intro p hp d hd hparent
      have hsub := parent_sublist hsound hrecorded hp hd hparent
      exact ⟨hsub, (Report.sublist_listed_iff hrecorded hsub).trans (hturn hsub)⟩

/-- The tree of `class A { void m() { class L {} } }`. The local class may stand on a line of its
own. -/
def Node.localClass (ownLine : Bool) : Node :=
  let point (byte : Nat) : Point := if ownLine && 21 ≤ byte then ⟨1, byte - 21⟩ else ⟨0, byte⟩
  let node (kind : String) (field : Option String) (named : Bool) (first last : Nat)
      (children : List Node) : Node :=
    ⟨kind, field, named, false, false, false, first, last, point first, point last, children⟩
  let mark (kind : String) (first : Nat) : Node := node kind none false first (first + 1) []
  let keyword (first : Nat) : Node := node "class" none false first (first + 5) []
  let name (first : Nat) : Node := node "identifier" (some "name") true first (first + 1) []
  node "program" none true 0 35 [
    node "class_declaration" none true 0 35 [keyword 0, name 6,
      node "class_body" (some "body") true 8 35 [mark "\x7b" 8,
        node "method_declaration" none true 10 33 [
          node "void_type" (some "type") true 10 14 [], name 15,
          node "formal_parameters" (some "parameters") true 16 18 [mark "(" 16, mark ")" 17],
          node "block" (some "body") true 19 33 [mark "\x7b" 19,
            node "class_declaration" none true 21 31 [keyword 21, name 27,
              node "class_body" (some "body") true 29 31 [mark "\x7b" 29, mark "\x7d" 30]],
            mark "\x7d" 32]],
        mark "\x7d" 34]]]

def SourceInput.localClass (ownLine : Bool) : SourceInput where
  id := some "f"
  path := "A.java"
  content := "class A \x7b void m() \x7b" ++ (if ownLine then "\n" else " ") ++
    "class L \x7b\x7d \x7d \x7d"

/-- The declarations of that source: a class, in it a method, and in that a class on the line that
is given, where all three end. -/
def Decl.localClass (line : Nat) : List Decl :=
  [.classLike ⟨"f/class:1", "A", ⟨1, line⟩, ⟨"f", .file⟩⟩,
    .function ⟨"f/function:2", "m", some "void", false, ⟨1, line⟩, ⟨"f/class:1", .classLike⟩⟩,
    .classLike ⟨"f/class:3", "L", ⟨line, line⟩, ⟨"f/function:2", .function⟩⟩]

theorem Node.arranged_localClass (ownLine : Bool) : (Node.localClass ownLine).Arranged :=
  ⟨⟨by revert ownLine; decide +kernel, by unfold Within; revert ownLine; decide +kernel⟩,
    by revert ownLine; decide +kernel⟩

theorem Extractor.extractWith_localClass (ownLine : Bool) :
    ∃ x, (({ parse := fun _ _ => Node.localClass ownLine } : Extractor).extractWith
        (.localClass ownLine) Language.java.adapter .disabled).1 = .ok x ∧
      x.file = (SourceFile.empty "f" "A.java" .java).addAll
        (Decl.localClass (1 + ownLine.toNat)) := by
  have hclean : (Node.localClass ownLine).fault? = none := by cases ownLine <;> rfl
  refine ⟨_, extractWith_of_clean hclean _, ?_⟩
  have hfunctions : (walked { parse := fun _ _ => Node.localClass ownLine } (.localClass ownLine)
      Language.java.adapter .disabled).file.functions.toList =
        (Decl.localClass (1 + ownLine.toNat)).filterMap (·.function?) := by
    rw [walked, Extraction.functions_walk]
    revert ownLine
    decide +kernel
  have hclasses : (walked { parse := fun _ _ => Node.localClass ownLine } (.localClass ownLine)
      Language.java.adapter .disabled).file.classes.toList =
        (Decl.localClass (1 + ownLine.toNat)).filterMap (·.class?) := by
    rw [walked, Extraction.classes_walk]
    revert ownLine
    decide +kernel
  rw [SourceFile.addAll_eq, walked_file_eq, ← hfunctions, ← hclasses]
  simp only [SourceFile.empty, Array.toArray_toList, Array.empty_append]
  rfl

/-- On a line of its own, the local class has its row below the method's. -/
theorem rows_in_order_iff_ownLine :
    (Node.localClass true).Arranged ∧
    ∃ x, (({ parse := fun _ _ => Node.localClass true } : Extractor).extractWith
        (.localClass true) Language.java.adapter .disabled).1 = .ok x ∧
      (Decl.localClass 2).tail.Sublist (Report.listed x.file) := by
  obtain ⟨x, hx, hfile⟩ := Extractor.extractWith_localClass true
  have harranged := Node.arranged_localClass true
  obtain ⟨log, -, -, hperm, -, hparents⟩ := rows_in_order_iff
    { parse := fun _ _ => Node.localClass true } (.localClass true) .java .disabled x hx
    harranged.ordered
  have hmem : ∀ d ∈ (Decl.localClass 2).tail, d ∈ log := by
    intro d hd
    refine hperm.mem_iff.mp (List.mem_mergeSort.mpr ?_)
    rw [hfile]
    revert d
    decide +kernel
  have hrows := hparents _ (hmem _ List.mem_cons_self) _
    (hmem _ (List.mem_cons_of_mem _ List.mem_cons_self)) rfl
  exact ⟨harranged, x, hx, hrows.2.mpr (by decide)⟩

/-- Where the local class stands on the line of its method, its row is above the method's. -/
theorem local_class_above_its_method :
    (Node.localClass false).Arranged ∧
    ∃ x, (({ parse := fun _ _ => Node.localClass false } : Extractor).extractWith
        (.localClass false) Language.java.adapter .disabled).1 = .ok x ∧
      (SourceFile.empty "f" "A.java" .java).Recorded (Decl.localClass 1) x.file ∧
      Report.listed x.file ≠ Decl.localClass 1 ∧
      (Report.entries x.file).map (·.cells) = [["class", "A", "1-1", ""],
        ["class", "    L", "1-1", ""], ["function", "  m", "1-1", "void"]] := by
  obtain ⟨x, hx, hfile⟩ := Extractor.extractWith_localClass false
  have hrecorded : (SourceFile.empty "f" "A.java" .java).Recorded (Decl.localClass 1) x.file := by
    refine ⟨hfile, fun i d hd => ?_⟩
    rcases i with _ | _ | _ | i <;> cases hd <;> rfl
  refine ⟨Node.arranged_localClass false, x, hx, hrecorded, fun heq => ?_, ?_⟩
  · exact absurd ((Report.listed_eq_iff hrecorded).mp heq) (by decide)
  · -- the classes before the functions are in order already
    rw [hfile, Report.entries, List.mergeSort_of_pairwise (by decide +kernel)]
    decide +kernel

end Outline
