import Mathlib.Algebra.GroupWithZero.Nat
import Outline.Proofs.MandatoryParts

/-!
# What is dumped

The dump of a walk, row by row (`Site.dumpRows`): a title with an empty row before it, and for each
recognised node that the walk comes to a row for the node and one for each of its children. What a
sink holds is the text of these rows, as far as the sink takes it.

* `holds_line`, `holds_foldl_line`: a line adds a row, whatever has become of the sink.
* `nodeLines_eq`: the lines for a node are the rows of the site.
* `holds_visit`, `holds_dumpInto`: a visit adds the rows of its site, and so a walk those of all it
  comes to.
* `newline_notMem_nodeRows`: no row has a line break in it.
* `dump_is_exact`: what sinks hold after a walk.
-/
namespace Outline

/-! ## Rows -/

/-- The rows before the first row of a node. -/
def titleRows : List String := ["", "────────── node dump ──────────"]

/-- The text of rows, each with a line break behind it. Without rows there is no title. -/
def rowsText (rows : List String) : String :=
  if rows = [] then "" else String.join ((titleRows ++ rows).map (· ++ "\n"))

/-- A text in one row: line breaks are shown by a sign, and what comes after 120 characters by an
ellipsis. -/
def shown (text : String) : String :=
  String.ofList <| (text.toList.take 120).map (fun c => if c = '\n' then '⏎' else c) ++
    if 120 < text.length then ['…'] else []

namespace Node

/-- The row for a child: its place among its siblings, to the right of three columns, and its
text. -/
def childRow (source : ByteArray) (i : Nat) (child : Node) : String :=
  String.ofList ((Nat.toDigits 10 i).leftpad 3 ' ') ++ " " ++
    shown (match child.text? source with
      | some text => text
      | none => "<invalid utf-8>")

def dumpRows (source : ByteArray) (n : Node) (construct : EntityKind) : List String :=
  ("ENTERED " ++ construct.tag ++ " (" ++ n.kind ++ ") at line " ++ toString (n.start.row + 1)) ::
    n.children.mapIdx (childRow source)

end Node

/-- The rows for a site, and none for a site that declares nothing. -/
def Site.nodeRows (l : Language) (source : ByteArray) (t : Site) : List String :=
  match l.declaring? t.node.kind with
  | some d => t.node.dumpRows source d.construct
  | none => []

/-- The rows for all sites that a walk comes to. -/
def Site.dumpRows (l : Language) (source : ByteArray) (s : Site) : List String :=
  s.reachedSites.flatMap (·.nodeRows l source)

def Site.dumpText (l : Language) (source : ByteArray) (s : Site) : String :=
  rowsText (s.dumpRows l source)

/-- The dump after a walk that began with a fresh sink. -/
def Extraction.dumpInto (x : Extraction) (sink : Sink) (l : Language) (source : ByteArray)
    (s : Site) : NodeDump :=
  (Extraction.walk { x with dump := .toSink sink } l.adapter source s).dump

theorem rowsText_append_singleton (rows : List String) (row : String) :
    rowsText (rows ++ [row]) =
      rowsText rows ++ ((if rows = [] then NodeDump.header else "") ++ row ++ "\n") := by
  have htitle : String.join (titleRows.map (· ++ "\n")) = NodeDump.header := by decide
  by_cases h : rows = []
  · simp [rowsText, h, String.join_append, htitle, String.append_assoc]
  · simp [rowsText, h, String.join_append, String.append_assoc]

/-! ## What a sink holds -/

theorem extract_zero_min (bytes : ByteArray) (n : Nat) :
    bytes.extract 0 (min n bytes.size) = bytes.extract 0 n := by
  by_cases h : n ≤ bytes.size
  · rw [Nat.min_eq_left h]
  · have hn : max n bytes.size = n := by omega
    rw [Nat.min_eq_right (by omega), ByteArray.extract_zero_size, ← hn,
      ByteArray.extract_zero_max_size]

namespace Sink

/-- As many of some bytes as a capacity allows. -/
def taken (capacity : Option Nat) (bytes : ByteArray) : ByteArray :=
  match capacity with
  | none => bytes
  | some n => bytes.extract 0 (min n bytes.size)

/-- Whether a capacity allows so many bytes. -/
def Takes (capacity : Option Nat) (size : Nat) : Prop := ∀ n ∈ capacity, size ≤ n

variable {capacity : Option Nat} {bytes : ByteArray}

theorem taken_of_takes (h : Takes capacity bytes.size) : taken capacity bytes = bytes := by
  cases capacity with
  | none => rfl
  | some n =>
    have hn : bytes.size ≤ n := h n rfl
    rw [taken, Nat.min_eq_right hn, ByteArray.extract_zero_size]

theorem takes_of_append {more : ByteArray} (h : Takes capacity (bytes ++ more).size) :
    Takes capacity bytes.size := by
  intro n hn
  have := h n hn
  rw [ByteArray.size_append] at this
  omega

/-- Once a capacity is used up, nothing is taken of what comes next. -/
theorem taken_append_of_not_takes (h : ¬ Takes capacity bytes.size) (more : ByteArray) :
    taken capacity (bytes ++ more) = taken capacity bytes := by
  cases capacity with
  | none => exact absurd (fun n hn => nomatch hn) h
  | some n =>
    have hn : n - bytes.size = 0 := by
      by_contra hpos
      exact h fun m hm => by cases hm; omega
    rw [taken, taken, extract_zero_min, extract_zero_min, ByteArray.extract_append, hn,
      Nat.zero_sub, ByteArray.extract_same, ByteArray.append_empty]

theorem stored_write (h : Takes capacity bytes.size) (more : ByteArray) :
    (write ⟨capacity, bytes⟩ more).stored = taken capacity (bytes ++ more) := by
  cases capacity with
  | none => rfl
  | some n =>
    have hn : taken (some n) bytes = bytes := taken_of_takes h
    rw [taken, extract_zero_min] at hn
    rw [taken, extract_zero_min, ByteArray.extract_append, hn, Nat.zero_sub]
    rfl

theorem fits_iff (more : ByteArray) :
    fits ⟨capacity, bytes⟩ more = true ↔ Takes capacity (bytes ++ more).size := by
  cases capacity with
  | none => simp [fits, Takes]
  | some n => simp [fits, Takes]

@[simp] theorem write_capacity (s : Sink) (more : ByteArray) :
    (s.write more).capacity = s.capacity := by
  unfold write
  split <;> rfl

end Sink

namespace NodeDump

/-- After these rows: the sink holds as much of their text as it takes, the dump goes on if it took
all of it, and then the title has been written if there was a row. -/
structure Holds (limit : Option Nat) (rows : List String) (d : NodeDump) : Prop where
  capacity : d.sink.capacity = limit
  stored : d.sink.stored = Sink.taken limit (rowsText rows).toUTF8
  enabled : d.enabled = true ↔ Sink.Takes limit (rowsText rows).toUTF8.size
  header : d.enabled = true → (d.headerWritten = true ↔ rows ≠ [])

variable {limit : Option Nat} {rows : List String} {d : NodeDump}

theorem holds_toSink (limit : Option Nat) : Holds limit [] (toSink ⟨limit, .empty⟩) where
  capacity := rfl
  stored := by
    have htakes : Sink.Takes limit (rowsText []).toUTF8.size := fun n _ => Nat.zero_le n
    rw [Sink.taken_of_takes htakes]
    rfl
  enabled := iff_of_true rfl fun n _ => Nat.zero_le n
  header _ := by simp [toSink]

theorem holds_line (h : d.Holds limit rows) (row : String) :
    (d.line row).Holds limit (rows ++ [row]) := by
  have htext : (rowsText (rows ++ [row])).toUTF8 = (rowsText rows).toUTF8 ++
      ((if rows = [] then header else "") ++ row ++ "\n").toUTF8 := by
    rw [rowsText_append_singleton]
    exact String.toByteArray_append
  unfold line
  by_cases henabled : d.enabled = true
  · have htakes := h.enabled.mp henabled
    have hsink : d.sink = ⟨limit, (rowsText rows).toUTF8⟩ := by
      rw [← Sink.taken_of_takes htakes, ← h.stored, ← h.capacity]
    have htitle : (if d.headerWritten = true then "" else header) =
        if rows = [] then header else "" := by
      by_cases hrows : rows = [] <;> simp [h.header henabled, hrows]
    rw [if_pos henabled, htitle, hsink]
    refine ⟨Sink.write_capacity .., ?_, ?_, fun _ => iff_of_true rfl (by simp)⟩
    · rw [htext, Sink.stored_write htakes]
    · rw [htext, Sink.fits_iff]
  · -- the sink is full, and no line changes it
    have hfull := mt h.enabled.mpr henabled
    rw [if_neg henabled]
    refine ⟨h.capacity, ?_, iff_of_false henabled ?_, fun he => absurd he henabled⟩
    · rw [h.stored, htext, Sink.taken_append_of_not_takes hfull]
    · rw [htext]
      exact mt Sink.takes_of_append hfull

theorem holds_foldl_line (h : d.Holds limit rows) (more : List String) :
    (more.foldl line d).Holds limit (rows ++ more) := by
  induction more generalizing rows d with
  | nil => simpa using h
  | cons row more ih =>
    rw [List.foldl_cons, List.append_cons]
    exact ih (holds_line h row)

theorem foldl_line_of_disabled (h : d.enabled = false) (more : List String) :
    more.foldl line d = d := by
  induction more with
  | nil => rfl
  | cons row more ih =>
    have hrow : d.line row = d := by simp [line, h]
    rw [List.foldl_cons, hrow, ih]

theorem node_eq (d : NodeDump) (label : String) (n : Node) (source : ByteArray) :
    d.node label n source = (nodeLines label n source).foldl line d := by
  unfold node
  by_cases h : d.enabled = true
  · rw [if_pos h]
  · rw [if_neg h, foldl_line_of_disabled (Bool.eq_false_iff.mpr h)]

/-! ## The lines for a node -/

theorem truncate_eq (text : String) : truncate text = shown text := by
  unfold truncate shown maxChildText
  rw [← String.length_toList]
  by_cases h : text.toList.length ≤ 120
  · have htake : text.toList.take 120 = text.toList := List.take_of_length_le h
    simp only [List.length_map, if_pos h, htake, if_neg (Nat.not_lt.mpr h), List.append_nil]
  · simp only [List.length_map, if_neg h, if_pos (Nat.not_le.mp h), List.map_take]

theorem indexText_eq (i : Nat) :
    indexText i = String.ofList ((Nat.toDigits 10 i).leftpad 3 ' ') := by
  unfold indexText List.leftpad
  rw [Nat.toString_eq_repr, Nat.repr_eq_ofList_toDigits]
  simp

theorem childLine_eq (source : ByteArray) (child : Node) (i : Nat) :
    childLine source child i = Node.childRow source i child := by
  rw [childLine, Node.childRow, truncate_eq, indexText_eq]
  cases child.text? source <;> rfl

/-- A line break within a child leaves it on one line. -/
example : childLine "if 1:\n 2".toUTF8
    ⟨"block", none, true, false, false, false, 0, 8, ⟨0, 0⟩, ⟨1, 2⟩, []⟩ 7 = "  7 if 1:⏎ 2" := by
  decide +kernel

theorem nodeLines_eq (source : ByteArray) (n : Node) (construct : EntityKind) :
    nodeLines construct.tag n source = n.dumpRows source construct := by
  simp only [nodeLines, Node.dumpRows, childLine_eq]

end NodeDump

/-! ## Visits and walks -/

open NodeDump in
theorem holds_visit {l : Language} {source : ByteArray} {limit : Option Nat} {rows : List String}
    {r : Findings} (h : r.dump.Holds limit rows) (t : Site) (parent : Frame) :
    (r.visit l.adapter source t parent).2.dump.Holds limit (rows ++ t.nodeRows l source) := by
  have hrecognized := l.recognized t source
  unfold Findings.visit Site.nodeRows
  generalize l.declaring? t.node.kind = entry at hrecognized
  generalize l.adapter.recognize t source = found at hrecognized
  cases hrecognized with
  | @function d s hs =>
    simp only [Findings.recordFunction, hs.construct, ← nodeLines_eq, node_eq]
    cases s.check <;> exact holds_foldl_line h _
  | @classLike d s hs =>
    simp only [Findings.recordClass, hs.construct, ← nodeLines_eq, node_eq]
    cases s.check <;> exact holds_foldl_line h _
  | other => simpa using h

theorem holds_foldl {l : Language} {source : ByteArray} {limit : Option Nat} {rows : List String}
    {r : Findings} (h : r.dump.Holds limit rows) (vs : List Visit) :
    (vs.foldl (Findings.follow l.adapter source) r).dump.Holds limit
      (rows ++ (vs.map (·.site)).flatMap (·.nodeRows l source)) := by
  induction vs generalizing r rows with
  | nil => simpa using h
  | cons v vs ih =>
    rw [List.foldl_cons, List.map_cons, List.flatMap_cons, ← List.append_assoc]
    exact ih (holds_visit h v.site v.parent)

theorem holds_dumpInto (x : Extraction) (limit : Option Nat) (l : Language) (source : ByteArray)
    (s : Site) : (x.dumpInto ⟨limit, .empty⟩ l source s).Holds limit (s.dumpRows l source) := by
  let y : Extraction := { x with dump := .toSink ⟨limit, .empty⟩ }
  have hstart : y.findings.dump.Holds limit [] := NodeDump.holds_toSink limit
  have hdump : x.dumpInto ⟨limit, .empty⟩ l source s =
      (y.walk l.adapter source s).findings.dump := rfl
  rw [hdump, Extraction.walk_findings, Node.outline_eq_foldl, Site.dumpRows,
    ← map_site_visits s.node s.ancestors]
  exact holds_foldl hstart _

/-! ## Line breaks -/

theorem newline_notMem_toDigits (n : Nat) : '\n' ∉ Nat.toDigits 10 n := by
  intro h
  have : Char.isDigit '\n' = true := Nat.isDigit_of_mem_toDigits (by decide) (by decide) h
  exact absurd this (by decide)

theorem newline_notMem_shown (text : String) : '\n' ∉ (shown text).toList := by
  unfold shown
  rw [String.toList_ofList, List.mem_append, List.mem_map]
  rintro (⟨c, -, hc⟩ | h)
  · by_cases hbreak : c = '\n'
    · rw [if_pos hbreak] at hc
      exact absurd hc (by decide)
    · rw [if_neg hbreak] at hc
      exact hbreak hc
  · split at h <;> simp at h

theorem newline_notMem_childRow (source : ByteArray) (i : Nat) (child : Node) :
    '\n' ∉ (Node.childRow source i child).toList := by
  simp [Node.childRow, List.leftpad, newline_notMem_toDigits, newline_notMem_shown]

theorem newline_notMem_kind {l : Language} {kind : String} {d : Declaring}
    (h : l.declaring? kind = some d) : '\n' ∉ kind.toList := by
  unfold Language.declaring? at h
  have hkind : d.kind = kind := by simpa using List.find?_some h
  have htable : ∀ d ∈ l.declaring, '\n' ∉ d.kind.toList := by cases l <;> decide
  rw [← hkind]
  exact htable d (List.mem_of_find?_eq_some h)

theorem newline_notMem_nodeRows {l : Language} {source : ByteArray} {t : Site} {row : String}
    (h : row ∈ t.nodeRows l source) : '\n' ∉ row.toList := by
  unfold Site.nodeRows at h
  split at h
  · rename_i d hd
    have hkind := newline_notMem_kind hd
    have htag : '\n' ∉ d.construct.tag.toList := by cases d.construct <;> decide
    rcases List.mem_cons.mp h with rfl | h
    · simp [hkind, htag, newline_notMem_toDigits]
    · obtain ⟨i, hi, rfl⟩ := List.mem_mapIdx.mp h
      exact newline_notMem_childRow source i _
  · cases h

theorem newline_notMem_dumpRows {l : Language} {source : ByteArray} {s : Site} {row : String}
    (h : row ∈ s.dumpRows l source) : '\n' ∉ row.toList := by
  obtain ⟨t, -, ht⟩ := List.mem_flatMap.mp h
  exact newline_notMem_nodeRows ht

theorem count_newline_join {rows : List String} (h : ∀ row ∈ rows, '\n' ∉ row.toList) :
    (String.join (rows.map (· ++ "\n"))).toList.count '\n' = rows.length := by
  induction rows with
  | nil => rfl
  | cons row rows ih =>
    rw [List.forall_mem_cons] at h
    have hrow : row.toList.count '\n' = 0 := List.count_eq_zero.mpr h.1
    rw [List.map_cons, String.join_cons, String.toList_append, String.toList_append,
      List.count_append, List.count_append, hrow, ih h.2, List.length_cons]
    simp [Nat.add_comm]

/-- Rows without line breaks make as many lines as there are rows, and two for the title. -/
theorem count_newline_rowsText {rows : List String} (h : ∀ row ∈ rows, '\n' ∉ row.toList) :
    (rowsText rows).toList.count '\n' = if rows = [] then 0 else 2 + rows.length := by
  have htitle : ∀ row ∈ titleRows, '\n' ∉ row.toList := by decide
  unfold rowsText
  split
  · rfl
  · rw [count_newline_join (List.forall_mem_append.mpr ⟨htitle, h⟩), List.length_append]
    rfl

theorem length_nodeRows (l : Language) (source : ByteArray) (t : Site) :
    (t.nodeRows l source).length =
      if t.isRecognized l.adapter source then 1 + t.node.children.length else 0 := by
  rw [Site.isRecognized, l.kind?_recognize, Site.nodeRows]
  cases l.declaring? t.node.kind with
  | none => rfl
  | some d => simp [Node.dumpRows, Nat.add_comm]

theorem length_flatMap_nodeRows (l : Language) (source : ByteArray) (sites : List Site) :
    (sites.flatMap (·.nodeRows l source)).length =
      ((sites.filter (·.isRecognized l.adapter source)).map
        fun t => 1 + t.node.children.length).sum := by
  induction sites with
  | nil => rfl
  | cons t sites ih =>
    rw [List.flatMap_cons, List.length_append, ih, length_nodeRows, List.filter_cons]
    by_cases h : t.isRecognized l.adapter source = true
    · rw [if_pos h, if_pos h, List.map_cons, List.sum_cons]
    · rw [if_neg h, if_neg h, Nat.zero_add]

theorem length_dumpRows (l : Language) (source : ByteArray) (s : Site) :
    (s.dumpRows l source).length =
      ((s.recognizedSites l.adapter source).map fun t => 1 + t.node.children.length).sum :=
  length_flatMap_nodeRows l source s.reachedSites

/-- There are rows if a site is recognised. -/
theorem dumpRows_eq_nil_iff (l : Language) (source : ByteArray) (s : Site) :
    s.dumpRows l source = [] ↔ s.recognizedSites l.adapter source = [] := by
  rw [← List.length_eq_zero_iff, length_dumpRows]
  cases s.recognizedSites l.adapter source <;> simp

/-- **The dump is exact.** A walk that starts with a fresh sink, in whatever state else, leaves in a
sink without a limit the text of the rows for the recognised sites it comes to, after the title; and
in a sink that takes `n` bytes the first `n` bytes of that text, or all of it if it is not longer.
The dump goes on just if all was taken. The text has two line breaks for the title, if anything is
recognised, and one for each recognised node and each child of one. -/
theorem dump_is_exact (x : Extraction) (l : Language) (source : ByteArray) (s : Site) :
    (x.dumpInto .unlimited l source s).sink.stored = (s.dumpText l source).toUTF8 ∧
    (x.dumpInto .unlimited l source s).enabled = true ∧
    (s.dumpText l source).toList.count '\n' =
      (if s.recognizedSites l.adapter source = [] then 0
        else 2 + ((s.recognizedSites l.adapter source).map
          fun t => 1 + t.node.children.length).sum) ∧
    ∀ n : Nat,
      (x.dumpInto { capacity := some n } l source s).sink.stored =
        (s.dumpText l source).toUTF8.extract 0 (min n (s.dumpText l source).toUTF8.size) ∧
      ((x.dumpInto { capacity := some n } l source s).enabled = true ↔
        (s.dumpText l source).toUTF8.size ≤ n) := by
  have hunlimited := holds_dumpInto x none l source s
  refine ⟨hunlimited.stored, hunlimited.enabled.mpr nofun, ?_, fun n => ?_⟩
  · rw [Site.dumpText, count_newline_rowsText fun _ => newline_notMem_dumpRows, length_dumpRows]
    simp only [dumpRows_eq_nil_iff]
  · have hlimited := holds_dumpInto x (some n) l source s
    refine ⟨hlimited.stored, hlimited.enabled.trans ?_⟩
    simp [Sink.Takes, Site.dumpText]

end Outline
