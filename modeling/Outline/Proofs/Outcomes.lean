import Outline.Proofs.Faults
import Outline.Proofs.Walk.Inventory
import Outline.Source

/-!
# What becomes of a source

There are three ends: no adapter at hand fits, or the tree has a fault, or the source is outlined.
That a walk leaves the scope stack out of order is an error that never arises, and no number that is
computed on the way leaves 64 bits.

* `adapterFor_cases`: an adapter that fits is chosen if there is one.
* `finish_walk`, `file_walk`: a walk from a fresh extraction can be finished, in the file with which
  it began.
* `extractDumping_fst`: the result is the same with any dump.
* `handed_mem`, `next_le`: what a walk hands over is in the tree, and the counter of ids is never
  more than one ahead of the number of nodes.
* `extract_outcomes`: the three ends and when each of them comes.
-/
namespace Outline

/-! ## Trees that a parser returns -/

/-- What is assumed of the tree of a text that has so many bytes. -/
structure Node.Parsed (root : Node) (bytes : Nat) : Prop where
  range : ∀ n ∈ root.nodes, n.startByte ≤ n.endByte ∧ n.endByte ≤ bytes
  flags : root.FlagsExact
  rows : ∀ n ∈ root.nodes, n.start.row < wordBound - 1 ∧ n.stop.row < wordBound - 1
  columns : ∀ n ∈ root.nodes, n.start.column < wordBound - 1 ∧ n.stop.column < wordBound - 1

/-! ## Checked arithmetic -/

/-- One more, unless that is no 64-bit number. -/
def checkedSucc (n : Nat) : Option Nat := if n + 1 < wordBound then some (n + 1) else none

/-- One less, unless there is no such number. -/
def checkedPred (n : Nat) : Option Nat := if 0 < n then some (n - 1) else none

theorem checkedSucc_eq {n : Nat} (h : n < wordBound - 1) : checkedSucc n = some (n + 1) := by
  have : n + 1 < wordBound := by omega
  rw [checkedSucc, if_pos this]

theorem checkedPred_eq {n : Nat} (h : 0 < n) : checkedPred n = some (n - 1) := by
  rw [checkedPred, if_pos h]

namespace Node

/-- The lines of a node, where every step of the computation is checked. -/
def checkedLines (n : Node) : Option (Nat × Nat) :=
  let endRow :=
    if n.stop.column = 0 ∧ n.start.row < n.stop.row then checkedPred n.stop.row
    else some n.stop.row
  (checkedSucc n.start.row).bind fun first =>
    (endRow.bind checkedSucc).map fun last => (first, last)

/-- What is computed from a node's place passes every check: row and column counted from one, and
the lines. -/
structure PlaceFits (n : Node) : Prop where
  row : checkedSucc n.start.row = some (n.start.row + 1)
  column : checkedSucc n.start.column = some (n.start.column + 1)
  lines : n.checkedLines = some n.lines

theorem checkedLines_eq {n : Node} (hstart : n.start.row < wordBound - 1)
    (hstop : n.stop.row < wordBound - 1) : n.checkedLines = some n.lines := by
  unfold checkedLines lines
  rw [checkedSucc_eq hstart]
  split
  · -- the last row is not the first, so there is a row before it
    rename_i h
    have hpos : 0 < n.stop.row := by omega
    have hlast : n.stop.row - 1 < wordBound - 1 := by omega
    rw [checkedPred_eq hpos, Option.bind_some, Option.bind_some, checkedSucc_eq hlast]
    rfl
  · rw [Option.bind_some, Option.bind_some, checkedSucc_eq hstop]
    rfl

theorem Parsed.placeFits {root n : Node} {bytes : Nat} (h : root.Parsed bytes)
    (hn : n ∈ root.nodes) : n.PlaceFits where
  row := checkedSucc_eq (h.rows n hn).1
  column := checkedSucc_eq (h.columns n hn).1
  lines := checkedLines_eq (h.rows n hn).1 (h.rows n hn).2

end Node

/-! ## The adapter -/

/-- An adapter fits a source if it has the language asked for, or else if it handles the path. -/
def Adapter.Fits (a : Adapter) (i : SourceInput) : Option Language → Prop
  | some l => a.language = l
  | none => a.handles i.path = true

/-- What a refusal for want of an adapter names. -/
def SourceInput.asked (i : SourceInput) : Option Language → String
  | some l => l.tag
  | none => i.path

namespace Extractor

theorem adapterFor_cases (e : Extractor) (i : SourceInput) (language : Option Language) :
    (∃ a ∈ e.registry, a.Fits i language ∧ e.adapterFor i language = .ok a) ∨
    ((∀ a ∈ e.registry, ¬ a.Fits i language) ∧
      e.adapterFor i language = .error (.unsupported (i.asked language))) := by
  cases language with
  | some l =>
    cases h : e.registry.forLanguage? l with
    | some a =>
      have hl : a.language = l := by simpa using List.find?_some h
      exact Or.inl ⟨a, List.mem_of_find?_eq_some h, hl, by simp [adapterFor, h]⟩
    | none =>
      refine Or.inr ⟨fun a ha hl => ?_, by simp [adapterFor, h, SourceInput.asked]⟩
      have := List.find?_eq_none.mp h a ha
      simp [show a.language = l from hl] at this
  | none =>
    cases h : e.registry.find? i.path with
    | some a =>
      have hp : a.handles i.path = true := by simpa using List.find?_some h
      exact Or.inl ⟨a, List.mem_of_find?_eq_some h, hp, by simp [adapterFor, h]⟩
    | none =>
      refine Or.inr ⟨fun a ha hp => ?_, by simp [adapterFor, h, SourceInput.asked]⟩
      exact List.find?_eq_none.mp h a ha hp

end Extractor

/-! ## The end of a walk -/

namespace Extraction

variable (file : SourceFile) (dump : NodeDump) (a : Adapter) (source : ByteArray) (s : Site)

theorem finish_walk : ((start file dump).walk a source s).finish =
    .ok ⟨((start file dump).walk a source s).file,
      ((start file dump).walk a source s).malformed⟩ := by
  have hscopes : ((start file dump).walk a source s).scopes = (start file dump).scopes :=
    Walk.run_scopes (Walk.inStep_start _ s)
  rw [finish, hscopes]
  rfl

/-- A walk leaves all of a file as it is but the functions and the classes. -/
theorem file_walk : ∃ functions classes,
    ((start file dump).walk a source s).file = { file with functions, classes } := by
  have hlog := (walk_inventory file dump a source s).1
  exact ⟨_, _, hlog.file.trans (SourceFile.addAll_eq ..)⟩

/-- What a walk finds does not depend on the dump. -/
theorem walk_of_dump (dump' : NodeDump) :
    ((start file dump).walk a source s).file = ((start file dump').walk a source s).file ∧
    ((start file dump).walk a source s).malformed =
      ((start file dump').walk a source s).malformed := by
  obtain ⟨hlog, hmalformed⟩ := walk_inventory file dump a source s
  obtain ⟨hlog', hmalformed'⟩ := walk_inventory file dump' a source s
  exact ⟨hlog.file.trans hlog'.file.symm, Array.toList_inj.mp (hmalformed.trans hmalformed'.symm)⟩

end Extraction

namespace Extractor

/-- The extraction of a source after the walk over its tree. -/
def walked (e : Extractor) (i : SourceInput) (a : Adapter) (dump : NodeDump) : Extraction :=
  (Extraction.start (SourceFile.empty i.fileId i.path a.language) dump).walk a i.content.toUTF8
    (Site.root (e.parse a.language i))

variable {e : Extractor} {i : SourceInput} {a : Adapter}

theorem extractWith_of_fault {fault : Node} (h : (e.parse a.language i).fault? = some fault)
    (dump : NodeDump) : (e.extractWith i a dump).1 = .error (.unparsable i.path fault) := by
  rw [extractWith, tree_of_fault h]

theorem extractWith_of_clean (h : (e.parse a.language i).fault? = none) (dump : NodeDump) :
    (e.extractWith i a dump).1 =
      .ok ⟨(e.walked i a dump).file, (e.walked i a dump).malformed⟩ := by
  simp only [extractWith, tree_of_clean h, Extraction.finish_walk]
  rfl

theorem walked_file (dump : NodeDump) : (e.walked i a dump).file.id = i.fileId ∧
    (e.walked i a dump).file.path = i.path ∧
    (e.walked i a dump).file.language = a.language := by
  obtain ⟨functions, classes, h⟩ := Extraction.file_walk
    (SourceFile.empty i.fileId i.path a.language) dump a i.content.toUTF8
    (Site.root (e.parse a.language i))
  rw [walked, h]
  exact ⟨rfl, rfl, rfl⟩

theorem extractDumping_of_adapter {language : Option Language}
    (h : e.adapterFor i language = .ok a) (dump : NodeDump) :
    e.extractDumping i language dump = e.extractWith i a dump := by
  simp [extractDumping, h]

theorem extractDumping_of_unsupported {language : Option Language} {err : ExtractError}
    (h : e.adapterFor i language = .error err) (dump : NodeDump) :
    (e.extractDumping i language dump).1 = .error err := by
  simp [extractDumping, h]

/-- The dump has no part in the result. -/
theorem extractDumping_fst (e : Extractor) (i : SourceInput) (language : Option Language)
    (dump : NodeDump) : (e.extractDumping i language dump).1 = e.extract i language := by
  rw [extract]
  cases hadapter : e.adapterFor i language with
  | error err => rw [extractDumping_of_unsupported hadapter, extractDumping_of_unsupported hadapter]
  | ok a =>
    rw [extractDumping_of_adapter hadapter, extractDumping_of_adapter hadapter]
    cases h : (e.parse a.language i).fault? with
    | some fault => rw [extractWith_of_fault h, extractWith_of_fault h]
    | none =>
      obtain ⟨hfile, hmalformed⟩ := Extraction.walk_of_dump
        (SourceFile.empty i.fileId i.path a.language) dump a i.content.toUTF8
        (Site.root (e.parse a.language i)) .disabled
      rw [extractWith_of_clean h, extractWith_of_clean h, walked, walked, hfile, hmalformed]

end Extractor

/-! ## Numbers on the way -/

/-- The lines that come with what was recognised. -/
def Construct.lines? : Construct → Option (Nat × Nat)
  | .function s => some s.lines
  | .classLike s => some s.lines
  | .other => none

theorem Python.lines_of_recognize {t : Site} {source : ByteArray} {lines : Nat × Nat}
    (h : (Python.recognize t source).lines? = some lines) : lines = t.node.lines := by
  unfold Python.recognize at h
  split at h <;> simp_all [Construct.lines?, Python.function, Python.lambda, Python.classDefinition]

theorem Java.lines_of_recognize {t : Site} {source : ByteArray} {lines : Nat × Nat}
    (h : (Java.recognize t source).lines? = some lines) : lines = t.node.lines := by
  unfold Java.recognize at h
  split at h <;> simp_all [Construct.lines?, Java.method, Java.constructor,
    Java.compactConstructor, Java.lambda, Java.typeDeclaration]

/-- What a built-in adapter recognises has the lines of its node. -/
theorem Language.lines_of_recognize {l : Language} {t : Site} {source : ByteArray}
    {lines : Nat × Nat} (h : (l.adapter.recognize t source).lines? = some lines) :
    lines = t.node.lines := by
  cases l with
  | python => exact Python.lines_of_recognize h
  | java => exact Java.lines_of_recognize h

theorem Site.node_mem_of_reached {s t : Site} (h : t ∈ s.reachedSites) : t.node ∈ s.node.nodes := by
  rw [← s.node.map_node_sites s.ancestors]
  exact List.mem_map_of_mem (List.mem_filter.mp h).1

theorem Site.length_reachedSites_le (s : Site) : s.reachedSites.length ≤ s.node.size := by
  have hbelow : s.below.length = s.node.size := by
    rw [← s.node.length_nodes, ← s.node.map_node_sites s.ancestors, List.length_map]
    rfl
  rw [← hbelow]
  exact List.length_filter_le ..

namespace Walk

variable {a : Adapter} {source : ByteArray} {w v : Walk}

theorem mem_due_of_handed {t : Site} (h : w.handed = some t) : t ∈ w.due := by
  obtain ⟨pending, os, x⟩ := w
  cases pending with
  | nil => cases h
  | cons s rest =>
    rw [handed] at h
    split at h
    · rename_i hs
      cases h
      have : t ∈ t.reachedSites := by
        rw [Site.reachedSites_eq, if_pos hs]
        exact List.mem_cons_self
      simp [due, this]
    · cases h

theorem due_reaches (h : Reaches a source w v) : ∃ passed, w.due = passed ++ v.due := by
  induction h with
  | refl => exact ⟨[], rfl⟩
  | tail _ hs ih =>
    obtain ⟨passed, hpassed⟩ := ih
    exact ⟨_, by rw [hpassed, due_next? hs, List.append_assoc]⟩

/-- What is handed over in any state of a walk is one of the sites to be reached. -/
theorem handed_mem {x : Extraction} {s t : Site} (h : Reaches a source (start x s) w)
    (ht : w.handed = some t) : t ∈ s.reachedSites := by
  obtain ⟨passed, hpassed⟩ := due_reaches h
  have hstart : (start x s).due = s.reachedSites := by simp [due, start]
  rw [← hstart, hpassed]
  exact List.mem_append_right _ (mem_due_of_handed ht)

theorem next_mono (h : Reaches a source w v) : w.extraction.ids.next ≤ v.extraction.ids.next := by
  obtain ⟨log, hlog⟩ := logs_reaches h
  have : v.extraction.ids.next = w.extraction.ids.next + log.length :=
    congrArg IdSequence.next hlog.ids
  omega

/-- A node gets at most one number. -/
theorem next_le {file : SourceFile} {dump : NodeDump} {s : Site}
    (h : Reaches a source (start (Extraction.start file dump) s) w) :
    w.extraction.ids.next ≤ s.node.size + 1 := by
  obtain ⟨v, hv, -, he⟩ := exists_halted a source w
  have hwalk : (Extraction.start file dump).walk a source s = v.extraction := by
    rw [Extraction.walk, run_of_reaches h, he]
  have hnext := (Usage.gapless_of_logs (walk_inventory file dump a source s).1).next
  have hsites : (s.visits a source file.id).map (·.site) = s.reachedSites := map_site_visits ..
  have hlog : (declsOn a source file.id (s.visits a source file.id)).length ≤ s.node.size :=
    calc (declsOn a source file.id (s.visits a source file.id)).length
        ≤ (s.visits a source file.id).length := List.length_filterMap_le ..
      _ = s.reachedSites.length := by rw [← hsites, List.length_map]
      _ ≤ s.node.size := s.length_reachedSites_le
  have hmono := next_mono hv
  rw [hwalk] at hnext
  omega

/-- What the next step computes passes every check: no fault was ever counted, and the row and the
lines of the site handed over are computed within bounds. -/
structure InBounds (a : Adapter) (source : ByteArray) (w : Walk) : Prop where
  faults : w.extraction.scopes.faults = 0
  row : ∀ t, w.handed = some t → checkedSucc t.node.start.row = some (t.node.start.row + 1)
  lines : ∀ t lines, w.handed = some t → (a.recognize t source).lines? = some lines →
    t.node.checkedLines = some lines

theorem inBounds_of_reaches {l : Language} {root : Node} {bytes : Nat} (hroot : root.Parsed bytes)
    {file : SourceFile} {dump : NodeDump}
    (h : Reaches l.adapter source (start (Extraction.start file dump) (Site.root root)) w) :
    w.InBounds l.adapter source := by
  have hfits : ∀ t, w.handed = some t → t.node.PlaceFits := fun t ht =>
    hroot.placeFits (Site.node_mem_of_reached (handed_mem h ht))
  refine ⟨?_, fun t ht => (hfits t ht).row, fun t lines ht hl => ?_⟩
  · rw [(inStep_reaches (inStep_start _ _) h).scopes, ScopeStack.faults_under]
    rfl
  · rw [Language.lines_of_recognize hl]
    exact (hfits t ht).lines

end Walk

/-! ## The three ends -/

namespace Extractor

/-- The walk over the tree of a source, before its first step. -/
def walkStart (e : Extractor) (i : SourceInput) (a : Adapter) (dump : NodeDump) : Walk :=
  Walk.start (Extraction.start (SourceFile.empty i.fileId i.path a.language) dump)
    (Site.root (e.parse a.language i))

variable {e : Extractor} {i : SourceInput} {a : Adapter}

/-- With an adapter, a source is refused for a fault of its tree or else outlined. -/
theorem extractWith_cases (hflags : (e.parse a.language i).FlagsExact) (dump : NodeDump) :
    ((∃ n ∈ (e.parse a.language i).nodes, n.isFault = true) ∧
      ∃ fault, (e.extractWith i a dump).1 = .error (.unparsable i.path fault)) ∨
    ((∀ n ∈ (e.parse a.language i).nodes, n.isFault = false) ∧
      ∃ x, (e.extractWith i a dump).1 = .ok x ∧ x.file.id = i.fileId ∧ x.file.path = i.path ∧
        x.file.language = a.language) := by
  have hiff := Node.fault?_isSome_iff hflags
  cases h : (e.parse a.language i).fault? with
  | some fault =>
    rw [h] at hiff
    exact Or.inl ⟨hiff.mp rfl, fault, extractWith_of_fault h dump⟩
  | none =>
    rw [h] at hiff
    refine Or.inr ⟨fun n hn => ?_, _, extractWith_of_clean h dump, walked_file dump⟩
    cases hf : n.isFault with
    | false => rfl
    | true => cases hiff.mpr ⟨n, hn, hf⟩

/-- The two ends with an adapter exclude each other, and the tree decides between them. -/
theorem extractWith_ends (hflags : (e.parse a.language i).FlagsExact) (dump : NodeDump)
    {r : Except ExtractError Extracted} (hr : r = (e.extractWith i a dump).1) :
    ((∃ fault, r = .error (.unparsable i.path fault)) ∨ ∃ x, r = .ok x) ∧
    ((∃ path fault, r = .error (.unparsable path fault)) ↔
      ∃ n ∈ (e.parse a.language i).nodes, n.isFault = true) ∧
    ((∃ x, r = .ok x) ↔ ∀ n ∈ (e.parse a.language i).nodes, n.isFault = false) ∧
    ∀ x, r = .ok x →
      x.file.id = i.fileId ∧ x.file.path = i.path ∧ x.file.language = a.language := by
  rcases extractWith_cases hflags dump with ⟨⟨n, hn, hf⟩, fault, h⟩ | ⟨hclean, x, h, hfile⟩ <;>
    rw [h] at hr <;> subst hr
  · refine ⟨Or.inl ⟨fault, rfl⟩, ⟨fun _ => ⟨n, hn, hf⟩, fun _ => ⟨i.path, fault, rfl⟩⟩,
      ⟨?_, ?_⟩, ?_⟩
    · rintro ⟨x, h⟩
      cases h
    · intro hclean
      rw [hclean n hn] at hf
      cases hf
    · intro x h
      cases h
  · refine ⟨Or.inr ⟨x, rfl⟩, ⟨?_, ?_⟩, ⟨fun _ => hclean, fun _ => ⟨x, rfl⟩⟩, ?_⟩
    · rintro ⟨path, fault, h⟩
      cases h
    · rintro ⟨n, hn, hf⟩
      rw [hclean n hn] at hf
      cases hf
    · intro y h
      cases h
      exact hfile

end Extractor

/-- **A source has one of three ends.** Whatever built-in adapters are at hand, in whatever order: a
source is refused for want of an adapter if and only if none has the language asked for, or else
handles the path, and the refusal names the one or the other. If there is one, the source is refused
for its tree if and only if that has an error or a missing node, and otherwise it is outlined, in a
file with its own id and path and the language of the adapter. Scopes are never out of balance; the
checks on rows, lines and columns never fail, and neither does the one on the counter of ids, unless
the tree has more nodes than there are 64-bit numbers. -/
theorem extract_outcomes (e : Extractor) (languages : List Language)
    (he : e.registry = languages.map Language.adapter) (i : SourceInput)
    (language : Option Language) (dump : NodeDump)
    (hparse : ∀ a, e.adapterFor i language = .ok a →
      (e.parse a.language i).Parsed i.content.utf8ByteSize)
    (result : Except ExtractError Extracted)
    (hresult : result = (e.extractDumping i language dump).1) :
    (result = .error (.unsupported (i.asked language)) ∨
      (∃ fault, result = .error (.unparsable i.path fault)) ∨ ∃ x, result = .ok x) ∧
    ((∃ text, result = .error (.unsupported text)) ↔ ∀ a ∈ e.registry, ¬ a.Fits i language) ∧
    (∀ cause, result ≠ .error (.unbalanced cause)) ∧
    ((∃ a ∈ e.registry, a.Fits i language) →
      ∃ a ∈ e.registry, a.Fits i language ∧ e.adapterFor i language = .ok a ∧
        ((∃ path fault, result = .error (.unparsable path fault)) ↔
          ∃ n ∈ (e.parse a.language i).nodes, n.isFault = true) ∧
        ((∃ x, result = .ok x) ↔ ∀ n ∈ (e.parse a.language i).nodes, n.isFault = false) ∧
        (∀ x, result = .ok x →
          x.file.id = i.fileId ∧ x.file.path = i.path ∧ x.file.language = a.language) ∧
        (∀ n ∈ (e.parse a.language i).nodes, n.PlaceFits) ∧
        ∀ w, Walk.Reaches a i.content.toUTF8 (e.walkStart i a dump) w →
          w.InBounds a i.content.toUTF8 ∧
          ((e.parse a.language i).size + 1 < wordBound → w.extraction.ids.next < wordBound)) := by
  rcases e.adapterFor_cases i language with ⟨a, ha, hfits, hadapter⟩ | ⟨hnone, hadapter⟩
  · rw [Extractor.extractDumping_of_adapter hadapter] at hresult
    have hroot := hparse a hadapter
    obtain ⟨hends, hfaulty, hclean, hfile⟩ := Extractor.extractWith_ends hroot.flags dump hresult
    have hwalk : ∀ w, Walk.Reaches a i.content.toUTF8 (e.walkStart i a dump) w →
        w.InBounds a i.content.toUTF8 ∧
        ((e.parse a.language i).size + 1 < wordBound → w.extraction.ids.next < wordBound) := by
      obtain ⟨l, -, rfl⟩ := List.mem_map.mp (he ▸ ha)
      exact fun w hw => ⟨Walk.inBounds_of_reaches hroot hw,
        fun hsize => Nat.lt_of_le_of_lt (Walk.next_le hw) hsize⟩
    refine ⟨Or.inr hends, ⟨?_, fun hno => absurd hfits (hno a ha)⟩, ?_, fun _ => ⟨a, ha, hfits,
      hadapter, hfaulty, hclean, hfile, fun n => hroot.placeFits, hwalk⟩⟩
    · rintro ⟨text, rfl⟩
      rcases hends with ⟨fault, h⟩ | ⟨x, h⟩ <;> cases h
    · rintro cause rfl
      rcases hends with ⟨fault, h⟩ | ⟨x, h⟩ <;> cases h
  · rw [Extractor.extractDumping_of_unsupported hadapter] at hresult
    subst hresult
    refine ⟨Or.inl rfl, ⟨fun _ => hnone, fun _ => ⟨_, rfl⟩⟩, ?_, ?_⟩
    · intro cause h
      cases h
    · rintro ⟨a, ha, hfits⟩
      exact absurd hfits (hnone a ha)

/-- The tree of `lambda: 0`, in which the body may be missing. -/
def Node.lambdaTree (broken : Bool) : Node :=
  ⟨"module", none, true, false, false, broken, 0, 9, ⟨0, 0⟩, ⟨0, 9⟩,
    [⟨"lambda", none, true, false, false, broken, 0, 9, ⟨0, 0⟩, ⟨0, 9⟩,
      [⟨"lambda", none, false, false, false, false, 0, 6, ⟨0, 0⟩, ⟨0, 6⟩, []⟩,
        ⟨":", none, false, false, false, false, 6, 7, ⟨0, 6⟩, ⟨0, 7⟩, []⟩,
        ⟨"integer", some "body", true, false, broken, broken, 8, 9, ⟨0, 8⟩, ⟨0, 9⟩, []⟩]⟩]⟩

/-- Both adapters are at hand, and every source has that tree. -/
def Extractor.ofLambda (broken : Bool) : Extractor :=
  { registry := [Language.java, Language.python].map Language.adapter
    parse := fun _ _ => Node.lambdaTree broken }

theorem extract_outcomes_ofLambda :
    (∀ broken, (Node.lambdaTree broken).Parsed 9) ∧
    (∃ x, (Extractor.ofLambda false).extract ⟨none, "a.py", "lambda: 0"⟩ none = .ok x) ∧
    (∃ path fault, (Extractor.ofLambda true).extract ⟨none, "a.py", "lambda: 0"⟩ none =
      .error (.unparsable path fault)) ∧
    ∃ text, (Extractor.ofLambda false).extract ⟨none, "a.txt", "lambda: 0"⟩ none =
      .error (.unsupported text) := by
  have hparsed : ∀ broken, (Node.lambdaTree broken).Parsed 9 := fun broken =>
    ⟨by revert broken; decide +kernel, by revert broken; unfold Node.FlagsExact; decide +kernel,
      by revert broken; decide +kernel, by revert broken; decide +kernel⟩
  have hclean : ∀ n ∈ (Node.lambdaTree false).nodes, n.isFault = false := by decide +kernel
  have hbroken : ∃ n ∈ (Node.lambdaTree true).nodes, n.isFault = true := by decide +kernel
  have hhandles : Python.adapter.handles "a.py" = true := by decide +kernel
  have hnone : ∀ l ∈ [Language.java, Language.python], ¬ l.adapter.handles "a.txt" = true := by
    decide +kernel
  have hfits : ∀ broken, ∃ a ∈ (Extractor.ofLambda broken).registry,
      a.Fits ⟨none, "a.py", "lambda: 0"⟩ none := fun broken =>
    ⟨Python.adapter, by simp [Extractor.ofLambda, Language.adapter], hhandles⟩
  refine ⟨hparsed, ?_, ?_, ?_⟩
  · obtain ⟨-, -, -, h⟩ := extract_outcomes (.ofLambda false) _ rfl ⟨none, "a.py", "lambda: 0"⟩ none
      .disabled (fun _ _ => hparsed false) _ (Extractor.extractDumping_fst ..).symm
    obtain ⟨a, -, -, -, -, hok, -⟩ := h (hfits false)
    exact hok.mpr hclean
  · obtain ⟨-, -, -, h⟩ := extract_outcomes (.ofLambda true) _ rfl ⟨none, "a.py", "lambda: 0"⟩ none
      .disabled (fun _ _ => hparsed true) _ (Extractor.extractDumping_fst ..).symm
    obtain ⟨a, -, -, -, hrefused, -⟩ := h (hfits true)
    exact hrefused.mpr hbroken
  · obtain ⟨-, h, -⟩ := extract_outcomes (.ofLambda false) _ rfl ⟨none, "a.txt", "lambda: 0"⟩ none
      .disabled (fun _ _ => hparsed false) _ (Extractor.extractDumping_fst ..).symm
    refine h.mpr fun a ha => ?_
    obtain ⟨l, hl, rfl⟩ := List.mem_map.mp ha
    exact hnone l hl

end Outline
