import Mathlib.Data.List.Basic
import Mathlib.Data.List.Perm.Basic
import Outline.Proofs.Usage

/-!
# Ids of declarations

One counter numbers the functions and the classes of a file, and an id is written
`file/kind:number`. Two things make such ids unique: the counter goes up by one with each
declaration that is recorded and stays where it is otherwise, and the written form can be taken
apart again, also when the file's own id looks like one.

What happens between two moments of an extraction is a *log*: the declarations recorded, of either
kind, in the order in which they were recorded (`Findings.Logs`).

* `entityId_inj`: an id tells the file, the kind and the number.
* `Outcome.logs`, `Walk.logs_next?`, `Usage.logs_step`: what one operation, one step of a walk and
  one step of a use record.
* `SourceFile.Recorded.numbers`: a log numbered from one splits into two increasing lists of numbers
  that together are all numbers up to its length.
* `SourceFile.Recorded.function?_eq`, `SourceFile.Recorded.class?_eq`: a declaration is found by its
  id.
* `ids_gapless`: the numbers of a run, and when the ids of two runs are equal.
-/
namespace Outline

/-! ## Taking an id apart -/

/-- The last place of a separator is found, whatever stands before it. -/
theorem append_cons_inj_of_notMem_tail {α : Type} {c : α} {xs us ys vs : List α}
    (hy : c ∉ ys) (hv : c ∉ vs) (h : xs ++ c :: ys = us ++ c :: vs) : xs = us ∧ ys = vs := by
  rcases List.append_eq_append_iff.mp h with ⟨as, hu, hs⟩ | ⟨as, hx, hs⟩
  · cases as with
    | nil => exact ⟨by simpa using hu.symm, (List.cons.inj hs).2⟩
    | cons a as =>
      have : c ∈ ys := by rw [(List.cons.inj hs).2]; simp
      exact absurd this hy
  · cases as with
    | nil => exact ⟨by simpa using hx, (List.cons.inj hs).2.symm⟩
    | cons a as =>
      have : c ∈ vs := by rw [(List.cons.inj hs).2]; simp
      exact absurd this hv

theorem toString_inj_nat {n m : Nat} (h : (toString n).toList = (toString m).toList) : n = m := by
  have hd : Nat.toDigits 10 n = Nat.toDigits 10 m := by
    simpa only [Nat.toString_eq_repr, Nat.toList_repr] using h
  have := congrArg (fun ds => Nat.ofDigitChars 10 ds 0) hd
  simpa using this

theorem colon_notMem_toString (n : Nat) : ':' ∉ (toString n).toList := by
  intro h
  rw [Nat.toString_eq_repr, Nat.toList_repr] at h
  have : Char.isDigit ':' = true := Nat.isDigit_of_mem_toDigits (by decide) (by decide) h
  exact absurd this (by decide)

namespace EntityKind

theorem slash_notMem_tag (k : EntityKind) : '/' ∉ k.tag.toList := by cases k <;> decide

theorem tag_inj {k l : EntityKind} (h : k.tag = l.tag) : k = l := by
  cases k <;> cases l <;> first | rfl | exact absurd h (by decide)

end EntityKind

/-- The file id of an id may hold slashes, colons and digits of its own: the number is what follows
the last colon, and the kind what stands between it and the last slash before. -/
theorem entityId_inj {f g : EntityId} {k l : EntityKind} {n m : Nat} :
    entityId f k n = entityId g l m ↔ f = g ∧ k = l ∧ n = m := by
  constructor
  · intro h
    have hl : (f.toList ++ '/' :: k.tag.toList) ++ ':' :: (toString n).toList =
        (g.toList ++ '/' :: l.tag.toList) ++ ':' :: (toString m).toList := by
      simpa [entityId] using congrArg String.toList h
    obtain ⟨hfront, hnumber⟩ :=
      append_cons_inj_of_notMem_tail (colon_notMem_toString n) (colon_notMem_toString m) hl
    obtain ⟨hfile, hkind⟩ :=
      append_cons_inj_of_notMem_tail k.slash_notMem_tag l.slash_notMem_tag hfront
    exact ⟨String.toList_inj.mp hfile, EntityKind.tag_inj (String.toList_inj.mp hkind),
      toString_inj_nat hnumber⟩
  · rintro ⟨rfl, rfl, rfl⟩
    rfl

/-- An id is longer than the id of its file. -/
theorem entityId_ne_fileId (f : EntityId) (k : EntityKind) (n : Nat) : entityId f k n ≠ f := by
  intro h
  have := congrArg (fun s => s.toList.length) h
  simp [entityId] at this

/-! ## Declarations in the order of recording -/

/-- A declaration with all that is recorded of it. -/
inductive Decl where
  | function (d : FunctionDecl)
  | classLike (d : ClassDecl)
  deriving DecidableEq, Repr

namespace Decl

def frame : Decl → Frame
  | .function d => d.frame
  | .classLike d => d.frame

def function? : Decl → Option FunctionDecl
  | .function d => some d
  | .classLike _ => none

def class? : Decl → Option ClassDecl
  | .function _ => none
  | .classLike d => some d

end Decl

namespace SourceFile

def add (f : SourceFile) : Decl → SourceFile
  | .function d => f.addFunction d
  | .classLike d => f.addClass d

/-- The file after the declarations of a log were added, one after the other. -/
def addAll (f : SourceFile) (log : List Decl) : SourceFile := log.foldl add f

theorem addAll_append (f : SourceFile) (log more : List Decl) :
    f.addAll (log ++ more) = (f.addAll log).addAll more := List.foldl_append

/-- Adding changes nothing of a file but its two lists. -/
theorem addAll_eq (f : SourceFile) (log : List Decl) :
    f.addAll log =
      { f with
        functions := f.functions ++ (log.filterMap (·.function?)).toArray
        classes := f.classes ++ (log.filterMap (·.class?)).toArray } := by
  induction log generalizing f with
  | nil => simp [addAll]
  | cons d log ih =>
    rw [addAll, List.foldl_cons]
    refine (ih (f.add d)).trans ?_
    cases d <;> simp [add, addFunction, addClass, Decl.function?, Decl.class?]

theorem functions_addAll (f : SourceFile) (log : List Decl) :
    (f.addAll log).functions.toList = f.functions.toList ++ log.filterMap (·.function?) := by
  simp [addAll_eq]

theorem classes_addAll (f : SourceFile) (log : List Decl) :
    (f.addAll log).classes.toList = f.classes.toList ++ log.filterMap (·.class?) := by
  simp [addAll_eq]

theorem entityCount_addAll (f : SourceFile) (log : List Decl) :
    (f.addAll log).entityCount = f.entityCount + log.length := by
  induction log generalizing f with
  | nil => rfl
  | cons d log ih =>
    rw [addAll, List.foldl_cons]
    refine (ih (f.add d)).trans ?_
    cases d <;> simp [add, addFunction, addClass, entityCount] <;> omega

end SourceFile

/-! ## What is recorded between two moments -/

namespace Findings

/-- From `r` to `q` the declarations of `log` were recorded, in this order; the counter went up by
one with each of them and at no other time. -/
structure Logs (r : Findings) (log : List Decl) (q : Findings) : Prop where
  file : q.file = r.file.addAll log
  ids : q.ids = { r.ids with next := r.ids.next + log.length }
  number : ∀ i d, log[i]? = some d →
    d.frame.id = entityId r.ids.fileId d.frame.kind (r.ids.next + i)

variable {r q t : Findings}

theorem Logs.nil (hf : q.file = r.file) (hi : q.ids = r.ids) : r.Logs [] q where
  file := hf
  ids := by rw [hi]; rfl
  number := by intro i d h; simp at h

theorem Logs.of_eq (h : q = r) : r.Logs [] q := .nil (by rw [h]) (by rw [h])

theorem Logs.single {d : Decl} (hf : q.file = r.file.add d)
    (hi : q.ids = { r.ids with next := r.ids.next + 1 })
    (hn : d.frame.id = entityId r.ids.fileId d.frame.kind r.ids.next) : r.Logs [d] q where
  file := hf
  ids := hi
  number := by
    intro i e he
    cases i with
    | zero =>
      cases he
      exact hn
    | succ i => simp at he

theorem Logs.trans {log more : List Decl} (hrq : r.Logs log q) (hqt : q.Logs more t) :
    r.Logs (log ++ more) t where
  file := by rw [hqt.file, hrq.file, SourceFile.addAll_append]
  ids := by rw [hqt.ids, hrq.ids, List.length_append, Nat.add_assoc]
  number := by
    intro i d h
    rcases Nat.lt_or_ge i log.length with hi | hi
    · rw [List.getElem?_append_left hi] at h
      exact hrq.number i d h
    · rw [List.getElem?_append_right hi] at h
      have hnext : r.ids.next + log.length + (i - log.length) = r.ids.next + i := by omega
      rw [hqt.number _ d h, hrq.ids, hnext]

end Findings

namespace Extraction

variable {x y : Extraction}

theorem Records.logs {d : Declaration} (h : x.Records y d) :
    ∃ e, x.findings.Logs [e] y.findings := by
  have hn := h.number
  rcases h.file with ⟨c, hc, rfl⟩ | ⟨c, hc, rfl⟩
  · exact ⟨.function c, .single hc h.ids hn⟩
  · exact ⟨.classLike c, .single hc h.ids hn⟩

/-- Recording adds the one declaration whose frame it answers, and nothing if it answers none. -/
theorem Outcome.logs {r : Option Frame × Extraction} (h : x.Outcome r) :
    ∃ log, x.findings.Logs log r.2.findings ∧ log.length = r.1.isSome.toNat := by
  rcases h with ⟨hn, hk⟩ | ⟨d, hd, hr⟩
  · exact ⟨[], .nil hk.file hk.ids, by rw [hn]; rfl⟩
  · obtain ⟨e, he⟩ := hr.logs
    exact ⟨[e], he, by rw [hd]; rfl⟩

end Extraction

namespace Walk

variable {a : Adapter} {source : ByteArray} {w v : Walk}

theorem logs_descend (s : Site) (rest : List Site) (os : List OpenNode) (x : Extraction) :
    ∃ log, x.findings.Logs log (descend a source s rest os x).extraction.findings ∧
      log.length ≤ 1 := by
  have hv := (alignInnermost x os (inOwnScope a s.node)).2.visit_cases a source s
  obtain ⟨log, hlog, hlen⟩ := hv.logs
  rw [alignInnermost_findings] at hlog
  refine ⟨log, ?_, by rw [hlen]; exact Bool.toNat_le _⟩
  unfold descend
  split <;> exact hlog

theorem logs_next? (h : next? a source w = some v) :
    ∃ log, w.extraction.findings.Logs log v.extraction.findings ∧ log.length ≤ 1 := by
  unfold next? at h
  split at h
  · split at h <;> cases h
    · exact logs_descend ..
    · exact ⟨[], .of_eq rfl, Nat.zero_le _⟩
  · rename_i o os x
    cases h
    exact ⟨[], .of_eq (close_findings x o), Nat.zero_le _⟩
  · cases h

theorem logs_reaches (h : Reaches a source w v) :
    ∃ log, w.extraction.findings.Logs log v.extraction.findings := by
  induction h with
  | refl => exact ⟨[], .of_eq rfl⟩
  | tail _ hs ih =>
    obtain ⟨log, hlog⟩ := ih
    obtain ⟨more, hmore, -⟩ := logs_next? hs
    exact ⟨log ++ more, hlog.trans hmore⟩

theorem logs_walk (x : Extraction) (s : Site) :
    ∃ log, x.findings.Logs log (x.walk a source s).findings := by
  obtain ⟨w, hr, -, he⟩ := exists_halted a source (start x s)
  rw [Extraction.walk, he]
  exact logs_reaches hr

end Walk

namespace Usage

variable {may : SourceFile → Frame → Prop} {S T : Usage}

theorem logs_step (h : Step may S T) :
    ∃ log, S.extraction.findings.Logs log T.extraction.findings := by
  cases h with
  | function x ps shape =>
    obtain ⟨log, hlog, -⟩ := (x.recordFunction_cases shape).logs
    exact ⟨log, hlog⟩
  | classLike x ps shape =>
    obtain ⟨log, hlog, -⟩ := (x.recordClass_cases shape).logs
    exact ⟨log, hlog⟩
  | enter x ps p hp => exact ⟨[], .nil rfl rfl⟩
  | leave x ps p => exact ⟨[], .nil rfl rfl⟩
  | line x ps text => exact ⟨[], .nil rfl rfl⟩
  | walk x ps a source s => exact Walk.logs_walk x s

theorem logs_reaches (h : Relation.ReflTransGen (Step may) S T) :
    ∃ log, S.extraction.findings.Logs log T.extraction.findings := by
  induction h with
  | refl => exact ⟨[], .of_eq rfl⟩
  | tail _ hs ih =>
    obtain ⟨log, hlog⟩ := ih
    obtain ⟨more, hmore⟩ := logs_step hs
    exact ⟨log ++ more, hlog.trans hmore⟩

end Usage

/-! ## Numbers -/

/-- The log of a file since its start: the declarations added, the `i`-th of which has the number
`i`, counted from one. -/
structure SourceFile.Recorded (f₀ : SourceFile) (log : List Decl) (f : SourceFile) : Prop where
  file : f = f₀.addAll log
  number : ∀ i d, log[i]? = some d → d.frame.id = entityId f₀.id d.frame.kind (i + 1)

theorem Findings.Logs.recorded {file : SourceFile} {dump : NodeDump} {log : List Decl}
    {r : Findings} (h : (Extraction.start file dump).findings.Logs log r) :
    file.Recorded log r.file where
  file := h.file
  number := by
    intro i d hd
    rw [h.number i d hd, Nat.add_comm i 1]
    rfl

/-- The numbers, in a log that begins with the number `n`, of the declarations that `pick` takes. -/
def numbersOf {β : Type} (pick : Decl → Option β) (n : Nat) (log : List Decl) : List Nat :=
  ((log.zipIdx n).filter fun q => (pick q.1).isSome).map (·.2)

theorem pairwise_lt_numbersOf {β : Type} (pick : Decl → Option β) (n : Nat) (log : List Decl) :
    (numbersOf pick n log).Pairwise (· < ·) := by
  have hs : (numbersOf pick n log).Sublist ((log.zipIdx n).map (·.2)) :=
    List.Sublist.map _ List.filter_sublist
  rw [List.zipIdx_map_snd] at hs
  exact List.Pairwise.sublist hs List.pairwise_lt_range'

/-- A declaration is picked either as a function or as a class, so every number is taken once. -/
theorem numbersOf_perm (n : Nat) (log : List Decl) :
    (numbersOf (·.function?) n log ++ numbersOf (·.class?) n log).Perm
      (List.range' n log.length) := by
  have hc : (fun q : Decl × Nat => q.1.class?.isSome) = fun q => !q.1.function?.isSome := by
    funext ⟨d, i⟩
    cases d <;> rfl
  rw [numbersOf, numbersOf, hc, ← List.map_append, ← List.zipIdx_map_snd]
  exact (List.filter_append_perm _ _).map _

theorem ids_of_numbersOf {β : Type} {pick : Decl → Option β} {key : β → EntityId}
    {kind : EntityKind} (hp : ∀ d b, pick d = some b → d.frame = ⟨key b, kind⟩)
    {fileId : EntityId} {n : Nat} {log : List Decl}
    (h : ∀ i d, log[i]? = some d → d.frame.id = entityId fileId d.frame.kind (n + i)) :
    (log.filterMap pick).map key = (numbersOf pick n log).map (entityId fileId kind) := by
  induction log generalizing n with
  | nil => rfl
  | cons d log ih =>
    have hd : d.frame.id = entityId fileId d.frame.kind n := h 0 d rfl
    have ht := ih (n := n + 1) fun i e he => by
      rw [h (i + 1) e (by simpa using he), Nat.add_right_comm, Nat.add_assoc]
    cases hpick : pick d with
    | none => simpa [numbersOf, hpick] using ht
    | some b =>
      have hb : key b = entityId fileId kind n := by rwa [hp d b hpick] at hd
      simpa [numbersOf, hpick, hb] using ht

/-- In a log numbered from one, the numbers of the functions go up and so do those of the classes,
and together they are all numbers up to the length of the log, each once. -/
theorem SourceFile.Recorded.numbers {f₀ f : SourceFile} {log : List Decl}
    (h : f₀.Recorded log f) :
    ∃ ns ms : List Nat,
      f.functions.toList.map (·.id) =
        f₀.functions.toList.map (·.id) ++ ns.map (entityId f₀.id .function) ∧
      f.classes.toList.map (·.id) =
        f₀.classes.toList.map (·.id) ++ ms.map (entityId f₀.id .classLike) ∧
      ns.Pairwise (· < ·) ∧ ms.Pairwise (· < ·) ∧
      (ns ++ ms).Perm (List.range' 1 log.length) := by
  have hn : ∀ i d, log[i]? = some d → d.frame.id = entityId f₀.id d.frame.kind (1 + i) := by
    intro i d hd
    rw [h.number i d hd, Nat.add_comm]
  refine ⟨numbersOf (·.function?) 1 log, numbersOf (·.class?) 1 log, ?_, ?_,
    pairwise_lt_numbersOf .., pairwise_lt_numbersOf .., numbersOf_perm 1 log⟩
  · rw [h.file, SourceFile.functions_addAll, List.map_append]
    congr 1
    refine ids_of_numbersOf (fun d b hd => ?_) hn
    cases d <;> cases hd
    rfl
  · rw [h.file, SourceFile.classes_addAll, List.map_append]
    congr 1
    refine ids_of_numbersOf (fun d b hd => ?_) hn
    cases d <;> cases hd
    rfl

/-- In logs of two files, ids are equal only at the same place of logs of files with one id. -/
theorem SourceFile.Recorded.id_eq_iff {f₀ f g₀ g : SourceFile} {log more : List Decl}
    (hf : f₀.Recorded log f) (hg : g₀.Recorded more g) {i j : Nat} {d e : Decl}
    (hd : log[i]? = some d) (he : more[j]? = some e) :
    d.frame.id = e.frame.id ↔ f₀.id = g₀.id ∧ d.frame.kind = e.frame.kind ∧ i = j := by
  rw [hf.number i d hd, hg.number j e he, entityId_inj, Nat.add_right_cancel_iff]

/-! ## Looking up -/

theorem nodup_entityIds {ns : List Nat} (h : ns.Pairwise (· < ·)) (fileId : EntityId)
    (kind : EntityKind) : (ns.map (entityId fileId kind)).Nodup := by
  refine List.pairwise_map.mpr (h.imp fun hlt heq => ?_)
  have := (entityId_inj.mp heq).2.2
  omega

/-- Among things with different ids, each is the first that has its id. -/
theorem find?_of_nodup_map {α : Type} {key : α → EntityId} {l : List α} (h : (l.map key).Nodup)
    {a : α} (ha : a ∈ l) : l.find? (key · == key a) = some a := by
  induction l with
  | nil => cases ha
  | cons b l ih =>
    rw [List.map_cons, List.nodup_cons] at h
    rcases List.mem_cons.mp ha with rfl | ha
    · simp
    · have hne : key b ≠ key a := fun heq => h.1 (heq ▸ List.mem_map_of_mem ha)
      rw [List.find?_cons_of_neg (by simpa using hne), ih h.2 ha]

namespace SourceFile.Recorded

variable {id : EntityId} {path : String} {language : Language} {log : List Decl} {f : SourceFile}
  (h : (empty id path language).Recorded log f)
include h

theorem function?_eq {d : FunctionDecl} (hd : d ∈ f.functions) : f.function? d.id = some d := by
  obtain ⟨ns, -, hids, -, hns, -⟩ := h.numbers
  have hnodup : (f.functions.toList.map (·.id)).Nodup := hids ▸ nodup_entityIds hns id .function
  rw [function?, ← Array.find?_toList]
  exact find?_of_nodup_map hnodup (Array.mem_toList_iff.mpr hd)

theorem class?_eq {d : ClassDecl} (hd : d ∈ f.classes) : f.class? d.id = some d := by
  obtain ⟨-, ms, -, hids, -, hms, -⟩ := h.numbers
  have hnodup : (f.classes.toList.map (·.id)).Nodup := hids ▸ nodup_entityIds hms id .classLike
  rw [class?, ← Array.find?_toList]
  exact find?_of_nodup_map hnodup (Array.mem_toList_iff.mpr hd)

end SourceFile.Recorded

/-! ## Runs -/

namespace Usage

/-- What holds of the ids in a state that was reached from a fresh extraction. -/
structure Gapless (file : SourceFile) (log : List Decl) (x : Extraction) : Prop where
  recorded : file.Recorded log x.file
  count : x.file.entityCount = file.entityCount + log.length
  next : x.ids.next = log.length + 1

theorem gapless_of_logs {file : SourceFile} {dump : NodeDump} {log : List Decl} {x : Extraction}
    (h : (Extraction.start file dump).findings.Logs log x.findings) : Gapless file log x where
  recorded := h.recorded
  count := by
    rw [show x.file = x.findings.file from rfl, h.file, SourceFile.entityCount_addAll]
    rfl
  next := by
    rw [show x.ids = x.findings.ids from rfl, h.ids, Nat.add_comm]
    rfl

end Usage

/-- **Ids are gapless within a run and never collide across runs.** Whatever frames a run enters,
what it has recorded is a log in which the `i`-th declaration has the number `i`. In whatever state
the run goes on, and within every walk, the log only grows at its end, so numbers follow the order
of recording. The counter is one ahead of the log: what is malformed takes no number. The numbers of
the functions go up, so do those of the classes, and together they are all numbers up to the count.
No id is the file's. The ids of two declarations of any two runs are equal only if file id, kind and
number are. -/
theorem ids_gapless (file : SourceFile) (dump : NodeDump) (S : Usage)
    (h : Usage.ReachesFreely ⟨Extraction.start file dump, []⟩ S) :
    ∃ log : List Decl, Usage.Gapless file log S.extraction ∧
      (log.length < wordBound - 1 → S.extraction.ids.next < wordBound) ∧
      (∃ ns ms : List Nat,
        S.extraction.file.functions.toList.map (·.id) =
          file.functions.toList.map (·.id) ++ ns.map (entityId file.id .function) ∧
        S.extraction.file.classes.toList.map (·.id) =
          file.classes.toList.map (·.id) ++ ms.map (entityId file.id .classLike) ∧
        ns.Pairwise (· < ·) ∧ ms.Pairwise (· < ·) ∧
        (ns ++ ms).Perm (List.range' 1 log.length)) ∧
      (∀ d ∈ log, d.frame.id ≠ S.extraction.file.id) ∧
      (∀ T, Usage.ReachesFreely S T → ∃ more, Usage.Gapless file (log ++ more) T.extraction) ∧
      (∀ a source s w, Walk.Reaches a source (Walk.start S.extraction s) w →
        ∃ more, Usage.Gapless file (log ++ more) w.extraction ∧
          ∀ v, Walk.next? a source w = some v →
            ∃ new, Usage.Gapless file (log ++ more ++ new) v.extraction ∧ new.length ≤ 1) ∧
      ∀ (file' : SourceFile) (dump' : NodeDump) (S' : Usage),
        Usage.ReachesFreely ⟨Extraction.start file' dump', []⟩ S' →
        ∃ log' : List Decl, Usage.Gapless file' log' S'.extraction ∧
          ∀ (i j : Nat) (d e : Decl), log[i]? = some d → log'[j]? = some e →
            (d.frame.id = e.frame.id ↔
              file.id = file'.id ∧ d.frame.kind = e.frame.kind ∧ i = j) := by
  obtain ⟨log, hlog⟩ := Usage.logs_reaches h
  have hS := Usage.gapless_of_logs hlog
  refine ⟨log, hS, fun hbound => ?_, hS.recorded.numbers, fun d hd => ?_, fun T hT => ?_,
    fun a source s w hw => ?_, fun file' dump' S' h' => ?_⟩
  · rw [hS.next]
    omega
  · obtain ⟨i, hi⟩ := List.mem_iff_getElem?.mp hd
    rw [hS.recorded.number i d hi, hS.recorded.file, SourceFile.addAll_eq]
    exact entityId_ne_fileId file.id d.frame.kind (i + 1)
  · obtain ⟨more, hmore⟩ := Usage.logs_reaches hT
    exact ⟨more, Usage.gapless_of_logs (hlog.trans hmore)⟩
  · obtain ⟨more, hmore⟩ := Walk.logs_reaches hw
    refine ⟨more, Usage.gapless_of_logs (hlog.trans hmore), fun v hv => ?_⟩
    obtain ⟨new, hnew, hlen⟩ := Walk.logs_next? hv
    exact ⟨new, Usage.gapless_of_logs ((hlog.trans hmore).trans hnew), hlen⟩
  · obtain ⟨log', hlog'⟩ := Usage.logs_reaches h'
    have hS' := Usage.gapless_of_logs hlog'
    exact ⟨log', hS', fun i j d e hd he => hS.recorded.id_eq_iff hS'.recorded hd he⟩

/-- A function and a function without a name are recorded in a file whose own id looks like that of
a declaration, and then, in a scope that was never recorded, a class. -/
def Usage.withSkip : Usage :=
  let named : FunctionShape := ⟨.declared, some "run", true, true, (1, 2), none, false⟩
  let nameless : FunctionShape := ⟨.declared, none, true, true, (3, 4), none, false⟩
  let begun := Extraction.start (.empty "f/class:2" "f.py" .python) .disabled
  let stray : Frame := ⟨"g", .function⟩
  ⟨((ScopeOwner.enter ((begun.recordFunction named).2.recordFunction nameless).2 stray).recordClass
    ⟨some "Box", true, (5, 6)⟩).2, [stray]⟩

theorem ids_gapless_withSkip :
    Usage.ReachesFreely ⟨.start (.empty "f/class:2" "f.py" .python) .disabled, []⟩
      Usage.withSkip ∧
    (∃ log, Usage.Gapless (.empty "f/class:2" "f.py" .python) log Usage.withSkip.extraction ∧
      log.length = 2 ∧ ∀ d ∈ log, d.frame.id ≠ "f/class:2") ∧
    Usage.withSkip.extraction.malformed.size = 1 ∧
    Usage.withSkip.extraction.file.functions.toList.map (·.id) = ["f/class:2/function:1"] ∧
    Usage.withSkip.extraction.file.classes.toList.map (·.id) = ["f/class:2/class:2"] := by
  have h : Usage.ReachesFreely ⟨.start (.empty "f/class:2" "f.py" .python) .disabled, []⟩
      Usage.withSkip :=
    (((Relation.ReflTransGen.single (.function _ _ _)).tail (.function _ _ _)).tail
      (.enter _ _ _ trivial)).tail (.classLike _ _ _)
  obtain ⟨log, hlog, -, -, hne, -⟩ := ids_gapless _ _ _ h
  have hcount : log.length = 2 := by
    have h1 := hlog.count
    have h2 : Usage.withSkip.extraction.file.entityCount = 2 := by decide +kernel
    have h3 : (SourceFile.empty "f/class:2" "f.py" .python).entityCount = 0 := by decide +kernel
    omega
  exact ⟨h, ⟨log, hlog, hcount, hne⟩, by decide +kernel, by decide +kernel, by decide +kernel⟩

end Outline
