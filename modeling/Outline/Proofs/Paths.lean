import Mathlib.Data.List.TakeWhile
import Outline.Path

/-!
# The extension of a path

The last name of a path and its extension, said of the text as it stands: the name is what stands
between two slashes, or between a slash and an end of the path, and after it there is nothing but
slashes, each perhaps followed by a single dot (`Path.LastName`). The extension is what follows the
last dot of that name, unless the dot is its first character or the name is `..`
(`Path.HasExtension`).

* `segments_append`: a path falls into parts at every slash, wherever one starts.
* `lastPart?_eq_some_iff`: the last of the parts that add something is the last name.
* `extension?_eq_some_iff`: the extension that is computed is the one that the text has.
-/
namespace Outline.Path

/-! ## What a path has -/

/-- What may follow the last name of a path. -/
inductive Trailing : List Char → Prop where
  | nil : Trailing []
  | slash {rest : List Char} : Trailing rest → Trailing ('/' :: rest)
  | slashDot {rest : List Char} : Trailing rest → Trailing ('/' :: '.' :: rest)

/-- The last name of a path, which may be `..` but not a single dot. -/
def LastName (path name : List Char) : Prop :=
  ∃ before after, path = before ++ name ++ after ∧ (before = [] ∨ before.getLast? = some '/') ∧
    Trailing after ∧ '/' ∉ name ∧ name ≠ [] ∧ name ≠ ['.']

/-- A dot divides the last name of a path into a stem that is not empty and the extension, which has
no dot. -/
def HasExtension (path ext : String) : Prop :=
  ∃ stem : List Char, LastName path.toList (stem ++ '.' :: ext.toList) ∧ stem ≠ [] ∧
    '.' ∉ ext.toList ∧ stem ++ '.' :: ext.toList ≠ ['.', '.']

/-! ## Parts -/

theorem segments_ne_nil (cs : List Char) : segments cs ≠ [] := by
  cases cs with
  | nil => simp [segments]
  | cons c cs =>
    rw [segments]
    split
    · simp
    · split <;> simp

theorem segments_cons {c : Char} (hc : c ≠ '/') {cs s : List Char} {ss : List (List Char)}
    (h : segments cs = s :: ss) : segments (c :: cs) = (c :: s) :: ss := by
  simp [segments, hc, h]

theorem segments_of_notMem {cs : List Char} (h : '/' ∉ cs) : segments cs = [cs] := by
  induction cs with
  | nil => rfl
  | cons c cs ih =>
    rw [List.mem_cons, not_or] at h
    exact segments_cons (Ne.symm h.1) (ih h.2)

theorem segments_append (cs ds : List Char) :
    segments (cs ++ '/' :: ds) = segments cs ++ segments ds := by
  induction cs with
  | nil => simp [segments]
  | cons c cs ih =>
    by_cases hc : c = '/'
    · simp [segments, hc, ih]
    · obtain ⟨s, ss, hs⟩ := List.exists_cons_of_ne_nil (segments_ne_nil cs)
      have hwhole : segments (cs ++ '/' :: ds) = s :: (ss ++ segments ds) := by
        rw [ih, hs, List.cons_append]
      rw [List.cons_append, segments_cons hc hs, segments_cons hc hwhole, List.cons_append]

/-- What holds of texts without a slash, and of a part before a slash whenever it holds of what
follows the slash, holds of every text. -/
theorem slash_induction {P : List Char → Prop} (last : ∀ part, '/' ∉ part → P part)
    (step : ∀ part rest, '/' ∉ part → P rest → P (part ++ '/' :: rest)) (cs : List Char) :
    P cs := by
  induction hn : cs.length using Nat.strongRecOn generalizing cs with
  | ind n ih =>
    by_cases h : '/' ∈ cs
    · obtain ⟨part, rest, rfl, hpart⟩ := List.eq_append_cons_of_mem h
      refine step part rest hpart (ih rest.length ?_ rest rfl)
      simp only [List.length_append, List.length_cons] at hn
      omega
    · exact last cs h

/-! ## The last name -/

/-- The last of the parts that add something. -/
def lastPart? (cs : List Char) : Option (List Char) :=
  ((segments cs).filter (!isVoid ·)).getLast?

theorem lastPart?_append (cs ds : List Char) :
    lastPart? (cs ++ '/' :: ds) = (lastPart? ds).or (lastPart? cs) := by
  rw [lastPart?, segments_append, List.filter_append, List.getLast?_append]
  rfl

theorem lastPart?_of_notMem {cs : List Char} (h : '/' ∉ cs) :
    lastPart? cs = if isVoid cs then none else some cs := by
  rw [lastPart?, segments_of_notMem h]
  cases hv : isVoid cs <;> simp [hv]

theorem isVoid_iff {cs : List Char} : isVoid cs = true ↔ cs = [] ∨ cs = ['.'] := by
  simp [isVoid]

/-- What follows a name does not count. -/
theorem lastPart?_append_trailing {after : List Char} (h : Trailing after) (cs : List Char) :
    lastPart? (cs ++ after) = lastPart? cs := by
  induction h generalizing cs with
  | nil => rw [List.append_nil]
  | slash _ ih =>
    have hrest := ih []
    rw [List.nil_append] at hrest
    rw [lastPart?_append, hrest]
    rfl
  | slashDot _ ih =>
    have hrest := ih ['.']
    rw [List.singleton_append] at hrest
    rw [lastPart?_append, hrest]
    rfl

theorem LastName.lastPart? {cs name : List Char} (h : LastName cs name) :
    Path.lastPart? cs = some name := by
  obtain ⟨before, after, rfl, hbefore, hafter, hslash, hempty, hdot⟩ := h
  have hname : Path.lastPart? name = some name := by
    have hvoid : ¬ isVoid name = true := by simp [isVoid_iff, hempty, hdot]
    rw [lastPart?_of_notMem hslash, if_neg hvoid]
  rw [lastPart?_append_trailing hafter]
  rcases hbefore with rfl | hlast
  · exact hname
  · obtain ⟨dir, rfl⟩ := List.getLast?_eq_some_iff.mp hlast
    rw [List.append_assoc, List.singleton_append, lastPart?_append, hname]
    rfl

theorem trailing_of_lastPart? {cs : List Char} (h : lastPart? cs = none) :
    Trailing ('/' :: cs) := by
  have hpart : ∀ part rest, '/' ∉ part → lastPart? part = none → Trailing rest →
      Trailing ('/' :: (part ++ rest)) := by
    intro part rest hslash hnone hrest
    rw [lastPart?_of_notMem hslash] at hnone
    have hvoid : isVoid part = true := by
      by_contra hvoid
      rw [if_neg hvoid] at hnone
      cases hnone
    rcases isVoid_iff.mp hvoid with rfl | rfl
    · exact .slash hrest
    · exact .slashDot hrest
  induction cs using slash_induction with
  | last part hslash => simpa using hpart part [] hslash h .nil
  | step part rest hslash ih =>
    rw [lastPart?_append, Option.or_eq_none_iff] at h
    exact hpart part _ hslash h.2 (ih h.1)

theorem lastName_of_lastPart? {cs name : List Char} (h : lastPart? cs = some name) :
    LastName cs name := by
  have hpart : ∀ part after, '/' ∉ part → lastPart? part = some name → Trailing after →
      LastName (part ++ after) name := by
    intro part after hslash hname hafter
    rw [lastPart?_of_notMem hslash] at hname
    split at hname
    · cases hname
    · rename_i hvoid
      cases hname
      rw [isVoid_iff, not_or] at hvoid
      exact ⟨[], after, rfl, Or.inl rfl, hafter, hslash, hvoid⟩
  induction cs using slash_induction with
  | last part hslash => simpa using hpart part [] hslash h .nil
  | step part rest hslash ih =>
    rw [lastPart?_append] at h
    rcases Option.or_eq_some_iff.mp h with h | ⟨hnone, h⟩
    · -- the name is further on, and what comes before it ends with a slash
      obtain ⟨before, after, rfl, hbefore, hname⟩ := ih h
      refine ⟨part ++ '/' :: before, after, by simp, Or.inr ?_, hname⟩
      rcases hbefore with rfl | hlast
      · simp
      · simp [List.getLast?_cons, hlast]
    · exact hpart part _ hslash h (trailing_of_lastPart? hnone)

theorem lastPart?_eq_some_iff {cs name : List Char} : lastPart? cs = some name ↔ LastName cs name :=
  ⟨lastName_of_lastPart?, LastName.lastPart?⟩

theorem fileName?_eq_some_iff {path name : String} :
    fileName? path = some name ↔ LastName path.toList name.toList ∧ name ≠ ".." := by
  have hnames : (names path).getLast? = (lastPart? path.toList).map String.ofList := by
    rw [names, List.getLast?_map]
    rfl
  rw [← lastPart?_eq_some_iff, fileName?, hnames]
  cases h : lastPart? path.toList with
  | none => simp
  | some last =>
    have hlast : last = name.toList ↔ String.ofList last = name := by
      rw [← String.toList_inj, String.toList_ofList]
    rw [Option.map_some, Option.some.injEq, hlast]
    split
    · rename_i heq
      rw [Option.some.injEq] at heq
      simp [heq, eq_comm]
    · rename_i hne
      rw [Option.some.injEq]
      constructor
      · rintro rfl
        exact ⟨rfl, fun heq => hne (congrArg some heq)⟩
      · exact And.left

/-! ## The extension -/

section

variable {path name : String} (h : fileName? path = some name)
include h

theorem extension?_of_dot {stem ext : List Char} (hname : name.toList = stem ++ '.' :: ext)
    (hdot : '.' ∉ ext) :
    extension? path = if stem = [] then none else some (String.ofList ext) := by
  have hafter : (ext.reverse ++ '.' :: stem.reverse).takeWhile (· != '.') = ext.reverse := by
    rw [List.takeWhile_append_of_pos]
    · simp
    · intro c hc
      have : c ≠ '.' := fun heq => hdot (List.mem_reverse.mp (heq ▸ hc))
      simpa using this
  have hbefore : (ext.reverse ++ '.' :: stem.reverse).drop (ext.length + 1) = stem.reverse := by
    simp [List.drop_append]
  have hreverse : name.toList.reverse = ext.reverse ++ '.' :: stem.reverse := by simp [hname]
  simp only [extension?, h, Option.bind_some, hreverse, hafter, List.length_reverse, hbefore]
  cases stem <;> simp

theorem extension?_of_notMem (hdot : '.' ∉ name.toList) : extension? path = none := by
  have hall : name.toList.reverse.takeWhile (· != '.') = name.toList.reverse := by
    rw [List.takeWhile_eq_self_iff]
    intro c hc
    have : c ≠ '.' := fun heq => hdot (List.mem_reverse.mp (heq ▸ hc))
    simpa using this
  simp [extension?, h, hall]

end

/-- The extension of a path is the one that its text has. -/
theorem extension?_eq_some_iff {path ext : String} :
    extension? path = some ext ↔ HasExtension path ext := by
  constructor
  · intro hext
    cases hname : fileName? path with
    | none => simp [extension?, hname] at hext
    | some name =>
      by_cases hdot : '.' ∈ name.toList
      · -- the last dot of the name is the first one from its end
        obtain ⟨after, before, hsplit, hafter⟩ :=
          List.eq_append_cons_of_mem (List.mem_reverse.mpr hdot)
        have hchars : name.toList = before.reverse ++ '.' :: after.reverse := by
          simpa using congrArg List.reverse hsplit
        have hnone : '.' ∉ after.reverse := by simpa using hafter
        rw [extension?_of_dot hname hchars hnone] at hext
        split at hext
        · cases hext
        · rename_i hstem
          cases hext
          obtain ⟨hlast, hdots⟩ := fileName?_eq_some_iff.mp hname
          rw [hchars] at hlast
          refine ⟨before.reverse, ?_⟩
          simp only [String.toList_ofList]
          refine ⟨hlast, hstem, hnone, fun heq => hdots ?_⟩
          rw [← String.toList_inj, hchars, heq]
          rfl
      · rw [extension?_of_notMem hname hdot] at hext
        cases hext
  · rintro ⟨stem, hlast, hstem, hdot, hdots⟩
    have hname : fileName? path = some (String.ofList (stem ++ '.' :: ext.toList)) := by
      refine fileName?_eq_some_iff.mpr ⟨by simpa using hlast, fun heq => hdots ?_⟩
      simpa using congrArg String.toList heq
    rw [extension?_of_dot hname (String.toList_ofList ..) hdot, if_neg hstem, String.ofList_toList]

example : extension? "src.d/a.tar.Py/./" = some "Py" := by decide

example : ["src/.py", "a.py/..", "a.d/b"].map extension? = [none, none, none] := by decide

end Outline.Path
