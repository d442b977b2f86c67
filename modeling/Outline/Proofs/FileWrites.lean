import Mathlib.Data.List.Basic
import Outline.FileSystem

/-!
# Writing files

A file that is written changes its place and no other, and its path leads there afterwards, from
wherever the path starts. That the path has a target says only that its directory could be reached
before; a write takes no directory away, nor anything else (`Keeps`), so the way to that directory
is still the same.

* `glance?_insert`: a place that is not the target holds what it held.
* `resolve_writeText`: the path of a file that was written leads to its place.
* `readText_writeText`: what was written is read back.
-/
namespace Outline

namespace FileTree

/-! ## What is at a place -/

/-- The content of a file; a directory has none of its own. -/
def content? : FileTree → Option ByteArray
  | .file bytes => some bytes
  | .directory _ => none

/-- What is at a place by itself, without what is below it: nothing, a directory, or the content of
a file. -/
def glance? (t : FileTree) (place : Place) : Option (Option ByteArray) :=
  (t.at? place).map content?

theorem at?_append (t : FileTree) (p q : Place) : t.at? (p ++ q) = (t.at? p).bind (·.at? q) := by
  induction p generalizing t with
  | nil => rfl
  | cons name p ih =>
    rw [List.cons_append, at?, at?]
    cases t.child? name with
    | none => rfl
    | some u => exact ih u

theorem glance?_cons (t : FileTree) (name : String) (p : Place) :
    t.glance? (name :: p) = (t.child? name).bind (·.glance? p) := by
  rw [glance?, at?, Option.map_bind]
  rfl

theorem glance?_eq_directory_iff {t : FileTree} {p : Place} :
    t.glance? p = some none ↔ ∃ es, t.at? p = some (.directory es) := by
  rw [glance?]
  cases t.at? p with
  | none => simp
  | some u => cases u <;> simp [content?]

/-- Only a directory has anything in it. -/
theorem glance?_nil_of_child? {t u : FileTree} {name : String} (h : t.child? name = some u) :
    t.glance? [] = some none := by
  cases t with
  | file => cases h
  | directory => rfl

theorem child?_put (t entry : FileTree) (name other : String) :
    (directory (put name entry t.entries)).child? other =
      if other = name then some entry else t.child? other :=
  lookup_put name other entry t.entries

/-- What is under a name in a directory. -/
theorem glance?_name {t : FileTree} {dir : Place} {es : List (String × FileTree)}
    (h : t.at? dir = some (.directory es)) (name : String) :
    t.glance? (dir ++ [name]) = (es.lookup name).map content? := by
  rw [glance?, at?_append, h, Option.bind_some, at?, child?, entries]
  cases es.lookup name <;> rfl

/-! ## One file put into a directory -/

/-- A directory that holds no directory under a name. -/
def Admits (t : FileTree) (dir : Place) (name : String) : Prop :=
  t.glance? dir = some none ∧ t.glance? (dir ++ [name]) ≠ some none

theorem admits_of_lookup {t : FileTree} {dir : Place} {name : String}
    {es : List (String × FileTree)} (hes : t.at? dir = some (.directory es))
    (hname : ((es.lookup name).map isDirectory).getD false = false) : t.Admits dir name := by
  refine ⟨glance?_eq_directory_iff.mpr ⟨es, hes⟩, ?_⟩
  rw [glance?_name hes]
  cases hentry : es.lookup name with
  | none => simp
  | some u =>
    rw [hentry] at hname
    cases u with
    | file => simp [content?]
    | directory => cases hname

theorem glance?_insert {t : FileTree} {dir : Place} {name : String} (h : t.Admits dir name)
    (bytes : ByteArray) {other : Place} (hother : other ≠ dir ++ [name]) :
    (insert (.file bytes) (dir ++ [name]) t).glance? other = t.glance? other := by
  induction dir generalizing t other with
  | nil =>
    cases other with
    | nil => exact h.1.symm
    | cons o os =>
      rw [List.nil_append, insert, glance?_cons, glance?_cons, child?_put]
      split
      · -- below a file there is nothing, neither in the old one nor in the new one
        rename_i heq
        subst heq
        obtain ⟨a, as, rfl⟩ := List.exists_cons_of_ne_nil (l := os) (by simpa using hother)
        have hfile := h.2
        rw [List.nil_append, glance?_cons] at hfile
        cases hold : t.child? o with
        | none => rfl
        | some u =>
          cases u with
          | file => rfl
          | directory => exact absurd (by rw [hold]; rfl) hfile
      · rfl
  | cons d dir ih =>
    obtain ⟨hdir, hname⟩ := h
    rw [List.cons_append, glance?_cons] at hname
    rw [glance?_cons] at hdir
    obtain ⟨u, hu, hbelow⟩ := Option.bind_eq_some_iff.mp hdir
    rw [hu, Option.bind_some] at hname
    cases other with
    | nil => exact (glance?_nil_of_child? hu).symm
    | cons o os =>
      rw [List.cons_append, insert, glance?_cons, glance?_cons, child?_put]
      split
      · rename_i heq
        subst heq
        rw [hu, Option.getD_some, Option.bind_some, Option.bind_some]
        exact ih ⟨hbelow, hname⟩ (by simpa using hother)
      · rfl

theorem glance?_insert_self (t : FileTree) (place : Place) (bytes : ByteArray) :
    (insert (.file bytes) place t).glance? place = some (some bytes) := by
  rw [glance?, at?_insert_self]
  rfl

/-! ## The way of a path -/

/-- No directory has gone, and nothing else has. -/
structure Keeps (t u : FileTree) : Prop where
  directory : ∀ p, t.glance? p = some none → u.glance? p = some none
  isSome : ∀ p, (t.glance? p).isSome = true → (u.glance? p).isSome = true

theorem keeps_insert {t : FileTree} {dir : Place} {name : String} (h : t.Admits dir name)
    (bytes : ByteArray) : t.Keeps (insert (.file bytes) (dir ++ [name]) t) where
  directory p hp := by
    have hne : p ≠ dir ++ [name] := fun heq => h.2 (heq ▸ hp)
    rw [glance?_insert h bytes hne, hp]
  isSome p hp := by
    by_cases hne : p = dir ++ [name]
    · rw [hne, glance?_insert_self]
      rfl
    · rwa [glance?_insert h bytes hne]

theorem Keeps.step {t u : FileTree} (h : t.Keeps u) {p q : Place} {segment : List Char}
    (hstep : t.step p segment = .ok q) : u.step p segment = .ok q := by
  unfold FileTree.step at hstep
  split at hstep
  · rename_i es hes
    obtain ⟨es', hes'⟩ := glance?_eq_directory_iff.mp
      (h.directory p (glance?_eq_directory_iff.mpr ⟨es, hes⟩))
    rw [FileTree.step, hes']
    by_cases hvoid : Path.isVoid segment = true
    · simpa [hvoid] using hstep
    by_cases hup : segment = ['.', '.']
    · simpa [hvoid, hup] using hstep
    · -- a name that was in the directory is still there
      have hname := h.isSome (p ++ [String.ofList segment])
      rw [glance?_name hes, glance?_name hes', Option.isSome_map, Option.isSome_map] at hname
      rw [if_neg hvoid, if_neg hup] at hstep
      dsimp only at hstep ⊢
      split at hstep
      · rename_i hthere
        rw [if_neg hvoid, if_neg hup, if_pos (hname hthere)]
        exact hstep
      · cases hstep
  · cases hstep
  · cases hstep

theorem Keeps.foldlM_step {t u : FileTree} (h : t.Keeps u) {segments : List (List Char)}
    {p q : Place} (hsteps : segments.foldlM t.step p = .ok q) :
    segments.foldlM u.step p = .ok q := by
  induction segments generalizing p with
  | nil => exact hsteps
  | cons segment segments ih =>
    rw [List.foldlM_cons] at hsteps ⊢
    cases hstep : t.step p segment with
    | error e =>
      rw [hstep] at hsteps
      cases hsteps
    | ok r =>
      rw [hstep] at hsteps
      rw [h.step hstep]
      exact ih hsteps

theorem dropWhile_isEmpty {parts : List (List Char)} (h : parts.head? ≠ some []) :
    parts.dropWhile List.isEmpty = parts := by
  cases parts with
  | nil => rfl
  | cons part parts => exact List.dropWhile_cons_of_neg (by simpa using h)

end FileTree

namespace FileSystem

open FileTree

/-- A target is a name in a directory that the rest of the path leads to. -/
theorem exists_of_target {fs : FileSystem} {path : String} {place : Place}
    (h : fs.target path = .ok place) :
    path.isEmpty = false ∧ ∃ before last dir, Path.segments path.toList = before ++ [last] ∧
      Path.isVoid last = false ∧ last ≠ ['.', '.'] ∧
      before.foldlM fs.root.step (fs.origin path) = .ok dir ∧
      place = dir ++ [String.ofList last] ∧ fs.root.Admits dir (String.ofList last) := by
  unfold target at h
  split at h
  · cases h
  rename_i hempty
  refine ⟨by simpa using hempty, ?_⟩
  dsimp only at h
  split at h
  · cases h
  rename_i last before hreversed
  cases hdir : before.reverse.foldlM fs.root.step (fs.origin path) with
  | error e =>
    rw [hdir] at h
    cases h
  | ok dir =>
    rw [hdir] at h
    dsimp only [bind, Except.bind] at h
    split at h
    · rename_i es hes
      split at h
      · cases h
      · rename_i hname
        cases h
        simp only [Bool.or_eq_true, not_or, Bool.not_eq_true, beq_eq_false_iff_ne, ne_eq] at hname
        obtain ⟨⟨⟨hslash, hdot⟩, hup⟩, hkind⟩ := hname
        rw [dropWhile_isEmpty hslash] at hreversed
        have hlast : last ≠ [] := by
          rintro rfl
          exact hslash (by rw [hreversed]; rfl)
        refine ⟨before.reverse, last, dir, ?_, ?_, hup, hdir, rfl, admits_of_lookup hes hkind⟩
        · rw [← List.reverse_inj, hreversed]
          simp
        · simp [Path.isVoid, hlast, hdot]
    · cases h
    · cases h

theorem resolve_insert {fs : FileSystem} {path : String} {place : Place}
    (h : fs.target path = .ok place) (bytes : ByteArray) :
    resolve { fs with root := insert (.file bytes) place fs.root } path = .ok place := by
  obtain ⟨hempty, before, last, dir, hsegments, hvoid, hup, hbefore, rfl, hadmits⟩ :=
    exists_of_target h
  have hkeeps := keeps_insert hadmits bytes
  obtain ⟨es, hes⟩ := glance?_eq_directory_iff.mp (hkeeps.directory dir hadmits.1)
  have hname : (es.lookup (String.ofList last)).isSome = true := by
    have hself := glance?_insert_self fs.root (dir ++ [String.ofList last]) bytes
    rw [glance?_name hes] at hself
    rw [← Option.isSome_map, hself, Option.isSome_some]
  have hlast : (insert (.file bytes) (dir ++ [String.ofList last]) fs.root).step dir last =
      .ok (dir ++ [String.ofList last]) := by
    rw [step, hes]
    simp [hvoid, hup, hname]
  -- the path starts where it did
  have horigin (root : FileTree) : origin { fs with root } path = fs.origin path := rfl
  rw [resolve, if_neg (by simp [hempty]), hsegments, List.foldlM_append, horigin,
    hkeeps.foldlM_step hbefore]
  dsimp only [bind, Except.bind]
  rw [List.foldlM_cons, hlast]
  rfl

theorem find_insert {fs : FileSystem} {path : String} {place : Place}
    (h : fs.target path = .ok place) (bytes : ByteArray) :
    find { fs with root := insert (.file bytes) place fs.root } path = .ok (.file bytes) := by
  rw [find, resolve_insert h]
  simp only [bind, Except.bind, at?_insert_self]

/-! ## Texts -/

theorem fromUTF8?_toUTF8 (s : String) : String.fromUTF8? s.toUTF8 = some s := by
  rw [String.fromUTF8?, String.toUTF8_eq_toByteArray, dif_pos s.isValidUTF8]
  rfl

section Written

variable {fs fs' : FileSystem} {path text : String}

theorem writeText_eq_ok (h : fs.writeText path text = .ok fs') :
    ∃ place, fs.target path = .ok place ∧
      fs' = { fs with root := insert (.file text.toUTF8) place fs.root } := by
  rw [writeText] at h
  cases hplace : fs.target path with
  | error e =>
    rw [hplace] at h
    cases h
  | ok place =>
    rw [hplace] at h
    cases h
    exact ⟨place, rfl, rfl⟩

/-- A path leads to the one place that a write under it changes. -/
theorem resolve_writeText (h : fs.writeText path text = .ok fs') :
    fs'.here = fs.here ∧ ∃ place, fs'.resolve path = .ok place ∧
      ∀ other, other ≠ place → fs'.root.glance? other = fs.root.glance? other := by
  obtain ⟨place, hplace, rfl⟩ := writeText_eq_ok h
  refine ⟨rfl, place, resolve_insert hplace _, fun other hother => ?_⟩
  obtain ⟨-, _, _, _, -, -, -, -, rfl, hadmits⟩ := exists_of_target hplace
  exact glance?_insert hadmits _ hother

theorem find_writeText (h : fs.writeText path text = .ok fs') :
    fs'.find path = .ok (.file text.toUTF8) := by
  obtain ⟨place, hplace, rfl⟩ := writeText_eq_ok h
  exact find_insert hplace _

theorem has_writeText (h : fs.writeText path text = .ok fs') : fs'.has path = true := by
  rw [has, find_writeText h]
  rfl

theorem readText_writeText (h : fs.writeText path text = .ok fs') :
    fs'.readText path = .ok text := by
  rw [readText, find_writeText h]
  simp only [bind, Except.bind, fromUTF8?_toUTF8]

end Written

end FileSystem
end Outline
