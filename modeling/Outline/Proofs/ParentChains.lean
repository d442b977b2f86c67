import Mathlib.Data.Finset.Card
import Outline.Proofs.Nesting

/-!
# Parents that run in a circle

A file that was read from a text may say anything of its declarations: ids may be given twice, a
parent may name nothing, and parents may run in a circle. The loop that counts the declarations
around one follows the parents all the same. For every file it either stops soon, or goes round in a
circle for ever.

* `iterate?`: a partial function applied again and again, and what a circle does to it.
* `SourceFile.chain?`: the declarations around one, as far as they go.
* `circles_of_ancestor?`: a chain with more links than the file has declarations is a circle.
* `Report.Ascent.after?_cases`: what the loop faces after so many rounds.
* `nesting_stops_or_circles`: the loop stops within one round more than there are declarations, with
  the length of the chain, unless the chain comes back to a frame.
-/
namespace Outline

/-! ## Partial functions, again and again -/

section

variable {α : Type} {f : α → Option α} {a b : α}

/-- A partial function applied `n` times. -/
def iterate? (f : α → Option α) : Nat → α → Option α
  | 0, a => some a
  | n + 1, a => (f a).bind (iterate? f n)

theorem iterate?_add (m n : Nat) (a : α) :
    iterate? f (m + n) a = (iterate? f m a).bind (iterate? f n) := by
  induction m generalizing a with
  | zero => rw [Nat.zero_add]; rfl
  | succ m ih =>
    rw [show m + 1 + n = (m + n) + 1 by omega, iterate?, iterate?]
    cases f a with
    | none => rfl
    | some b => exact ih b

theorem iterate?_succ (n : Nat) (a : α) : iterate? f (n + 1) a = (iterate? f n a).bind f := by
  rw [iterate?_add]
  congr 1
  funext b
  exact Option.bind_fun_some (f b)

theorem isSome_iterate?_of_le {m n : Nat} (hmn : m ≤ n) (h : (iterate? f n a).isSome) :
    (iterate? f m a).isSome := by
  rw [← Nat.add_sub_cancel' hmn, iterate?_add] at h
  cases hm : iterate? f m a with
  | none => rw [hm] at h; cases h
  | some b => rfl

/-- What comes back to where it was can go on for ever. -/
theorem isSome_iterate?_of_circle {i j : Nat} (hij : i < j) (hi : iterate? f i a = some b)
    (hj : iterate? f j a = some b) (n : Nat) : (iterate? f n a).isSome := by
  obtain ⟨k, rfl⟩ : ∃ k, j = i + (k + 1) := ⟨j - i - 1, by omega⟩
  rw [iterate?_add, hi, Option.bind_some] at hj
  have hround : ∀ m, iterate? f (m * (k + 1)) b = some b := by
    intro m
    induction m with
    | zero => rw [Nat.zero_mul]; rfl
    | succ m ih => rw [Nat.succ_mul, iterate?_add, ih, Option.bind_some, hj]
  have hlong : n ≤ i + n * (k + 1) := by
    rw [Nat.mul_succ]
    omega
  refine isSome_iterate?_of_le hlong ?_
  rw [iterate?_add, hi, Option.bind_some, hround]
  rfl

end

/-! ## Chains of parents -/

namespace SourceFile

variable {file : SourceFile} {parent f : Frame} {n : Nat}

/-- The frame that is `n` parents away from a frame. -/
abbrev ancestor? (file : SourceFile) (n : Nat) (frame : Frame) : Option Frame :=
  iterate? file.parentOf? n frame

theorem ancestor?_succ (file : SourceFile) (n : Nat) (frame : Frame) :
    file.ancestor? (n + 1) frame = (file.ancestor? n frame).bind file.parentOf? :=
  iterate?_succ n frame

/-- The chain that starts with a parent, link by link: from each link the parent of what it names
comes next, and the chain goes on until that is a file's frame, or a link names nothing. -/
def chain? (file : SourceFile) (parent : Frame) (n : Nat) : Option Frame :=
  (file.ancestor? n parent).filter fun frame => frame.kind ≠ .file

/-- The chain that starts with a parent has `n` links. -/
structure ChainLength (file : SourceFile) (parent : Frame) (n : Nat) : Prop where
  links : ∀ k < n, (file.chain? parent k).isSome
  ends : file.chain? parent n = none

/-- The chain that starts with a parent comes twice to the same frame. -/
def Circles (file : SourceFile) (parent : Frame) : Prop :=
  ∃ i j frame, i < j ∧ file.chain? parent i = some frame ∧ file.chain? parent j = some frame

theorem chain?_eq_some_iff :
    file.chain? parent n = some f ↔ file.ancestor? n parent = some f ∧ f.kind ≠ .file := by
  simp [chain?, Option.filter_eq_some_iff]

theorem chain?_of_parentOf? {p : Frame} (h : file.parentOf? parent = some p) (n : Nat) :
    file.chain? parent (n + 1) = file.chain? p n := by
  simp [chain?, ancestor?, iterate?, h]

/-- A frame from which one can go on is a link. -/
theorem chain?_of_ancestor?_succ (h : (file.ancestor? (n + 1) parent).isSome) :
    ∃ frame, file.chain? parent n = some frame ∧ (file.parentOf? frame).isSome := by
  rw [ancestor?_succ] at h
  cases hn : file.ancestor? n parent with
  | none => rw [hn] at h; cases h
  | some frame =>
    rw [hn, Option.bind_some] at h
    obtain ⟨p, hp⟩ := Option.isSome_iff_exists.mp h
    exact ⟨frame, chain?_eq_some_iff.mpr ⟨hn, kind_ne_of_parentOf? hp⟩, h⟩

/-- Each link but the last names a declaration, so among more links than declarations one comes
twice. -/
theorem circles_of_ancestor? (h : (file.ancestor? (file.entityCount + 1) parent).isSome) :
    file.Circles parent := by
  have hlink : ∀ k < file.entityCount + 1, ∃ frame, file.chain? parent k = some frame ∧
      (file.parentOf? frame).isSome := by
    intro k hk
    exact chain?_of_ancestor?_succ (isSome_iterate?_of_le hk h)
  have hmaps : ∀ k ∈ Finset.range (file.entityCount + 1),
      (file.chain? parent k).getD file.frame ∈ (file.decls.map (·.frame)).toFinset := by
    intro k hk
    obtain ⟨frame, hframe, hp⟩ := hlink k (Finset.mem_range.mp hk)
    obtain ⟨p, hp⟩ := Option.isSome_iff_exists.mp hp
    obtain ⟨d, hd, -⟩ := parentOf?_eq_some hp
    obtain ⟨hmem, rfl⟩ := named?_eq_some hd
    rw [hframe, List.mem_toFinset]
    exact List.mem_map_of_mem hmem
  have hcard : (file.decls.map (·.frame)).toFinset.card <
      (Finset.range (file.entityCount + 1)).card := by
    have := List.toFinset_card_le (file.decls.map (·.frame))
    rw [List.length_map, length_decls] at this
    rw [Finset.card_range]
    omega
  obtain ⟨i, hi, j, hj, hne, hsame⟩ := Finset.exists_ne_map_eq_of_card_lt_of_maps_to hcard hmaps
  obtain ⟨x, hx, -⟩ := hlink i (Finset.mem_range.mp hi)
  obtain ⟨y, hy, -⟩ := hlink j (Finset.mem_range.mp hj)
  rw [hx, hy, Option.getD_some, Option.getD_some] at hsame
  subst hsame
  rcases Nat.lt_or_gt_of_ne hne with hlt | hgt
  · exact ⟨i, j, x, hlt, hx, hy⟩
  · exact ⟨j, i, x, hgt, hy, hx⟩

theorem Circles.isSome_ancestor? (h : file.Circles parent) (n : Nat) :
    (file.ancestor? n parent).isSome := by
  obtain ⟨i, j, frame, hij, hi, hj⟩ := h
  exact isSome_iterate?_of_circle hij (chain?_eq_some_iff.mp hi).1 (chain?_eq_some_iff.mp hj).1 n

/-- A chain that is no longer than the limit is found whole. -/
theorem ChainLength.length_enclosing {limit : Nat} (h : file.ChainLength parent n)
    (hlimit : n ≤ limit) : (Report.enclosing file limit parent).length = n := by
  induction n generalizing parent limit with
  | zero =>
    have hkind : parent.kind = .file := by
      have := h.ends
      simpa [chain?, ancestor?, iterate?, Option.filter_eq_none_iff] using this
    cases limit <;> simp [Report.enclosing, hkind]
  | succ n ih =>
    obtain ⟨limit, rfl⟩ : ∃ m, limit = m + 1 := ⟨limit - 1, by omega⟩
    obtain ⟨frame, hframe⟩ := Option.isSome_iff_exists.mp (h.links 0 (by omega))
    obtain ⟨hstart, hkind⟩ := chain?_eq_some_iff.mp hframe
    obtain rfl : parent = frame := Option.some.inj hstart
    cases hp : file.parentOf? parent with
    | none =>
      -- nothing follows a link that names nothing
      have hnone : n = 0 := by
        by_contra hpos
        have := h.links 1 (by omega)
        simp [chain?, ancestor?, iterate?, hp] at this
      simp [Report.enclosing, hkind, hp, hnone]
    | some p =>
      have hrest : file.ChainLength p n := by
        refine ⟨fun k hk => ?_, ?_⟩
        · rw [← chain?_of_parentOf? hp]
          exact h.links (k + 1) (by omega)
        · rw [← chain?_of_parentOf? hp]
          exact h.ends
      simp [Report.enclosing, hkind, hp, ih hrest (Nat.le_of_succ_le_succ hlimit)]

end SourceFile

/-! ## Rounds of the loop -/

namespace Report.Ascent

variable {file : SourceFile} {parent : Frame} {n : Nat}

def count : Ascent → Nat
  | .facing _ n => n
  | .lost n => n

/-- Where the loop is after `n` rounds; `none` if it stops before. -/
abbrev after? (file : SourceFile) (n : Nat) (s : Ascent) : Option Ascent :=
  iterate? (next? file) n s

theorem after?_succ (file : SourceFile) (n : Nat) (s : Ascent) :
    after? file (n + 1) s = (after? file n s).bind (next? file) :=
  iterate?_succ n s

/-- The loop that starts with a parent stops after `n` rounds; `depth` is what it has counted. -/
def Stops (file : SourceFile) (parent : Frame) (n depth : Nat) : Prop :=
  ∃ s, after? file n (.facing parent 0) = some s ∧ next? file s = none ∧ s.count = depth

/-- The loop that starts with a parent can always go on to one more round. -/
def Endless (file : SourceFile) (parent : Frame) : Prop :=
  ∀ n, ∃ s, after? file n (.facing parent 0) = some s ∧ (next? file s).isSome

theorem after?_of_ancestor? {frame : Frame} (h : file.ancestor? n parent = some frame) :
    after? file n (.facing parent 0) = some (.facing frame n) := by
  induction n generalizing frame with
  | zero =>
    obtain rfl : parent = frame := Option.some.inj h
    rfl
  | succ n ih =>
    rw [SourceFile.ancestor?_succ] at h
    obtain ⟨f, hf, hp⟩ := Option.bind_eq_some_iff.mp h
    rw [after?_succ, ih hf, Option.bind_some]
    exact SourceFile.Links.next?_of_parentOf? hp n

/-- After `n` rounds the loop has counted `n` frames. It faces the next, or the last one that it
counted names nothing. -/
theorem after?_cases {s : Ascent} (h : after? file n (.facing parent 0) = some s) :
    (∃ frame, file.ancestor? n parent = some frame ∧ s = .facing frame n) ∨
    ∃ m frame, n = m + 1 ∧ file.chain? parent m = some frame ∧ file.parentOf? frame = none ∧
      s = .lost n := by
  induction n generalizing s with
  | zero =>
    obtain rfl : Ascent.facing parent 0 = s := Option.some.inj h
    exact Or.inl ⟨parent, rfl, rfl⟩
  | succ n ih =>
    rw [after?_succ] at h
    obtain ⟨t, ht, hs⟩ := Option.bind_eq_some_iff.mp h
    rcases ih ht with ⟨frame, hframe, rfl⟩ | ⟨-, -, -, -, -, rfl⟩
    · rw [next?] at hs
      split at hs
      · cases hs
      · rename_i hkind
        split at hs
        · rename_i p hp
          cases hs
          refine Or.inl ⟨p, ?_, rfl⟩
          rw [SourceFile.ancestor?_succ, hframe, Option.bind_some, hp]
        · rename_i hp
          cases hs
          exact Or.inr ⟨n, frame, rfl, SourceFile.chain?_eq_some_iff.mpr ⟨hframe, hkind⟩, hp, rfl⟩
    · cases hs

theorem endless_iff_forall_ancestor? :
    Endless file parent ↔ ∀ n, (file.ancestor? n parent).isSome := by
  constructor
  · intro h n
    obtain ⟨s, hs, hnext⟩ := h n
    rcases after?_cases hs with ⟨frame, hframe, -⟩ | ⟨-, -, -, -, -, rfl⟩
    · exact Option.isSome_of_eq_some hframe
    · cases hnext
  · intro h n
    obtain ⟨frame, hframe, hp⟩ := SourceFile.chain?_of_ancestor?_succ (h (n + 1))
    obtain ⟨p, hp⟩ := Option.isSome_iff_exists.mp hp
    refine ⟨_, after?_of_ancestor? (SourceFile.chain?_eq_some_iff.mp hframe).1, ?_⟩
    rw [SourceFile.Links.next?_of_parentOf? hp]
    rfl

theorem endless_iff_circles : Endless file parent ↔ file.Circles parent := by
  rw [endless_iff_forall_ancestor?]
  exact ⟨fun h => SourceFile.circles_of_ancestor? (h _), SourceFile.Circles.isSome_ancestor?⟩

/-- As long as it does not stop the loop goes on. -/
theorem exists_stops_of_not_endless (h : ¬ Endless file parent) :
    ∃ n depth, Stops file parent n depth := by
  by_contra hnone
  refine h fun n => ?_
  have hgoes : ∀ m s, after? file m (.facing parent 0) = some s → (next? file s).isSome := by
    intro m s hs
    by_contra hstop
    exact hnone ⟨m, s.count, s, hs, Option.not_isSome_iff_eq_none.mp hstop, rfl⟩
  induction n with
  | zero => exact ⟨_, rfl, hgoes 0 _ rfl⟩
  | succ n ih =>
    obtain ⟨s, hs, hnext⟩ := ih
    obtain ⟨t, ht⟩ := Option.isSome_iff_exists.mp hnext
    have hafter : after? file (n + 1) (.facing parent 0) = some t := by
      rw [after?_succ, hs, Option.bind_some, ht]
    exact ⟨t, hafter, hgoes _ t hafter⟩

theorem Stops.not_endless {depth : Nat} (h : Stops file parent n depth) :
    ¬ Endless file parent := by
  obtain ⟨s, hs, hstop, -⟩ := h
  intro hendless
  obtain ⟨t, ht, hnext⟩ := hendless n
  obtain rfl : s = t := Option.some.inj (hs.symm.trans ht)
  rw [hstop] at hnext
  cases hnext

/-- Where the loop stops, it has gone once through the chain. -/
theorem Stops.chainLength {depth : Nat} (h : Stops file parent n depth) :
    depth = n ∧ file.ChainLength parent n := by
  obtain ⟨s, hs, hstop, rfl⟩ := h
  have hbefore : ∀ m, (file.ancestor? m parent).isSome →
      ∀ k < m, (file.chain? parent k).isSome := by
    intro m hm k hk
    obtain ⟨frame, hframe, -⟩ := SourceFile.chain?_of_ancestor?_succ (isSome_iterate?_of_le hk hm)
    exact Option.isSome_of_eq_some hframe
  rcases after?_cases hs with ⟨frame, hframe, rfl⟩ | ⟨m, frame, rfl, hframe, hp, rfl⟩
  · have hkind : frame.kind = .file := by
      by_contra hkind
      rw [next?, if_neg hkind] at hstop
      split at hstop <;> cases hstop
    refine ⟨rfl, hbefore n (Option.isSome_of_eq_some hframe), ?_⟩
    rw [SourceFile.chain?, hframe, Option.filter_some, if_neg (by simp [hkind])]
  · have hm := (SourceFile.chain?_eq_some_iff.mp hframe).1
    refine ⟨rfl, fun k hk => ?_, ?_⟩
    · rcases Nat.lt_succ_iff_lt_or_eq.mp hk with hlt | rfl
      · exact hbefore m (Option.isSome_of_eq_some hm) k hlt
      · exact Option.isSome_of_eq_some hframe
    · rw [SourceFile.chain?, SourceFile.ancestor?_succ, hm, Option.bind_some, hp]
      rfl

/-- All frames that the loop has counted name declarations, but perhaps the last. -/
theorem Stops.le_entityCount {depth : Nat} (h : Stops file parent n depth) :
    n ≤ file.entityCount + 1 := by
  by_contra hmany
  obtain ⟨m, rfl⟩ : ∃ m, n = m + 1 := ⟨n - 1, by omega⟩
  have hlast := h.chainLength.2.links m (Nat.lt_succ_self m)
  obtain ⟨frame, hframe⟩ := Option.isSome_iff_exists.mp hlast
  have hm := Option.isSome_of_eq_some (SourceFile.chain?_eq_some_iff.mp hframe).1
  refine h.not_endless (endless_iff_circles.mpr (SourceFile.circles_of_ancestor? ?_))
  exact isSome_iterate?_of_le (by omega) hm

end Report.Ascent

/-- **The loop that finds the nesting stops soon or never.** For any file, extracted or read from a
text, and any parent: if the loop stops, it does so after one round more than there are declarations
at the latest, and its result, which is the nesting, is the length of the chain of declarations that
starts with the parent. It never stops if and only if that chain comes twice to the same frame. -/
theorem nesting_stops_or_circles (file : SourceFile) (parent : Frame) :
    ((∃ n depth, Report.Ascent.Stops file parent n depth) ∨ Report.Ascent.Endless file parent) ∧
    (∀ n depth, Report.Ascent.Stops file parent n depth →
      n ≤ file.entityCount + 1 ∧ file.ChainLength parent depth ∧
        Report.nesting file parent = depth ∧ ¬ Report.Ascent.Endless file parent) ∧
    (Report.Ascent.Endless file parent ↔ file.Circles parent) := by
  refine ⟨?_, fun n depth h => ?_, Report.Ascent.endless_iff_circles⟩
  · by_cases h : Report.Ascent.Endless file parent
    · exact Or.inr h
    · exact Or.inl (Report.Ascent.exists_stops_of_not_endless h)
  · obtain ⟨rfl, hchain⟩ := h.chainLength
    exact ⟨h.le_entityCount, hchain, hchain.length_enclosing h.le_entityCount, h.not_endless⟩

/-- A file with two functions of one id: the first is in a class that is in the function itself, and
the second, which no look-up finds, is in the file. -/
def SourceFile.circular : SourceFile where
  id := "f"
  path := "a.py"
  name := "a.py"
  language := .python
  functions := #[⟨"g", "", none, false, ⟨1, 1⟩, ⟨"c", .classLike⟩⟩,
    ⟨"g", "", none, false, ⟨2, 2⟩, ⟨"f", .file⟩⟩,
    ⟨"h", "", none, false, ⟨3, 3⟩, ⟨"gone", .function⟩⟩]
  classes := #[⟨"c", "C", ⟨4, 4⟩, ⟨"g", .function⟩⟩]

theorem nesting_stops_or_circles_circular :
    Report.Ascent.Endless SourceFile.circular ⟨"c", .classLike⟩ ∧
    Report.Ascent.Stops SourceFile.circular ⟨"h", .function⟩ 2 2 ∧
    Report.nesting SourceFile.circular ⟨"h", .function⟩ = 2 := by
  obtain ⟨-, -, hcircles⟩ := nesting_stops_or_circles SourceFile.circular ⟨"c", .classLike⟩
  obtain ⟨-, hstops, -⟩ := nesting_stops_or_circles SourceFile.circular ⟨"h", .function⟩
  have hstop : Report.Ascent.Stops SourceFile.circular ⟨"h", .function⟩ 2 2 :=
    ⟨.lost 2, by decide +kernel, rfl, rfl⟩
  exact ⟨hcircles.mpr ⟨0, 2, ⟨"c", .classLike⟩, by decide, by decide +kernel, by decide +kernel⟩,
    hstop, (hstops 2 2 hstop).2.2.1⟩

end Outline
