import Mathlib.Data.List.Basic
import Outline.Ignore

/-!
# Globs for names

A rule for directories that is a name with a slash after it, perhaps with a star before it, is read
as a glob that matches at any depth: directories, then the star, and then the name letter by letter.
Such a glob matches every path that ends in such a name, whatever comes before the name.

* `read_plain`: characters without a meaning of their own are read as themselves.
* `ofLine?_directory`: the rule that such a line holds.
* `mem_rests_cons`: what can be left after a row of tokens, token by token.
* `isMatch_nameTokens`: the paths that end in such a name match.
-/
namespace Outline

/-- A text ends in a name, after a slash or from its start on. -/
def Path.EndsIn (path name : List Char) : Prop :=
  path = name ∨ ∃ before, path = before ++ '/' :: name

namespace Glob

/-! ## Reading -/

/-- Characters that stand for themselves wherever they are in a pattern. -/
def isPlain (c : Char) : Bool := c.isAlphanum || c == '_' || c == '-' || c == '.'

theorem ne_of_isPlain {c d : Char} (hc : isPlain c = true) (hd : isPlain d = false) : c ≠ d := by
  rintro rfl
  rw [hc] at hd
  cases hd

theorem ne_of_mem_specials {c : Char} (hc : isPlain c = true) {specials : List Char}
    (h : specials.all (!isPlain ·) = true) : ∀ d ∈ specials, c ≠ d := by
  intro d hd
  exact ne_of_isPlain hc (by simpa using List.all_eq_true.mp h d hd)

/-- The star that may stand before a name. -/
def starText (starred : Bool) : List Char := if starred then ['*'] else []

def starTokens (starred : Bool) : List Token := if starred then [.star] else []

/-- The glob of a name at any depth. -/
def nameTokens (starred : Bool) (name : List Char) : List Token :=
  .leadingDirs :: (starTokens starred ++ name.map .literal)

section

variable {name : List Char}

theorem read_plain (hplain : ∀ c ∈ name, isPlain c = true) (r : Reader) :
    ∃ r', r.read name = some r' ∧ r'.below = r.below ∧
      r'.top.current = (name.map Token.literal).reverse ++ r.top.current := by
  induction name generalizing r with
  | nil => exact ⟨r, by rw [Reader.read], rfl, rfl⟩
  | cons c cs ih =>
    rw [List.forall_mem_cons] at hplain
    have hspecial : ∀ d ∈ ['?', '*', '[', '\x7b', '\x7d', ',', '\\'], c ≠ d :=
      ne_of_mem_specials hplain.1 (by decide)
    have hread : r.read (c :: cs) = (r.push c [.literal c]).read cs := by
      rw [Reader.read.eq_def]
      split <;> simp_all
    obtain ⟨r', hr', hbelow, hcurrent⟩ := ih hplain.2 (r.push c [.literal c])
    exact ⟨r', hread.trans hr', hbelow, by simp [hcurrent, Reader.push]⟩

variable (hname : name ≠ []) (hplain : ∀ c ∈ name, isPlain c = true) (starred : Bool)
include hname hplain

theorem read_starText (r : Reader) :
    r.read (starText starred ++ name) =
      (if starred then r.push '*' [.star] else r).read name := by
  cases starred with
  | false => rfl
  | true =>
    obtain ⟨c, cs, rfl⟩ := List.exists_cons_of_ne_nil hname
    have hc : c ≠ '*' := ne_of_isPlain (hplain c List.mem_cons_self) (by decide)
    change r.read ('*' :: c :: cs) = (r.push '*' [.star]).read (c :: cs)
    rw [Reader.read]
    simp [hc]

theorem parse?_name : parse? (String.ofList (['*', '*', '/'] ++ (starText starred ++ name))) =
    some (nameTokens starred name) := by
  have hdirs : Reader.read {} (['*', '*', '/'] ++ (starText starred ++ name)) =
      (Reader.push {} '/' [.leadingDirs]).read (starText starred ++ name) := by
    change Reader.read {} ('*' :: '*' :: '/' :: (starText starred ++ name)) = _
    rw [Reader.read]
    rfl
  obtain ⟨r, hr, hbelow, hcurrent⟩ := read_plain hplain
    (if starred then (Reader.push {} '/' [.leadingDirs]).push '*' [.star]
      else Reader.push {} '/' [.leadingDirs])
  have hread := (hdirs.trans (read_starText hname hplain starred _)).trans hr
  simp only [parse?, String.toList_ofList, hread, bind, Option.bind_some, Reader.inGroup, hbelow,
    hcurrent]
  cases starred <;> simp [Reader.push, nameTokens, starTokens]

end

/-! ## Matching -/

theorem mem_rests {ss : List (List UInt8)} {r : List UInt8} {ts : List Token} :
    r ∈ rests ss ts ↔ ∃ s ∈ ss, r ∈ rests [s] ts := by
  induction ts generalizing ss with
  | nil => simp [rests]
  | cons t ts ih =>
    simp only [rests]
    rw [ih]
    constructor
    · rintro ⟨s', hs', hr⟩
      obtain ⟨s, hs, hmem⟩ := List.mem_flatMap.mp (List.mem_eraseDups.mp hs')
      refine ⟨s, hs, ih.mpr ⟨s', ?_, hr⟩⟩
      simpa using hmem
    · rintro ⟨s, hs, hmem⟩
      obtain ⟨s', hs', hr⟩ := ih.mp hmem
      refine ⟨s', List.mem_eraseDups.mpr (List.mem_flatMap.mpr ⟨s, hs, ?_⟩), hr⟩
      simpa using hs'

theorem mem_rests_cons {s r : List UInt8} {t : Token} {ts : List Token} :
    r ∈ rests [s] (t :: ts) ↔ ∃ s' ∈ t.rests s, r ∈ rests [s'] ts := by
  simp only [rests]
  rw [mem_rests]
  simp

/-- Only the slash itself has the byte of a slash: characters beyond ASCII have higher bytes. -/
theorem slash_mem_charBytes {c : Char} (h : slash ∈ charBytes c) : c = '/' := by
  have hbyte : ∀ n, 128 ≤ n → n < 256 → slash ≠ UInt8.ofNat n := by
    intro n hlow hhigh heq
    have := congrArg UInt8.toNat heq
    rw [UInt8.toNat_ofNat_of_lt' hhigh] at this
    simp only [slash, UInt8.reduceToNat] at this
    omega
  rw [charBytes, String.utf8EncodeChar] at h
  split at h
  · rename_i hsmall
    have hval := congrArg UInt8.toNat (List.mem_singleton.mp h)
    rw [UInt8.toNat_ofNat_of_lt' (Nat.lt_of_le_of_lt hsmall (by decide))] at hval
    exact Char.toNat_inj.mp hval.symm
  · split at h
    · simp only [List.mem_cons, List.not_mem_nil, or_false] at h
      rcases h with h | h <;> exact absurd h (hbyte _ (by omega) (by omega))
    · split at h
      · simp only [List.mem_cons, List.not_mem_nil, or_false] at h
        rcases h with h | h | h <;> exact absurd h (hbyte _ (by omega) (by omega))
      · simp only [List.mem_cons, List.not_mem_nil, or_false] at h
        rcases h with h | h | h | h <;> exact absurd h (hbyte _ (by omega) (by omega))

theorem mem_withinName {before s : List UInt8} (h : slash ∉ before) :
    s ∈ withinName (before ++ s) := by
  induction before with
  | nil =>
    cases s with
    | nil => simp [withinName]
    | cons b s =>
      rw [List.nil_append, withinName]
      split <;> exact List.mem_cons_self
  | cons b before ih =>
    rw [List.mem_cons, not_or] at h
    rw [List.cons_append, withinName, if_neg (Ne.symm h.1)]
    exact List.mem_cons_of_mem _ (ih h.2)

theorem mem_afterSlashes (before s : List UInt8) : s ∈ afterSlashes (before ++ slash :: s) := by
  induction before with
  | nil => simp [afterSlashes]
  | cons b before ih =>
    rw [List.cons_append, afterSlashes]
    split
    · exact List.mem_cons_of_mem _ ih
    · exact ih

theorem nil_mem_rests_literals (cs : List Char) :
    [] ∈ rests [cs.flatMap charBytes] (cs.map .literal) := by
  induction cs with
  | nil => simp [rests]
  | cons c cs ih =>
    have hrest : (charBytes c).isPrefixOf? (charBytes c ++ cs.flatMap charBytes) =
        some (cs.flatMap charBytes) := List.isPrefixOf?_eq_some_iff_append_eq.mpr rfl
    rw [List.map_cons, List.flatMap_cons, mem_rests_cons]
    exact ⟨cs.flatMap charBytes, by simp [Token.rests, hrest], ih⟩

/-- What a star may stand for before a name. -/
def IsStem (starred : Bool) (stem : List Char) : Prop :=
  if starred then '/' ∉ stem else stem = []

theorem nil_mem_rests_name {starred : Bool} {stem : List Char} (hstem : IsStem starred stem)
    (name : List Char) : [] ∈ rests [(stem ++ name).flatMap charBytes]
      (starTokens starred ++ name.map .literal) := by
  cases starred with
  | false =>
    obtain rfl : stem = [] := hstem
    exact nil_mem_rests_literals name
  | true =>
    have hslash : slash ∉ stem.flatMap charBytes := by
      intro hmem
      obtain ⟨c, hc, hbyte⟩ := List.mem_flatMap.mp hmem
      exact hstem (slash_mem_charBytes hbyte ▸ hc)
    change [] ∈ rests _ (.star :: name.map .literal)
    rw [List.flatMap_append, mem_rests_cons]
    exact ⟨name.flatMap charBytes, mem_withinName hslash, nil_mem_rests_literals name⟩

theorem isMatch_nameTokens {starred : Bool} {stem name : List Char} {path : String}
    (hstem : IsStem starred stem) (hpath : Path.EndsIn path.toList (stem ++ name)) :
    isMatch (nameTokens starred name) path = true := by
  have hends : (stem ++ name).flatMap charBytes ∈
      Token.rests (path.toList.flatMap charBytes) .leadingDirs := by
    rw [Token.rests]
    rcases hpath with heq | ⟨before, heq⟩
    · rw [heq]
      exact List.mem_cons_self
    · have hslash : charBytes '/' = [slash] := by decide
      rw [heq, List.flatMap_append, List.flatMap_cons, hslash]
      exact List.mem_cons_of_mem _ (mem_afterSlashes _ _)
  have hrests : [] ∈ rests [path.toList.flatMap charBytes] (nameTokens starred name) :=
    mem_rests_cons.mpr ⟨_, hends, nil_mem_rests_name hstem name⟩
  unfold isMatch
  split
  · rfl
  · exact List.contains_iff_mem.mpr hrests

end Glob

/-! ## Rules -/

namespace IgnoreRule
open Glob

/-- The text of a line without its marks and the blanks at its end. -/
def unmarked (line : String) : Line := closing (opening (trim line.toList))

theorem ofLine?_eq (line : String) : ofLine? line =
    if line.toList.head? = some '#' ∨ trim line.toList = [] then none
    else (parse? (String.ofList (globText (unmarked line)))).map fun glob =>
      { glob
        negated := (unmarked line).negated
        directoryOnly := (unmarked line).directoryOnly } := by
  rw [ofLine?]
  split
  · rename_i heq
    rw [if_pos (Or.inl (by rw [heq]; rfl))]
  · rename_i hcomment
    have hhead : line.toList.head? ≠ some '#' := by
      intro heq
      obtain ⟨cs, hcs⟩ := List.head?_eq_some_iff.mp heq
      exact hcomment cs hcs
    split
    · rename_i htrim
      rw [if_pos (Or.inr htrim)]
    · rename_i htrim
      rw [if_neg (not_or.mpr ⟨hhead, htrim⟩)]
      rfl

section

variable {name : List Char} (hname : name ≠ []) (hplain : ∀ c ∈ name, isPlain c = true)
  (starred : Bool)
include hname hplain

theorem exists_head : ∃ c cs, starText starred ++ name = c :: cs ∧
    ∀ d ∈ ['#', '\\', '!', '/'], c ≠ d := by
  cases starred with
  | true => exact ⟨'*', name, rfl, by simp⟩
  | false =>
    obtain ⟨c, cs, rfl⟩ := List.exists_cons_of_ne_nil hname
    have hc := hplain c List.mem_cons_self
    exact ⟨c, cs, rfl, ne_of_mem_specials hc (by decide)⟩

theorem exists_last : ∃ c cs, (starText starred ++ name).reverse = c :: cs ∧ isPlain c = true := by
  have hne : name.reverse ≠ [] := by simpa using hname
  obtain ⟨c, cs, hcs⟩ := List.exists_cons_of_ne_nil hne
  refine ⟨c, cs ++ (starText starred).reverse, by rw [List.reverse_append, hcs]; rfl, hplain c ?_⟩
  exact List.mem_reverse.mp (hcs ▸ List.mem_cons_self)

theorem globText_directory :
    globText { text := starText starred ++ name, directoryOnly := true } =
      ['*', '*', '/'] ++ (starText starred ++ name) := by
  obtain ⟨c, cs, hlast, hc⟩ := exists_last hname hplain starred
  have hslash : (starText starred ++ name).contains '/' = false := by
    have hnot : '/' ∉ name := fun hmem => absurd (hplain _ hmem) (by decide)
    cases starred <;> simp [starText, hnot]
  have hstars : starText starred ++ name ≠ ['*', '*'] := by
    intro heq
    rw [heq] at hlast
    exact ne_of_isPlain hc (by decide) (List.cons.inj hlast).1.symm
  have hstar : c ≠ '*' := ne_of_isPlain hc (by decide)
  simp only [globText, hslash, bne_iff_ne.mpr hstars, Bool.not_false, Bool.and_self, if_true,
    List.reverse_append, hlast]
  simp [hstar.symm]

theorem ofLine?_directory {line : String}
    (hline : line.toList = starText starred ++ name ++ ['/']) :
    ofLine? line = some { glob := nameTokens starred name, directoryOnly := true } := by
  obtain ⟨c, cs, hhead, hc⟩ := exists_head hname hplain starred
  obtain ⟨d, ds, hlast, hd⟩ := exists_last hname hplain starred
  have hreverse : (starText starred ++ name ++ ['/']).reverse = '/' :: d :: ds := by
    rw [List.reverse_append, hlast]
    rfl
  have htrim : trim (starText starred ++ name ++ ['/']) = starText starred ++ name ++ ['/'] := by
    have hblank : Text.isBlank '/' = false := by decide
    rw [trim, hreverse, if_neg (by simp), Text.trimEnd, hreverse,
      List.dropWhile_cons_of_neg (by simp [hblank]), ← hreverse, List.reverse_reverse]
  have hopening : opening (starText starred ++ name ++ ['/']) =
      { text := starText starred ++ name ++ ['/'] } := by
    rw [hhead, List.cons_append]
    unfold opening
    split <;> simp_all
  have hclosing : closing { text := starText starred ++ name ++ ['/'] } =
      { text := starText starred ++ name, directoryOnly := true } := by
    have hd' : d ≠ '\\' := ne_of_isPlain hd (by decide)
    have htext : starText starred ++ name = (d :: ds).reverse := by
      rw [← hlast, List.reverse_reverse]
    simp only [closing, htext]
    split <;> simp_all
  have hunmarked : unmarked line = { text := starText starred ++ name, directoryOnly := true } := by
    rw [unmarked, hline, htrim, hopening, hclosing]
  have hcomment : ¬ (line.toList.head? = some '#' ∨ trim line.toList = []) := by
    rw [hline, htrim, hhead]
    simp [hc '#' (by decide)]
  rw [ofLine?_eq, if_neg hcomment, hunmarked, globText_directory hname hplain,
    parse?_name hname hplain]
  rfl

end

end IgnoreRule
end Outline
