import Mathlib.Data.List.TakeDrop
import Outline.Toml.Text

/-!
# Strings in TOML texts

What is written for a string is read back as the string, in whichever of the four forms it is
written. Between single marks the closing mark cannot be mistaken. Between three marks it could: one
or two marks of the text may stand right before the closing ones, and the reader tells them apart by
counting. So the writer never puts more than two marks in a row, and this is what `Spelled` says of
a text over several lines; `run` is the number of marks just before.

* `spells_spelling`: how one character is written; this is all that the readers rely on.
* `spelled_escaped`, `spelled_self`: the writer keeps the marks apart.
* `lines?_of_spelled`: a text with its marks kept apart is read back.
* `string?_writeString`: a written string is read as itself.
-/
namespace Outline.Toml
open Text

/-! ## One character -/

/-- A character is written as itself, by a letter or by its number. -/
inductive Spells (mark : Char) (escapes overLines : Bool) (c : Char) : List Char → Prop
  | plain (hmark : c ≠ mark) (hslash : escapes = true → c ≠ '\\')
      (hc : isControl c = false ∨ (overLines = true ∧ c = '\n')) :
      Spells mark escapes overLines c [c]
  | short (hescapes : escapes = true) {e : Char} (he : shortEscape? e = some c) :
      Spells mark escapes overLines c ['\\', e]
  | number (hescapes : escapes = true) {h₁ h₂ h₃ h₄ : Char}
      (hc : hexChar? [h₁, h₂, h₃, h₄] = some c) :
      Spells mark escapes overLines c ['\\', 'u', h₁, h₂, h₃, h₄]

/-- What is written for a character that is not one of up to two marks in a row. -/
def spelling (overLines : Bool) (c : Char) : List Char :=
  if c = '"' then ['\\', c]
  else if c = '\\' then ['\\', '\\']
  else if c = '\n' && overLines then [c]
  else if isControl c || c == '\t' then controlEscape c
  else [c]

theorem hexChar?_upperHex : ∀ n, n < 0x80 →
    hexChar? ['0', '0', upperHex (n / 16), upperHex (n % 16)] = some (Char.ofNat n) := by
  decide

theorem toNat_lt_of_isControl {c : Char} (h : isControl c = true) : c.toNat < 0x80 := by
  simp [isControl] at h
  omega

theorem spells_controlEscape {c : Char} (h : c.toNat < 0x80) (mark : Char) (overLines : Bool) :
    Spells mark true overLines c (controlEscape c) := by
  unfold controlEscape
  split
  · subst_vars; exact .short rfl rfl
  split
  · subst_vars; exact .short rfl rfl
  split
  · subst_vars; exact .short rfl rfl
  split
  · subst_vars; exact .short rfl rfl
  split
  · subst_vars; exact .short rfl rfl
  · exact .number rfl (by rw [hexChar?_upperHex _ h, Char.ofNat_toNat])

theorem spells_spelling (overLines : Bool) (c : Char) :
    Spells '"' true overLines c (spelling overLines c) := by
  unfold spelling
  split
  · rename_i h
    exact .short rfl (by rw [h]; rfl)
  rename_i hmark
  split
  · rename_i h
    exact .short rfl (by rw [h]; rfl)
  rename_i hslash
  split
  · rename_i h
    simp only [Bool.and_eq_true, decide_eq_true_eq] at h
    exact .plain hmark (fun _ => hslash) (.inr h.symm)
  split
  · rename_i h
    refine spells_controlEscape ?_ _ _
    simp only [Bool.or_eq_true, beq_iff_eq] at h
    rcases h with h | rfl
    · exact toNat_lt_of_isControl h
    · decide
  · rename_i h
    simp only [Bool.or_eq_true, not_or, Bool.not_eq_true] at h
    exact .plain hmark (fun _ => hslash) (.inl h.1)

/-- A letter of an escape is none of those that start a number, and no blank. -/
theorem shortEscape?_letter {e c : Char} (h : shortEscape? e = some c) :
    e ≠ 'u' ∧ e ≠ 'U' ∧ e ≠ '\n' ∧ e ≠ '\r' ∧ isSpace e = false := by
  unfold shortEscape? at h
  split at h
  · rename_i he
    rcases he with rfl | rfl <;> decide
  iterate 5
    split at h
    · subst_vars; decide
  cases h

/-- A written character does not start with the mark, nor with a line's end unless it is one. -/
theorem Spells.head {mark : Char} {escapes overLines : Bool} {c : Char} {w : List Char}
    (h : Spells mark escapes overLines c w) (hmark : mark ≠ '\\') :
    ∃ d w', w = d :: w' ∧ d ≠ mark ∧ d ≠ '\r' ∧ (d = '\n' → c = '\n') := by
  cases h with
  | plain hne _ hc =>
    refine ⟨c, [], rfl, hne, ?_, id⟩
    rintro rfl
    rcases hc with hc | ⟨_, hc⟩ <;> exact absurd hc (by decide)
  | short => exact ⟨'\\', _, rfl, hmark.symm, by decide, by simp⟩
  | number => exact ⟨'\\', _, rfl, hmark.symm, by decide, by simp⟩

/-! ## Texts on one line -/

theorem escaped_false (cs : List Char) : escaped false 0 cs = cs.flatMap (spelling false) := by
  induction cs with
  | nil => rfl
  | cons c cs ih =>
    rw [List.flatMap_cons, ← ih]
    by_cases h : c = '"' <;> simp [escaped, spelling, h]

theorem basic?_spells {c : Char} {w : List Char} (h : Spells '"' true false c w) (t : List Char) :
    basic? (w ++ t) = withChar c (basic? t) := by
  cases h with
  | plain hmark hslash hc =>
    have hc : isControl c = false := by simpa using hc
    have hslash := hslash rfl
    simp only [List.singleton_append]
    rw [basic?, if_neg (by simp [hc, hslash])]
    · exact fun h => hmark h
    · exact fun _ _ _ _ _ h _ => hslash h
    · exact fun _ _ _ _ _ _ _ _ _ h _ => hslash h
    · exact fun _ _ h _ => hslash h
  | short _ he =>
    obtain ⟨hu, hU, -⟩ := shortEscape?_letter he
    simp only [List.cons_append, List.nil_append]
    rw [basic?, he]
    · rfl
    · exact fun _ _ _ _ _ h _ => hu h
    · exact fun _ _ _ _ _ _ _ _ _ h _ => hU h
  | number _ hc =>
    simp only [List.cons_append, List.nil_append]
    rw [basic?, hc]
    rfl

theorem basic?_escaped (cs rest : List Char) :
    basic? (escaped false 0 cs ++ '"' :: rest) = some (cs, rest) := by
  rw [escaped_false]
  induction cs with
  | nil => simp [basic?]
  | cons c cs ih =>
    rw [List.flatMap_cons, List.append_assoc, basic?_spells (spells_spelling false c), ih]
    rfl

theorem literal?_fits {cs : List Char} (h : StringForm.fits cs .literal = true)
    (rest : List Char) : literal? (cs ++ '\'' :: rest) = some (cs, rest) := by
  induction cs with
  | nil => simp [literal?]
  | cons c cs ih =>
    simp only [StringForm.fits, List.any_cons, Bool.not_or, Bool.and_eq_true, Bool.not_eq_true',
      beq_eq_false_iff_ne] at h ih
    obtain ⟨⟨hc, hmark⟩, hcs⟩ := h
    rw [List.cons_append, literal?, if_neg (by simp [hc]), ih hcs]
    · rfl
    · exact fun h => hmark h

/-! ## Texts over several lines -/

/-- A text and what is written for it between three marks: of the marks in it, no more than two
stand in a row. -/
inductive Spelled (mark : Char) (escapes : Bool) : (run : Nat) → (text written : List Char) → Prop
  | nil {run : Nat} : Spelled mark escapes run [] []
  | mark {run : Nat} {cs w : List Char} (hrun : run < 2) (h : Spelled mark escapes (run + 1) cs w) :
      Spelled mark escapes run (mark :: cs) (mark :: w)
  | char {run : Nat} {c : Char} {cs w w' : List Char} (hc : Spells mark escapes true c w)
      (h : Spelled mark escapes 0 cs w') : Spelled mark escapes run (c :: cs) (w ++ w')

theorem spelled_escaped (run : Nat) (cs : List Char) :
    Spelled '"' true run cs (escaped true run cs) := by
  induction cs generalizing run with
  | nil => exact .nil
  | cons c cs ih =>
    by_cases hmark : c = '"' ∧ run < 2
    · obtain ⟨rfl, hrun⟩ := hmark
      have h : escaped true run ('"' :: cs) = '"' :: escaped true (run + 1) cs := by
        simp [escaped, hrun]
      exact h ▸ .mark hrun (ih (run + 1))
    · have h : escaped true run (c :: cs) = spelling true c ++ escaped true 0 cs := by
        by_cases hc : c = '"'
        · simp [escaped, spelling, hc, show ¬ run < 2 from fun hrun => hmark ⟨hc, hrun⟩]
        · simp [escaped, spelling, hc]
      exact h ▸ .char (spells_spelling true c) (ih 0)

theorem le_longestRun (mark : Char) (cs : List Char) (run : Nat) :
    run ≤ longestRun mark run cs := by
  induction cs generalizing run with
  | nil => exact Nat.le_refl run
  | cons c cs ih =>
    rw [longestRun]
    split
    · exact Nat.le_of_succ_le (ih (run + 1))
    · exact Nat.le_max_left ..

theorem spelled_self {mark : Char} {run : Nat} {cs : List Char}
    (hcs : ∀ c ∈ cs, isControl c = false ∨ c = '\n') (hrun : longestRun mark run cs ≤ 2) :
    Spelled mark false run cs cs := by
  induction cs generalizing run with
  | nil => exact .nil
  | cons c cs ih =>
    rw [List.forall_mem_cons] at hcs
    rw [longestRun] at hrun
    split at hrun
    · rename_i h
      have hle := le_longestRun mark cs (run + 1)
      subst h
      exact .mark (by omega) (ih hcs.2 hrun)
    · rename_i h
      have hc : Spells mark false true c [c] := .plain h (by simp) (by simpa using hcs.1)
      exact .char hc (ih hcs.2 (by omega))

/-- From any place on, a written text is one or two marks at most, or goes on with another character
after them. -/
theorem Spelled.marks {mark : Char} {escapes : Bool} {run : Nat} {cs w : List Char}
    (h : Spelled mark escapes run cs w) (hmark : mark ≠ '\\') :
    ∃ q ≤ 2 - run, (cs = List.replicate q mark ∧ w = List.replicate q mark) ∨
      ∃ d w', d ≠ mark ∧ w = List.replicate q mark ++ d :: w' := by
  induction h with
  | nil => exact ⟨0, Nat.zero_le _, .inl ⟨rfl, rfl⟩⟩
  | mark hrun _ ih =>
    obtain ⟨q, hq, ih⟩ := ih
    refine ⟨q + 1, by omega, ?_⟩
    rcases ih with ⟨rfl, rfl⟩ | ⟨d, w', hd, rfl⟩
    · exact .inl ⟨rfl, rfl⟩
    · exact .inr ⟨d, w', hd, rfl⟩
  | char hc _ _ =>
    obtain ⟨d, w', rfl, hd, -⟩ := hc.head hmark
    exact ⟨0, Nat.zero_le _, .inr ⟨d, _, hd, rfl⟩⟩

theorem length_takeWhile_marks {mark : Char} (q : Nat) {t : List Char} (h : t.head? ≠ some mark) :
    ((List.replicate q mark ++ t).takeWhile (· == mark)).length = q := by
  have ht : t.takeWhile (· == mark) = [] := by
    cases t with
    | nil => rfl
    | cons c t => simpa [List.takeWhile_cons] using h
  rw [List.takeWhile_append_of_pos (by simp), ht, List.append_nil, List.length_replicate]

theorem closing?_none {mark : Char} {q : Nat} (hq : q ≤ 2) {t : List Char}
    (h : t.head? ≠ some mark) : closing? mark (List.replicate q mark ++ t) = none := by
  simp only [closing?, length_takeWhile_marks q h]
  rw [if_pos (by omega)]

theorem closing?_marks {mark : Char} {q : Nat} (hq : q ≤ 2) {rest : List Char}
    (h : rest.head? ≠ some mark) :
    closing? mark (List.replicate q mark ++ mark :: mark :: mark :: rest) =
      some (List.replicate q mark, rest) := by
  have hall : List.replicate q mark ++ mark :: mark :: mark :: rest =
      List.replicate (q + 3) mark ++ rest := by
    rw [← List.replicate_append_replicate, List.append_assoc]
    rfl
  have hown : min (q + 3 - 3) 2 = q := by omega
  simp only [hall, closing?, length_takeWhile_marks (q + 3) h, hown]
  rw [if_neg (by omega), List.drop_append_of_le_length (by simp)]
  simp

theorem afterNewline?_cons {c : Char} (hn : c ≠ '\n') (hr : c ≠ '\r') (t : List Char) :
    afterNewline? (c :: t) = none := by
  rw [afterNewline?]
  · exact fun _ h => hn (List.cons.inj h).1
  · exact fun _ h => hr (List.cons.inj h).1

theorem lines?_close {mark : Char} {escapes : Bool} {c : Char} {t : List Char}
    {found : List Char × List Char} (hc : c ≠ '\r') (h : closing? mark (c :: t) = some found) :
    lines? mark escapes false (c :: t) = some found := by
  rw [lines?.eq_def]
  simp [hc, h]

theorem lines?_plain {mark : Char} {escapes : Bool} {c : Char} {t : List Char}
    (hslash : escapes = true → c ≠ '\\') (hc : isControl c = false ∨ c = '\n')
    (h : closing? mark (c :: t) = none) :
    lines? mark escapes false (c :: t) = withChar c (lines? mark escapes false t) := by
  have hr : c ≠ '\r' := by
    rintro rfl
    exact absurd hc (by decide)
  have hc : c = '\n' ∨ isControl c = false := hc.symm
  rw [lines?.eq_def]
  simp only [Bool.false_and, Bool.false_eq_true, if_false, if_neg hr, h]
  rw [if_neg (by simpa using hslash), if_pos (by simpa using hc)]

theorem lines?_spells {mark : Char} {escapes : Bool} {c : Char} {w : List Char}
    (h : Spells mark escapes true c w) (hmark : mark ≠ '\\') (t : List Char) :
    lines? mark escapes false (w ++ t) = withChar c (lines? mark escapes false t) := by
  have hnone : ∀ {d t}, d ≠ mark → closing? mark (d :: t) = none := fun hd =>
    closing?_none (Nat.zero_le 2) (by simpa using hd)
  cases h with
  | plain hne hslash hc => exact lines?_plain hslash (by simpa using hc) (hnone hne)
  | @short hescapes e he =>
    obtain ⟨hu, hU, hn, hr, hspace⟩ := shortEscape?_letter he
    have hline : afterNewline? (skipSpace (e :: t)) = none := by
      rw [skipSpace, List.dropWhile_cons_of_neg (by simp [hspace]), afterNewline?_cons hn hr]
    simp only [List.cons_append, List.nil_append]
    rw [lines?.eq_def]
    simp only [hescapes, hnone hmark.symm, hline, Bool.false_and, Bool.false_eq_true, if_false,
      Bool.true_and, beq_self_eq_true, if_true, Option.isSome_none, Char.reduceEq]
    split
    · rename_i h
      exact absurd (List.cons.inj h).1 hu
    · rename_i h
      exact absurd (List.cons.inj h).1 hU
    · rename_i h
      cases h
      rw [he]
      rfl
    · rename_i h
      cases h
  | @number hescapes h₁ h₂ h₃ h₄ hc =>
    have hline : afterNewline? (skipSpace ('u' :: h₁ :: h₂ :: h₃ :: h₄ :: t)) = none := rfl
    simp only [List.cons_append, List.nil_append]
    rw [lines?.eq_def]
    simp [hescapes, hnone hmark.symm, hline, hc]

theorem lines?_of_spelled {mark : Char} {escapes : Bool} {run : Nat} {cs w : List Char}
    (h : Spelled mark escapes run cs w) (hslash : mark ≠ '\\') (hcontrol : isControl mark = false)
    {rest : List Char} (hrest : rest.head? ≠ some mark) :
    lines? mark escapes false (w ++ mark :: mark :: mark :: rest) = some (cs, rest) := by
  have hr : mark ≠ '\r' := by
    rintro rfl
    exact absurd hcontrol (by decide)
  induction h with
  | nil => exact lines?_close hr (closing?_marks (Nat.zero_le 2) hrest)
  | @mark run cs w hrun h ih =>
    obtain ⟨q, hq, ⟨rfl, rfl⟩ | ⟨d, w', hd, rfl⟩⟩ := h.marks hslash
    -- the marks are the last of the text: they are read with the closing ones
    · exact lines?_close hr (closing?_marks (q := q + 1) (by omega) hrest)
    · have hnone : closing? mark (mark :: (List.replicate q mark ++ d :: w' ++
          mark :: mark :: mark :: rest)) = none := by
        rw [← List.cons_append, ← List.cons_append, ← List.replicate_succ, List.append_assoc]
        exact closing?_none (by omega) (by simpa using hd)
      rw [List.cons_append, lines?_plain (fun _ => hslash) (.inl hcontrol) hnone, ih]
      rfl
  | char hc _ ih =>
    rw [List.append_assoc, lines?_spells hc hslash, ih]
    rfl

theorem Spelled.afterNewline?_eq_none {mark : Char} {escapes : Bool} {run : Nat} {cs w : List Char}
    (h : Spelled mark escapes run cs w) (hslash : mark ≠ '\\') (hcontrol : isControl mark = false)
    (hcs : '\n' ∉ cs) (t : List Char) : afterNewline? (w ++ mark :: t) = none := by
  have hmark : mark ≠ '\n' ∧ mark ≠ '\r' := by
    constructor <;> rintro rfl <;> exact absurd hcontrol (by decide)
  cases h with
  | nil => exact afterNewline?_cons hmark.1 hmark.2 t
  | mark => exact afterNewline?_cons hmark.1 hmark.2 _
  | char hc _ =>
    obtain ⟨d, w', rfl, -, hr, hn⟩ := hc.head hslash
    exact afterNewline?_cons (fun hd => hcs (by simp [hn hd])) hr _

/-- A text over several lines starts on a line of its own if it has several; its first character is
the end of a line only then, so nothing of the text is lost. -/
theorem linesFrom?_of_spelled {mark : Char} {escapes : Bool} {cs w : List Char}
    (h : Spelled mark escapes 0 cs w) (hslash : mark ≠ '\\') (hcontrol : isControl mark = false)
    {rest : List Char} (hrest : rest.head? ≠ some mark) :
    linesFrom? mark escapes
      (StringForm.write.first cs ++ w ++ mark :: mark :: mark :: rest) = some (cs, rest) := by
  have hread := lines?_of_spelled h hslash hcontrol hrest
  by_cases hcs : '\n' ∈ cs
  · simpa [StringForm.write.first, hcs, linesFrom?, afterNewline?] using hread
  · have hnone := h.afterNewline?_eq_none hslash hcontrol hcs
    simp [StringForm.write.first, hcs, linesFrom?, hnone, hread]

/-! ## Strings of any form -/

/-- What follows does not go on with a closing mark. -/
def Clear (rest : List Char) : Prop := rest.head? ≠ some '"' ∧ rest.head? ≠ some '\''

theorem choose_fits (cs : List Char) :
    StringForm.choose cs = .basic ∨ StringForm.choose cs = .basicLines ∨
      (StringForm.choose cs).fits cs = true := by
  unfold StringForm.choose
  split
  · rename_i h
    exact .inr (.inr (List.find?_some h))
  · split <;> simp

theorem string?_mark {cs : List Char} (h : ∀ t, cs ≠ '"' :: '"' :: t) :
    string? ('"' :: cs) = (basic? cs).map fun (text, rest) => (String.ofList text, rest) := by
  rw [string?]
  exact h

theorem string?_apostrophe {cs : List Char} (h : ∀ t, cs ≠ '\'' :: '\'' :: t) :
    string? ('\'' :: cs) = (literal? cs).map fun (text, rest) => (String.ofList text, rest) := by
  rw [string?]
  exact h

theorem string?_write {form : StringForm} {cs : List Char}
    (h : form = .basic ∨ form = .basicLines ∨ form.fits cs = true) {rest : List Char}
    (hrest : Clear rest) :
    string? (form.write cs ++ rest) = some (String.ofList cs, rest) := by
  cases form with
  | basic =>
    have hmarks : ∀ t, escaped false 0 cs ++ '"' :: rest ≠ '"' :: '"' :: t := by
      intro t ht
      cases cs with
      | nil =>
        cases ht
        exact hrest.1 rfl
      | cons c cs =>
        obtain ⟨d, w, hw, hd, -⟩ := (spells_spelling false c).head (by decide)
        rw [escaped_false, List.flatMap_cons, hw] at ht
        exact hd (List.cons.inj ht).1
    simp only [StringForm.write, List.cons_append, List.append_assoc, List.nil_append]
    rw [string?_mark hmarks, basic?_escaped]
    rfl
  | literal =>
    have hfits : StringForm.fits cs .literal = true := by simpa using h
    have hmarks : ∀ t, cs ++ '\'' :: rest ≠ '\'' :: '\'' :: t := by
      intro t ht
      cases cs with
      | nil =>
        cases ht
        exact hrest.2 rfl
      | cons c cs =>
        rw [List.cons_append, List.cons.injEq] at ht
        simp [StringForm.fits, ht.1] at hfits
    simp only [StringForm.write, List.cons_append, List.append_assoc, List.nil_append]
    rw [string?_apostrophe hmarks, literal?_fits hfits]
    rfl
  | basicLines =>
    have hspelled := spelled_escaped 0 cs
    have hread := linesFrom?_of_spelled hspelled (by decide) (by decide) hrest.1
    rw [List.append_assoc] at hread
    simp only [StringForm.write, List.cons_append, List.append_assoc, List.nil_append, string?]
    rw [hread]
    rfl
  | literalLines =>
    have hfits : (∀ c ∈ cs, isControl c = false ∨ c = '\n') ∧ longestRun '\'' 0 cs ≤ 2 := by
      simpa [StringForm.fits, or_iff_not_imp_left] using h
    have hspelled := spelled_self hfits.1 hfits.2
    have hread := linesFrom?_of_spelled hspelled (by decide) (by decide) hrest.2
    rw [List.append_assoc] at hread
    simp only [StringForm.write, List.cons_append, List.append_assoc, List.nil_append, string?]
    rw [hread]
    rfl

theorem string?_writeString (s : String) {rest : List Char} (h : Clear rest) :
    string? ((writeString s).toList ++ rest) = some (s, rest) := by
  rw [writeString, String.toList_ofList, string?_write (choose_fits s.toList) h,
    String.ofList_toList]

end Outline.Toml
