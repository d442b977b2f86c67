import Mathlib.Data.List.TakeDrop
import Outline.Json.Decode
import Outline.Json.Value

/-!
# Strings and numbers in JSON texts

What is written for a string or a number is read back, whatever comes after it. A string ends at its
closing mark, so nothing is asked of what follows. A numeral has no such mark: it ends before a
character that cannot go on with it (`Ends`).

* `stringPieces?_escapeChar`: a character is read as one piece, be it escaped or not.
* `string?_escape`: a written string is read as itself.
* `numeral?_numberText`, `number?_ofNat`: a written number is read as its digits, and these stand
  for the number if it has 64 bits.
-/
namespace Outline.Json
open Text

/-! ## Strings -/

/-- What is read when one more piece comes first. -/
def before (p : Piece) (r : Option (List Piece × List Char)) : Option (List Piece × List Char) :=
  r.map fun (ps, rest) => (p :: ps, rest)

theorem stringPieces?_short {e c : Char} (h : escaped? e = some c) (t : List Char) :
    stringPieces? ('\\' :: e :: t) = before (.char c) (stringPieces? t) := by
  have hu : e ≠ 'u' := by
    rintro rfl
    cases h
  rw [stringPieces?, h]
  · cases stringPieces? t <;> rfl
  · exact fun _ _ _ _ _ he _ => hu he

theorem hexNat?_control : ∀ n, n < 0x20 →
    hexNat? ['0', '0', hexDigit (n / 16), hexDigit n] = some n := by
  decide

theorem stringPieces?_control {n : Nat} (h : n < 0x20) (t : List Char) :
    stringPieces? ('\\' :: 'u' :: '0' :: '0' :: hexDigit (n / 16) :: hexDigit n :: t) =
      before (.unit n) (stringPieces? t) := by
  rw [stringPieces?, hexNat?_control n h]
  cases stringPieces? t <;> rfl

theorem stringPieces?_plain {c : Char} (hquote : c ≠ '"') (hslash : c ≠ '\\')
    (hc : ¬ c.toNat < 0x20) (t : List Char) :
    stringPieces? (c :: t) = before (.char c) (stringPieces? t) := by
  rw [stringPieces?, if_neg (by simp [hc, hslash])]
  · cases stringPieces? t <;> rfl
  · exact fun h => hquote h
  · exact fun _ _ _ _ _ h _ => hslash h
  · exact fun _ _ h _ => hslash h

/-- A piece that stands for a character: the character itself, or its number if it is one of those
that are written by number. -/
def Piece.Shows (p : Piece) (c : Char) : Prop := p = .char c ∨ (p = .unit c.toNat ∧ c.toNat < 0x20)

theorem stringPieces?_escapeChar (c : Char) (t : List Char) :
    ∃ p : Piece, p.Shows c ∧ stringPieces? (escapeChar c ++ t) = before p (stringPieces? t) := by
  have hshort : ∀ {e : Char}, escaped? e = some c → ∃ p : Piece, p.Shows c ∧
      stringPieces? ('\\' :: e :: t) = before p (stringPieces? t) :=
    fun h => ⟨.char c, Or.inl rfl, stringPieces?_short h t⟩
  unfold escapeChar
  split
  · rename_i h
    exact hshort (by rcases h with rfl | rfl <;> rfl)
  -- the five control characters with a letter of their own
  split
  · subst_vars; exact hshort rfl
  split
  · subst_vars; exact hshort rfl
  split
  · subst_vars; exact hshort rfl
  split
  · subst_vars; exact hshort rfl
  split
  · subst_vars; exact hshort rfl
  split
  · rename_i hc
    exact ⟨.unit c.toNat, Or.inr ⟨rfl, hc⟩, stringPieces?_control hc t⟩
  · rename_i hplain _ _ _ _ _ hc
    rw [not_or] at hplain
    exact ⟨.char c, Or.inl rfl, stringPieces?_plain hplain.1 hplain.2 hc t⟩

/-- A number below the surrogates stands for its character, also if another number follows. -/
theorem piecesText?_unit {n : Nat} (h : n < 0x20) (ps : List Piece) :
    piecesText? (.unit n :: ps) = (Char.ofNat n :: ·) <$> piecesText? ps := by
  have hhigh : isHigh n = false := by simp [isHigh]; omega
  have hlow : isLow n = false := by simp [isLow]; omega
  rw [piecesText?.eq_def]
  split <;> simp_all

theorem piecesText?_cons {p : Piece} {c : Char} (h : p.Shows c) (ps : List Piece) :
    piecesText? (p :: ps) = (c :: ·) <$> piecesText? ps := by
  rcases h with rfl | ⟨rfl, hc⟩
  · rw [piecesText?]
  · rw [piecesText?_unit hc, Char.ofNat_toNat]

theorem stringPieces?_escape (cs rest : List Char) :
    ∃ ps, stringPieces? (cs.flatMap escapeChar ++ '"' :: rest) = some (ps, rest) ∧
      piecesText? ps = some cs := by
  induction cs with
  | nil => exact ⟨[], by simp [stringPieces?], by simp [piecesText?]⟩
  | cons c cs ih =>
    obtain ⟨ps, hps, htext⟩ := ih
    obtain ⟨p, hp, hread⟩ := stringPieces?_escapeChar c (cs.flatMap escapeChar ++ '"' :: rest)
    refine ⟨p :: ps, ?_, ?_⟩
    · rw [List.flatMap_cons, List.append_assoc, hread, hps]
      rfl
    · rw [piecesText?_cons hp, htext]
      rfl

/-- What stands after the opening mark of a written string is read as the string. -/
theorem string?_escape (s : String) (rest : List Char) :
    string? (s.toList.flatMap escapeChar ++ '"' :: rest) = some (some s, rest) := by
  obtain ⟨ps, hps, htext⟩ := stringPieces?_escape s.toList rest
  simp [string?, hps, htext]

/-! ## Numerals -/

/-- What follows does not go on with a numeral. -/
def Ends (rest : List Char) : Prop :=
  ∀ c ∈ rest.head?, isDigit c = false ∧ c ≠ '.' ∧ c ≠ 'e' ∧ c ≠ 'E'

theorem digits_append {ds rest : List Char} (hds : ∀ c ∈ ds, isDigit c = true) (h : Ends rest) :
    digits (ds ++ rest) = (ds, rest) := by
  have htake : rest.takeWhile isDigit = [] := by
    cases rest with
    | nil => rfl
    | cons c rest => simp [(h c rfl).1]
  have hdrop : rest.dropWhile isDigit = rest := by
    cases rest with
    | nil => rfl
    | cons c rest => simp [(h c rfl).1]
  rw [digits, List.span_eq_takeWhile_dropWhile, List.takeWhile_append_of_pos hds,
    List.dropWhile_append_of_pos hds, htake, hdrop, List.append_nil]

theorem exponent?_of_ends {rest : List Char} (h : Ends rest) :
    exponent? rest = some (none, rest) := by
  cases rest with
  | nil => rfl
  | cons c rest =>
    have hc := h c rfl
    simp [exponent?, hc]

theorem numberText_eq (n : Nat) : numberText n = Nat.toDigits 10 n := by
  simp [numberText]

theorem isDigit_of_mem_numberText {n : Nat} {c : Char} (h : c ∈ numberText n) :
    isDigit c = true := by
  rw [numberText_eq] at h
  exact Nat.isDigit_of_mem_toDigits (by decide) (by decide) h

theorem numberText_ne_nil (n : Nat) : numberText n ≠ [] := by
  rw [numberText_eq]
  exact Nat.toDigits_ne_nil

/-- A number above zero is written without a zero in front. -/
theorem head?_toDigits_ne_zero {n : Nat} (h : 0 < n) : (Nat.toDigits 10 n).head? ≠ some '0' := by
  induction n using Nat.strongRecOn with
  | ind n ih =>
    by_cases hn : n < 10
    · have hdigit : ∀ m, m < 10 → 0 < m → m.digitChar ≠ '0' := by decide
      rw [Nat.toDigits_of_lt_base hn]
      simpa using hdigit n hn h
    · rw [Nat.toDigits_of_base_le (by decide) (by omega), List.head?_append]
      have hhead := ih (n / 10) (by omega) (by omega)
      cases hds : Nat.toDigits 10 (n / 10) with
      | nil => exact absurd hds Nat.toDigits_ne_nil
      | cons d ds =>
        rw [hds] at hhead
        exact hhead

theorem numberText_ne_zero_cons (n : Nat) (c : Char) (cs : List Char) :
    numberText n ≠ '0' :: c :: cs := by
  rw [numberText_eq]
  intro h
  rcases Nat.eq_zero_or_pos n with rfl | hn
  · simp at h
  · exact head?_toDigits_ne_zero hn (by rw [h]; rfl)

/-- The numeral that is written for a number. -/
def Numeral.ofNat (n : Nat) : Numeral := { negative := false, whole := numberText n }

theorem numeral?_numberText (n : Nat) {rest : List Char} (h : Ends rest) :
    numeral? false (numberText n ++ rest) = some (.ofNat n, rest) := by
  have hdigits : digits (numberText n ++ rest) = (numberText n, rest) :=
    digits_append (fun _ => isDigit_of_mem_numberText) h
  rw [numeral?, hdigits]
  split
  · rename_i heq
    exact absurd (congrArg Prod.fst heq) (numberText_ne_nil n)
  · rename_i heq
    exact absurd (congrArg Prod.fst heq) (numberText_ne_zero_cons n _ _)
  · dsimp only [Option.bind_eq_bind, Option.bind_some]
    split
    · exact absurd rfl (h '.' rfl).2.1
    · simp [exponent?_of_ends h, Numeral.ofNat]

theorem leading_eq (ds : List Char) (v : Nat) (h : Nat.ofDigitChars 10 ds v < wordBound) :
    leading v ds = (Nat.ofDigitChars 10 ds v, []) := by
  induction ds generalizing v with
  | nil => simp [leading]
  | cons c ds ih =>
    have hstep : v * 10 + digitValue c = 10 * v + (c.toNat - '0'.toNat) := by
      rw [digitValue]
      omega
    rw [Nat.ofDigitChars_cons] at h ⊢
    -- the digits that follow never make the number smaller
    have hle : 10 * v + (c.toNat - '0'.toNat) ≤
        Nat.ofDigitChars 10 ds (10 * v + (c.toNat - '0'.toNat)) := by
      rw [Nat.ofDigitChars_eq_ofDigitChars_zero]
      exact Nat.le_add_right_of_le (Nat.le_mul_of_pos_left _ (Nat.pow_pos (by decide)))
    rw [leading, hstep]
    simp only [if_pos (Nat.lt_of_le_of_lt hle h)]
    exact ih _ h

theorem number?_ofNat {n : Nat} (h : n < wordBound) :
    (Numeral.ofNat n).number? = some (.natural n) := by
  have hvalue : Nat.ofDigitChars 10 (numberText n) 0 = n := by
    rw [numberText_eq, Nat.ofDigitChars_ten_toDigits]
  have hleading : leading 0 (numberText n) = (n, []) := by
    rw [leading_eq _ _ (by rw [hvalue]; exact h), hvalue]
  simp [Numeral.ofNat, Numeral.number?, Numeral.parts, hleading, leading]

/-! ## Scalars -/

theorem scalar?_null (rest : List Char) :
    scalar? ("null".toList ++ rest) = some (.null, some rest) := rfl

theorem scalar?_boolText (b : Bool) (rest : List Char) :
    scalar? (boolText b ++ rest) = some (.bool b, some rest) := by
  cases b <;> rfl

theorem scalar?_numberText (n : Nat) {rest : List Char} (h : Ends rest) :
    scalar? (numberText n ++ rest) = some (.number (.ofNat n), some rest) := by
  have hread := numeral?_numberText n h
  cases hn : numberText n with
  | nil => exact absurd hn (numberText_ne_nil n)
  | cons d ds =>
    -- a digit is none of the characters with which another value starts
    have hne : ∀ c, isDigit c = false → d ≠ c := by
      rintro c hc rfl
      have hd : isDigit d = true := isDigit_of_mem_numberText (hn ▸ List.mem_cons_self)
      rw [hd] at hc
      cases hc
    rw [hn] at hread
    rw [List.cons_append] at hread ⊢
    rw [scalar?]
    · simp only [hne '-' (by decide), hread]
      rfl
    · exact hne 'n' (by decide)
    · exact hne 't' (by decide)
    · exact hne 'f' (by decide)
    · exact hne '"' (by decide)
    · exact hne '[' (by decide)
    · exact hne '\x7b' (by decide)

theorem scalar?_stringText (s : String) (rest : List Char) :
    scalar? (stringText s ++ rest) = some (.string (some s), some rest) := by
  simp only [stringText, List.cons_append, List.append_assoc, List.nil_append, scalar?,
    string?_escape]

end Outline.Json
