import Outline.Proofs.Json.Scalars
import Outline.Proofs.Toml.Strings
import Outline.Toml.Document

/-!
# Documents of plain lines

A document of lines `key = value`, with bare keys that do not repeat, is read as just these pairs. A
line is an `Entry`: it carries the proof that its text is read as its value, so that what is said of
documents does not depend on the kinds of values.

* `number?_toDigits`: the digits of a number are read as the number, not as a date, a time or a
  fraction.
* `items?_lines`: an array with one string on each line is read item by item.
* `statements?_entries`, `assemble_entries`: the lines of a document, and the table that they make.
* `read?_entries`: a document is read as its entries.
-/
namespace Outline.Toml
open Text

/-- A character of a class is none of those outside it. -/
theorem ne_of_class {isIn : Char → Bool} {c d : Char} (hd : isIn d = true) (hc : isIn c = false) :
    d ≠ c := by
  rintro rfl
  rw [hd] at hc
  cases hc

/-! ## Numbers -/

section Numbers

variable {ds rest : List Char}

theorem moreDigits?_append (hds : ∀ c ∈ ds, isDigit c = true) :
    moreDigits? isDigit (ds ++ '\n' :: rest) = some (ds, '\n' :: rest) := by
  induction ds with
  | nil => rfl
  | cons c ds ih =>
    rw [List.forall_mem_cons] at hds
    have hc : c ≠ '_' := ne_of_class hds.1 (by decide)
    rw [List.cons_append, moreDigits?, if_pos hds.1, ih hds.2]
    · rfl
    · exact fun _ _ h _ => hc h
    · exact fun h _ => hc h

theorem after?_append (hds : ∀ c ∈ ds, isDigit c = true) {mark : Char}
    (hmark : isDigit mark = false) (hline : mark ≠ '\n') :
    after? mark (ds ++ '\n' :: rest) = none := by
  cases ds with
  | nil => exact if_neg hline.symm
  | cons c ds =>
    exact if_neg (ne_of_class (hds c List.mem_cons_self) hmark)

/-- Two digits that are taken from a row of digits leave a row of digits. -/
theorem twoDigits?_append (hds : ∀ c ∈ ds, isDigit c = true) {n : Nat} {t : List Char}
    (h : twoDigits? (ds ++ '\n' :: rest) = some (n, t)) :
    ∃ es, (∀ c ∈ es, isDigit c = true) ∧ t = es ++ '\n' :: rest := by
  have hline : isDigit '\n' = false := by decide
  match ds with
  | [] => cases rest <;> simp [twoDigits?, hline] at h
  | [a] => simp [twoDigits?, hline] at h
  | a :: b :: es =>
    rw [List.forall_mem_cons, List.forall_mem_cons] at hds
    simp only [twoDigits?, List.cons_append, hds.1, hds.2.1, Bool.and_self, if_true,
      Option.some.injEq, Prod.mk.injEq] at h
    exact ⟨es, hds.2.2, h.2.symm⟩

theorem afterDate?_digits (hds : ∀ c ∈ ds, isDigit c = true) :
    afterDate? (ds ++ '\n' :: rest) = none := by
  unfold afterDate?
  cases hcentury : twoDigits? (ds ++ '\n' :: rest) with
  | none => rfl
  | some p =>
    obtain ⟨es, hes, hp⟩ := twoDigits?_append hds hcentury
    cases hyear : twoDigits? (es ++ '\n' :: rest) with
    | none => simp [hp, hyear]
    | some q =>
      obtain ⟨fs, hfs, hq⟩ := twoDigits?_append hes hyear
      have hdash : after? '-' (fs ++ '\n' :: rest) = none :=
        after?_append hfs (by decide) (by decide)
      simp [hp, hyear, hq, hdash]

theorem afterTime?_digits (hds : ∀ c ∈ ds, isDigit c = true) :
    afterTime? (ds ++ '\n' :: rest) = none := by
  unfold afterTime?
  cases hhour : twoDigits? (ds ++ '\n' :: rest) with
  | none => rfl
  | some p =>
    obtain ⟨es, hes, hp⟩ := twoDigits?_append hds hhour
    have hcolon : after? ':' (es ++ '\n' :: rest) = none :=
      after?_append hes (by decide) (by decide)
    simp [hp, hcolon]

theorem natOfDigits_toDigits (n : Nat) : natOfDigits (Nat.toDigits 10 n) = n := by
  have hfold : natOfDigits (Nat.toDigits 10 n) = Nat.ofDigitChars 10 (Nat.toDigits 10 n) 0 := by
    simp only [natOfDigits, Nat.ofDigitChars, digitValue, Nat.mul_comm]
  rw [hfold, Nat.ofDigitChars_ten_toDigits]

theorem isDigit_of_mem_toDigits {n : Nat} {c : Char} (h : c ∈ Nat.toDigits 10 n) :
    isDigit c = true :=
  Nat.isDigit_of_mem_toDigits (by decide) (by decide) h

/-- The digits of a number: one zero, or a first digit that is none. -/
theorem toDigits_cases (n : Nat) :
    Nat.toDigits 10 n = ['0'] ∨
      ∃ d ds, Nat.toDigits 10 n = d :: ds ∧ isDigit d = true ∧ d ≠ '0' := by
  rcases Nat.eq_zero_or_pos n with rfl | hn
  · exact .inl rfl
  · have hhead := Json.head?_toDigits_ne_zero hn
    cases hds : Nat.toDigits 10 n with
    | nil => exact absurd hds Nat.toDigits_ne_nil
    | cons d ds =>
      rw [hds] at hhead
      have hd : d ∈ Nat.toDigits 10 n := hds ▸ List.mem_cons_self
      exact .inr ⟨d, ds, rfl, isDigit_of_mem_toDigits hd, by simpa using hhead⟩

theorem sign_toDigits (n : Nat) :
    sign (Nat.toDigits 10 n ++ '\n' :: rest) = (none, Nat.toDigits 10 n ++ '\n' :: rest) := by
  rcases toDigits_cases n with h | ⟨d, ds, h, hd, -⟩
  · rw [h]
    rfl
  · rw [h, List.cons_append, sign]
    · exact fun _ h => ne_of_class hd (by decide) (List.cons.inj h).1
    · exact fun _ h => ne_of_class hd (by decide) (List.cons.inj h).1

theorem whole?_toDigits (n : Nat) :
    whole? (Nat.toDigits 10 n ++ '\n' :: rest) = some (Nat.toDigits 10 n, '\n' :: rest) := by
  have hread : moreDigits? isDigit (Nat.toDigits 10 n ++ '\n' :: rest) =
      some (Nat.toDigits 10 n, '\n' :: rest) :=
    moreDigits?_append fun _ => isDigit_of_mem_toDigits
  rcases toDigits_cases n with h | ⟨d, ds, h, hd, hzero⟩
  · rw [h]
    rfl
  · rw [h] at hread ⊢
    rw [List.cons_append] at hread ⊢
    rw [whole?, digits?, hread]
    · simp [hd]
    · exact fun _ h => hzero (List.cons.inj h).1

theorem isPrefixOf?_cons_of_ne {c d : Char} (h : c ≠ d) (word t : List Char) :
    (c :: word).isPrefixOf? (d :: t) = none :=
  if_neg (by simpa using h)

theorem fraction?_toDigits (n : Nat) : fraction? (Nat.toDigits 10 n ++ '\n' :: rest) = none := by
  have hspecial : special? (Nat.toDigits 10 n ++ '\n' :: rest) = none := by
    rcases toDigits_cases n with h | ⟨d, ds, h, hd, -⟩
    · rw [h]
      rfl
    · have hi : 'i' ≠ d := (ne_of_class hd (by decide)).symm
      have hn : 'n' ≠ d := (ne_of_class hd (by decide)).symm
      simp [h, special?, isPrefixOf?_cons_of_ne, hi, hn]
  simp [fraction?, sign_toDigits, hspecial, whole?_toDigits, exponent?]

theorem inBounds?_ofNat {n : Nat} (hn : n < signedBound) :
    inBounds? (n : Int) = some (n : Int) := by
  have hlow : -(signedBound : Int) ≤ n :=
    Int.le_trans (Int.neg_nonpos_of_nonneg (Int.natCast_nonneg _)) (Int.natCast_nonneg n)
  rw [inBounds?, if_pos ⟨hlow, Int.ofNat_lt.mpr hn⟩]

theorem integer?_toDigits {n : Nat} (hn : n < signedBound) :
    integer? (Nat.toDigits 10 n ++ '\n' :: rest) = some ((n : Int), '\n' :: rest) := by
  have hplain : ∀ c t, c ≠ '\n' → Nat.toDigits 10 n ++ '\n' :: rest ≠ '0' :: c :: t := by
    intro c t hc heq
    rcases toDigits_cases n with h | ⟨d, ds, h, -, hzero⟩
    · rw [h] at heq
      simp [hc.symm] at heq
    · rw [h] at heq
      exact hzero (List.cons.inj heq).1
  rw [integer?, sign_toDigits]
  · refine Option.bind_eq_some_iff.mpr ⟨_, whole?_toDigits n, ?_⟩
    refine Option.bind_eq_some_iff.mpr ⟨n, ?_, rfl⟩
    rw [← inBounds?_ofNat hn]
    exact congrArg (fun m : Nat => inBounds? m) (natOfDigits_toDigits n)
  · exact fun _ h => hplain _ _ (by decide) h
  · exact fun _ h => hplain _ _ (by decide) h
  · exact fun _ h => hplain _ _ (by decide) h

theorem number?_toDigits {n : Nat} (hn : n < signedBound) :
    number? (Nat.toDigits 10 n ++ '\n' :: rest) = some (.integer n, '\n' :: rest) := by
  have hdate : afterDate? (Nat.toDigits 10 n ++ '\n' :: rest) = none :=
    afterDate?_digits fun _ => isDigit_of_mem_toDigits
  have htime : afterTime? (Nat.toDigits 10 n ++ '\n' :: rest) = none :=
    afterTime?_digits fun _ => isDigit_of_mem_toDigits
  simp [number?, moment?, hdate, htime, fraction?_toDigits, integer?_toDigits hn]

end Numbers

/-! ## Values -/

/-- A text stands for a value at the end of a line. -/
structure Reads (value : Value) (text : String) : Prop where
  starts : text.toList.head?.all (!isSpace ·)
  read : ∀ rest, value? (depthLimit - 1) (text.toList ++ '\n' :: rest) = some (value, '\n' :: rest)

theorem value?_of_scalar {c : Char} {cs : List Char} (hbracket : c ≠ '[') (hbrace : c ≠ '\x7b')
    (depth : Nat) : value? depth (c :: cs) = scalar? (c :: cs) := by
  cases depth with
  | zero => rfl
  | succ depth =>
    rw [value?]
    · exact fun _ h => hbracket (List.cons.inj h).1
    · exact fun _ h => hbrace (List.cons.inj h).1

/-- A written string starts with one of the marks. -/
theorem writeString_head (s : String) :
    ∃ c cs, (writeString s).toList = c :: cs ∧ (c = '"' ∨ c = '\'') := by
  rw [writeString, String.toList_ofList]
  cases StringForm.choose s.toList with
  | basic => exact ⟨'"', _, rfl, .inl rfl⟩
  | literal => exact ⟨'\'', _, rfl, .inr rfl⟩
  | basicLines => exact ⟨'"', _, rfl, .inl rfl⟩
  | literalLines => exact ⟨'\'', _, rfl, .inr rfl⟩

theorem value?_writeString (s : String) {rest : List Char} (hrest : Clear rest) (depth : Nat) :
    value? depth ((writeString s).toList ++ rest) = some (.string s, rest) := by
  have hread := string?_writeString s hrest
  obtain ⟨c, cs, h, hc⟩ := writeString_head s
  rw [h] at hread ⊢
  rw [List.cons_append] at hread ⊢
  rcases hc with rfl | rfl
  · rw [value?_of_scalar (by decide) (by decide), scalar?, hread]
    rfl
  · rw [value?_of_scalar (by decide) (by decide), scalar?, hread]
    rfl

theorem reads_writeString (s : String) : Reads (.string s) (writeString s) := by
  refine ⟨?_, fun rest => value?_writeString s (by simp [Clear]) _⟩
  obtain ⟨c, cs, h, rfl | rfl⟩ := writeString_head s <;> rw [h] <;> rfl

theorem reads_toString {n : Nat} (hn : n < signedBound) : Reads (.integer n) (toString n) := by
  have htext : (toString n).toList = Nat.toDigits 10 n := Json.numberText_eq n
  obtain ⟨d, ds, hds, hd⟩ : ∃ d ds, Nat.toDigits 10 n = d :: ds ∧ isDigit d = true := by
    rcases toDigits_cases n with h | ⟨d, ds, h, hd, -⟩
    · exact ⟨'0', [], h, rfl⟩
    · exact ⟨d, ds, h, hd⟩
  refine ⟨?_, fun rest => ?_⟩
  · have hspace : d ≠ ' ' := ne_of_class hd (by decide)
    have htab : d ≠ '\t' := ne_of_class hd (by decide)
    simp [hds, isSpace, hspace, htab]
  · have hread : number? (Nat.toDigits 10 n ++ '\n' :: rest) = some (.integer n, '\n' :: rest) :=
      number?_toDigits hn
    rw [hds, List.cons_append] at hread
    rw [htext, hds, List.cons_append, value?_of_scalar (ne_of_class hd (by decide))
      (ne_of_class hd (by decide)), scalar?, hread]
    all_goals exact fun _ h => ne_of_class hd (by decide) (List.cons.inj h).1

theorem reads_boolean (b : Bool) : Reads (.boolean b) (if b then "true" else "false") := by
  cases b
  · exact ⟨rfl, fun _ => rfl⟩
  · exact ⟨rfl, fun _ => rfl⟩

/-! ## Arrays -/

theorem skipLines_cons {c : Char} (hspace : isSpace c = false) (hline : c ≠ '\n')
    (hreturn : c ≠ '\r') (hcomment : c ≠ '#') (t : List Char) : skipLines (c :: t) = c :: t := by
  rw [skipLines]
  · simp [hspace, hline, hcomment]
  · exact fun _ h _ => hreturn h

theorem skipLines_space (t : List Char) : skipLines (' ' :: t) = skipLines t := by
  rw [skipLines, if_pos (by decide)]
  exact fun _ h => absurd h (by decide)

theorem skipLines_newline (t : List Char) : skipLines ('\n' :: t) = skipLines t := by
  rw [skipLines, if_pos (by decide)]
  exact fun _ h => absurd h (by decide)

theorem skipLines_writeString (s : String) (t : List Char) :
    skipLines ((writeString s).toList ++ t) = (writeString s).toList ++ t := by
  obtain ⟨c, cs, h, rfl | rfl⟩ := writeString_head s <;> rw [h, List.cons_append]
  · exact skipLines_cons rfl (by decide) (by decide) (by decide) _
  · exact skipLines_cons rfl (by decide) (by decide) (by decide) _

theorem value?_bracket (depth : Nat) (cs : List Char) :
    value? (depth + 1) ('[' :: cs) =
      (items? (value? depth) (cs.length + 1) cs).map fun (vs, rest) => (.array vs, rest) := by
  rw [value?]

/-- A string on a line of its own in an array. -/
def itemLine (s : String) : List Char :=
  ' ' :: ' ' :: ' ' :: ' ' :: (writeString s).toList ++ [',', '\n']

/-- Fuel of one more than there are characters is enough for pieces that are not empty. -/
theorem length_le_flatMap {α : Type} {write : α → List Char} (h : ∀ a, write a ≠ [])
    (as : List α) : as.length ≤ (as.flatMap write).length := by
  induction as with
  | nil => exact Nat.le_refl 0
  | cons a as ih =>
    have ha := List.length_pos_iff.mpr (h a)
    rw [List.flatMap_cons, List.length_append, List.length_cons]
    omega

section Items

variable {value : Reader Value} {v : Value} {cs rest t : List Char}

theorem items?_last (hopen : ∀ t, skipLines cs ≠ ']' :: t)
    (hv : value (skipLines cs) = some (v, rest)) (hrest : skipLines rest = ']' :: t) (fuel : Nat) :
    items? value (fuel + 1) cs = some ([v], t) := by
  rw [items?]
  split
  · rename_i heq
    exact absurd heq (hopen _)
  · simp [hv, hrest]

theorem items?_more (hopen : ∀ t, skipLines cs ≠ ']' :: t)
    (hv : value (skipLines cs) = some (v, rest)) (hrest : skipLines rest = ',' :: t) (fuel : Nat) :
    items? value (fuel + 1) cs = (items? value fuel t).map fun (vs, t) => (v :: vs, t) := by
  rw [items?]
  split
  · rename_i heq
    exact absurd heq (hopen _)
  · cases h : items? value fuel t <;> simp [hv, hrest, h]

end Items

theorem writeString_ne_close (s : String) (cs t : List Char) :
    (writeString s).toList ++ cs ≠ ']' :: t := by
  obtain ⟨c, cs, h, rfl | rfl⟩ := writeString_head s <;> simp [h]

theorem items?_lines (ss : List String) (depth : Nat) {fuel : Nat} (h : ss.length < fuel)
    (rest : List Char) :
    items? (value? depth) fuel ('\n' :: (ss.flatMap itemLine ++ ']' :: rest)) =
      some (ss.map .string, rest) := by
  induction ss generalizing fuel with
  | nil =>
    obtain ⟨fuel, rfl⟩ : ∃ k, fuel = k + 1 := ⟨fuel - 1, by simp at h; omega⟩
    rw [items?, List.flatMap_nil, List.nil_append, skipLines_newline,
      skipLines_cons rfl (by decide) (by decide) (by decide)]
    rfl
  | cons s ss ih =>
    obtain ⟨fuel, rfl⟩ : ∃ k, fuel = k + 1 := ⟨fuel - 1, by simp at h; omega⟩
    have ih : items? (value? depth) fuel ('\n' :: (ss.flatMap itemLine ++ ']' :: rest)) = _ :=
      ih (by simpa using h)
    have hskip : skipLines ('\n' :: ((s :: ss).flatMap itemLine ++ ']' :: rest)) =
        (writeString s).toList ++ ',' :: '\n' :: (ss.flatMap itemLine ++ ']' :: rest) := by
      rw [← skipLines_writeString]
      simp only [itemLine, List.flatMap_cons, List.cons_append, List.append_assoc, List.nil_append,
        skipLines_newline, skipLines_space]
    have hclear : Clear (',' :: '\n' :: (ss.flatMap itemLine ++ ']' :: rest)) := by simp [Clear]
    have hread := value?_writeString s hclear depth
    rw [← hskip] at hread
    rw [items?_more (by rw [hskip]; exact writeString_ne_close s _) hread
      (skipLines_cons rfl (by decide) (by decide) (by decide) _), ih]
    rfl

/-! ## Entries -/

def IsBare (key : String) : Prop := key ≠ "" ∧ key.toList.all isBareKeyChar = true

instance (key : String) : Decidable (IsBare key) := inferInstanceAs (Decidable (_ ∧ _))

/-- A line of a document: a bare key and a text that is read as a value. -/
structure Entry where
  key : String
  value : Value
  text : String
  bare : IsBare key
  reads : Reads value text

namespace Entry

def line (e : Entry) : List Char := e.key.toList ++ ' ' :: '=' :: ' ' :: e.text.toList ++ ['\n']

def pair (e : Entry) : String × Value := (e.key, e.value)

end Entry

theorem isSpace_of_isBareKeyChar {c : Char} (h : isBareKeyChar c = true) : isSpace c = false := by
  simp [isSpace, ne_of_class h (show isBareKeyChar ' ' = false by decide),
    ne_of_class h (show isBareKeyChar '\t' = false by decide)]

theorem IsBare.head {key : String} (h : IsBare key) :
    ∃ c cs, key.toList = c :: cs ∧ isBareKeyChar c = true := by
  cases hkey : key.toList with
  | nil => exact absurd (String.toList_eq_nil_iff.mp hkey) h.1
  | cons c cs => exact ⟨c, cs, rfl, List.all_eq_true.mp h.2 c (hkey ▸ List.mem_cons_self)⟩

theorem Entry.line_head (e : Entry) : ∃ c cs, e.line = c :: cs ∧ isBareKeyChar c = true := by
  obtain ⟨c, cs, hkey, hc⟩ := e.bare.head
  exact ⟨c, _, by rw [line, hkey]; rfl, hc⟩

theorem skipSpace_cons {c : Char} (h : isSpace c = false) (t : List Char) :
    skipSpace (c :: t) = c :: t := by
  rw [skipSpace, List.dropWhile_cons_of_neg (by simp [h])]

theorem keyPart?_bare {key : String} (h : IsBare key) {c : Char} (hc : isBareKeyChar c = false)
    (t : List Char) : keyPart? (key.toList ++ c :: t) = some (key, c :: t) := by
  have hall := List.all_eq_true.mp h.2
  have hspan : (key.toList ++ c :: t).span isBareKeyChar = (key.toList, c :: t) := by
    rw [List.span_eq_takeWhile_dropWhile, List.takeWhile_append_of_pos hall,
      List.dropWhile_append_of_pos hall, List.takeWhile_cons_of_neg (by simp [hc]),
      List.dropWhile_cons_of_neg (by simp [hc]), List.append_nil]
  obtain ⟨d, ds, hkey, hd⟩ := h.head
  have hquote := ne_of_class hd (show isBareKeyChar '"' = false by decide)
  have hapostrophe := ne_of_class hd (show isBareKeyChar '\'' = false by decide)
  rw [keyPart?, hspan]
  · simp only [hkey]
    rw [← hkey, String.ofList_toList]
  · exact fun _ h => hquote (by simp_all)
  · exact fun _ h => hapostrophe (by simp_all)

theorem key?_bare {key : String} (h : IsBare key) (limit : Nat) (t : List Char) :
    key? (limit + 2) (key.toList ++ ' ' :: '=' :: t) = some ([key], '=' :: t) := by
  have hpart : keyPart? (skipSpace (key.toList ++ ' ' :: '=' :: t)) =
      some (key, ' ' :: '=' :: t) := by
    obtain ⟨c, cs, hkey, hc⟩ := h.head
    have hpart := keyPart?_bare h (show isBareKeyChar ' ' = false by decide) ('=' :: t)
    rw [hkey] at hpart ⊢
    rwa [List.cons_append, skipSpace_cons (isSpace_of_isBareKeyChar hc)]
  rw [key?, hpart]
  · rfl
  · exact Nat.succ_ne_zero limit

theorem statement?_entry (e : Entry) (t : List Char) :
    statement? (e.line ++ t) = some (.pair [e.key] e.value, t) := by
  have hline : e.line ++ t = e.key.toList ++ ' ' :: '=' :: ' ' :: (e.text.toList ++ '\n' :: t) := by
    simp [Entry.line]
  have hskip : skipSpace (' ' :: (e.text.toList ++ '\n' :: t)) = e.text.toList ++ '\n' :: t := by
    have hstarts := e.reads.starts
    rw [skipSpace, List.dropWhile_cons_of_pos rfl]
    cases h : e.text.toList with
    | nil => rfl
    | cons c cs =>
      rw [h] at hstarts
      exact skipSpace_cons (by simpa using hstarts) _
  have hpair : pair? (value? (depthLimit - 1)) (e.line ++ t) =
      some (([e.key], e.value), '\n' :: t) := by
    have hkey := key?_bare e.bare 78 (' ' :: (e.text.toList ++ '\n' :: t))
    have hvalue := e.reads.read t
    rw [hline, pair?, show depthLimit = 78 + 2 from rfl, hkey]
    simp only [Option.bind_eq_bind, Option.bind_some, after?, if_true, hskip]
    rw [show 78 + 2 = depthLimit from rfl, hvalue]
    rfl
  obtain ⟨c, cs, hhead, hc⟩ := e.line_head
  rw [statement?, hpair]
  · rfl
  · exact fun _ h => ne_of_class hc (by decide) (List.cons.inj (hhead ▸ h)).1
  · exact fun _ h => ne_of_class hc (by decide) (List.cons.inj (hhead ▸ h)).1

theorem statements?_entries (es : List Entry) {fuel : Nat} (h : es.length < fuel) :
    statements? fuel (es.flatMap Entry.line) =
      some (es.map fun e => .pair [e.key] e.value) := by
  induction es generalizing fuel with
  | nil =>
    obtain ⟨fuel, rfl⟩ : ∃ k, fuel = k + 1 := ⟨fuel - 1, by simp at h; omega⟩
    rfl
  | cons e es ih =>
    obtain ⟨fuel, rfl⟩ : ∃ k, fuel = k + 1 := ⟨fuel - 1, by simp at h; omega⟩
    have ih : statements? fuel (es.flatMap Entry.line) = _ := ih (by simpa using h)
    obtain ⟨c, cs, hhead, hc⟩ := e.line_head
    have hskip : skipLines (e.line ++ es.flatMap Entry.line) = e.line ++ es.flatMap Entry.line := by
      rw [hhead]
      exact skipLines_cons (isSpace_of_isBareKeyChar hc) (ne_of_class hc (by decide))
        (ne_of_class hc (by decide)) (ne_of_class hc (by decide)) _
    rw [List.flatMap_cons, statements?, hskip]
    split
    · rename_i heq
      rw [hhead] at heq
      cases heq
    · simp [statement?_entry, ih]

theorem assemble_entries {es : List Entry} (h : (es.map Entry.key).Nodup) :
    assemble (es.map fun e => .pair [e.key] e.value) = some (es.map Entry.pair) := by
  have hfold : ∀ (es : List Entry) (ms : Members), (ms.map Prod.fst ++ es.map Entry.key).Nodup →
      (es.map fun e => .pair [e.key] e.value).foldlM Assembly.say { root := ms } =
        some { root := ms ++ es.map Entry.pair } := by
    intro es
    induction es with
    | nil => simp
    | cons e es ih =>
      intro ms hms
      have hlookup : ms.lookup e.key = none := by
        rw [List.lookup_eq_none_iff]
        intro m hm
        have hkey := (List.nodup_append.mp hms).2.2 m.1 (List.mem_map_of_mem hm) e.key (by simp)
        simpa using hkey.symm
      have hsay : Assembly.say { root := ms } (.pair [e.key] e.value) =
          some { root := ms ++ [e.pair] } := by
        simp [Assembly.say, Members.changeAt, Members.add, hlookup, Entry.pair]
      rw [List.map_cons, List.foldlM_cons, hsay]
      have := ih (ms ++ [e.pair]) (by simpa [Entry.pair] using hms)
      simpa using this
  rw [assemble, hfold es [] (by simpa using h)]
  rfl

theorem read?_entries {es : List Entry} (h : (es.map Entry.key).Nodup) {text : String}
    (htext : text.toList = es.flatMap Entry.line) : read? text = some (es.map Entry.pair) := by
  have hread : statements? ((es.flatMap Entry.line).length + 1) (es.flatMap Entry.line) =
      some (es.map fun e => .pair [e.key] e.value) := by
    refine statements?_entries es (Nat.lt_succ_of_le (length_le_flatMap (fun e => ?_) es))
    obtain ⟨c, cs, hhead, -⟩ := e.line_head
    simp [hhead]
  rw [read?, htext]
  split
  · rename_i rest heq
    cases es with
    | nil => cases heq
    | cons e es =>
      obtain ⟨c, cs, hhead, hc⟩ := e.line_head
      rw [List.flatMap_cons, hhead] at heq
      exact absurd (List.cons.inj heq).1 (ne_of_class hc (by decide))
  · simp only [hread, Option.bind_eq_bind, Option.bind_some, assemble_entries h]

end Outline.Toml
