import Mathlib.Data.List.DropRight
import Outline.Proofs.Json.Scalars

/-!
# Layouts of JSON texts

A value can be laid out in many ways: blanks may stand around every item, key and value. The
grammar of these texts is an inductive predicate (`Spelled`), of which the compact and the indented
layout are two cases. The reader does not care which one it meets: it reads every text of a value as
the same document (`Value.toDoc`).

The grammar has three sorts of phrases, a value, the items of an array and the members of an object,
the latter two up to and including the closing bracket. They are the cases of one predicate, so
that the proof about the reader is one induction.

* `spelled_compactChars`, `spelled_prettyChars`: both layouts are texts of the value.
* `reads_of_spelled`: with fuel for twice the length, the reader takes a phrase and stops behind it.
* `read_spelled`: a text with nothing but blanks behind the value is read as a complete document.
-/
namespace Outline.Json

/-! ## Documents of values -/

mutual

/-- What a text of a value is read as. -/
def Value.toDoc : Value → Doc
  | .null => .null
  | .bool b => .bool b
  | .number n => .number (.ofNat n)
  | .string s => .string (some s)
  | .array items => .array (Value.toDocs items) true
  | .object members => .object (Value.toMembers members) true

def Value.toDocs : List Value → List Doc
  | [] => []
  | v :: vs => v.toDoc :: Value.toDocs vs

def Value.toMembers : List (String × Value) → List (Key × Doc)
  | [] => []
  | (k, v) :: ms => (.text (some k), v.toDoc) :: Value.toMembers ms

end

/-! ## Blanks -/

def Blank (cs : List Char) : Prop := ∀ c ∈ cs, isBlank c = true

theorem blank_nil : Blank [] := fun _ h => by cases h

theorem skipBlanks_append {a : List Char} (ha : Blank a) (t : List Char) :
    skipBlanks (a ++ t) = skipBlanks t := List.dropWhile_append_of_pos ha

theorem skipBlanks_cons {c : Char} (hc : isBlank c = false) (t : List Char) :
    skipBlanks (c :: t) = c :: t := by
  rw [skipBlanks, List.dropWhile_cons_of_neg (by simp [hc])]

/-- Blanks and then a character that ends a value. -/
theorem skipBlanks_append_cons {a : List Char} (ha : Blank a) {c : Char} (hc : isBlank c = false)
    (t : List Char) : skipBlanks (a ++ c :: t) = c :: t := by
  rw [skipBlanks_append ha, skipBlanks_cons hc]

theorem ends_of_blank {a : List Char} (ha : Blank a) {rest : List Char} (h : Ends rest) :
    Ends (a ++ rest) := by
  cases a with
  | nil => exact h
  | cons b a =>
    intro c hc
    cases hc
    have hb : isBlank b = true := ha b List.mem_cons_self
    simp only [isBlank, Bool.or_eq_true, beq_iff_eq] at hb
    rcases hb with ((rfl | rfl) | rfl) | rfl <;> decide

theorem ends_cons {c : Char} (h : Text.isDigit c = false ∧ c ≠ '.' ∧ c ≠ 'e' ∧ c ≠ 'E')
    (t : List Char) : Ends (c :: t) := by
  intro d hd
  cases hd
  exact h

/-- A text with perhaps some blanks on both sides. -/
def Padded (cs ds : List Char) : Prop := ∃ a b, Blank a ∧ Blank b ∧ ds = a ++ cs ++ b

theorem padded_self (cs : List Char) : Padded cs cs := ⟨[], [], blank_nil, blank_nil, by simp⟩

/-! ## The grammar -/

/-- What the grammar speaks of: a value, or what follows an opening bracket. -/
inductive Phrase where
  | value (v : Value)
  | items (vs : List Value)
  | members (ms : List (String × Value))

/-- The texts of a phrase. There are no items and no members without one: an empty pair of brackets
is a case of its own, and no comma stands before a closing bracket. -/
inductive Spelled : Phrase → List Char → Prop where
  | null : Spelled (.value .null) "null".toList
  | bool (b : Bool) : Spelled (.value (.bool b)) (boolText b)
  | number (n : Nat) : Spelled (.value (.number n)) (numberText n)
  | string (s : String) : Spelled (.value (.string s)) (stringText s)
  | emptyArray {a : List Char} (ha : Blank a) : Spelled (.value (.array [])) ('[' :: a ++ [']'])
  | array {vs : List Value} {cs : List Char} (h : Spelled (.items vs) cs) :
    Spelled (.value (.array vs)) ('[' :: cs)
  | emptyObject {a : List Char} (ha : Blank a) :
    Spelled (.value (.object [])) ('\x7b' :: a ++ ['\x7d'])
  | object {ms : List (String × Value)} {cs : List Char} (h : Spelled (.members ms) cs) :
    Spelled (.value (.object ms)) ('\x7b' :: cs)
  | lastItem {v : Value} {cs ds : List Char} (hv : Spelled (.value v) cs) (hd : Padded cs ds) :
    Spelled (.items [v]) (ds ++ [']'])
  | item {v : Value} {vs : List Value} {cs ds es : List Char} (hv : Spelled (.value v) cs)
    (hd : Padded cs ds) (hvs : Spelled (.items vs) es) :
    Spelled (.items (v :: vs)) (ds ++ ',' :: es)
  | lastMember {k : String} {v : Value} {ks cs ds : List Char} (hk : Padded (stringText k) ks)
    (hv : Spelled (.value v) cs) (hd : Padded cs ds) :
    Spelled (.members [(k, v)]) (ks ++ ':' :: ds ++ ['\x7d'])
  | member {k : String} {v : Value} {ms : List (String × Value)} {ks cs ds es : List Char}
    (hk : Padded (stringText k) ks) (hv : Spelled (.value v) cs) (hd : Padded cs ds)
    (hms : Spelled (.members ms) es) :
    Spelled (.members ((k, v) :: ms)) (ks ++ ':' :: ds ++ ',' :: es)

/-- A value does not start with a blank, and not like the end of an array. -/
theorem Spelled.starts {v : Value} {cs : List Char} (h : Spelled (.value v) cs) :
    ∃ c t, cs = c :: t ∧ isBlank c = false ∧ c ≠ ']' := by
  cases h with
  | null => exact ⟨_, _, rfl, by decide, by decide⟩
  | bool b => cases b <;> exact ⟨_, _, rfl, by decide, by decide⟩
  | number n =>
    cases hn : numberText n with
    | nil => exact absurd hn (numberText_ne_nil n)
    | cons d ds =>
      have hd : Text.isDigit d = true := isDigit_of_mem_numberText (hn ▸ List.mem_cons_self)
      refine ⟨d, ds, rfl, ?_, ?_⟩
      · by_contra hb
        simp only [isBlank, Bool.not_eq_false, Bool.or_eq_true, beq_iff_eq] at hb
        rcases hb with ((rfl | rfl) | rfl) | rfl <;> exact absurd hd (by decide)
      · rintro rfl
        exact absurd hd (by decide)
  | string s => exact ⟨_, _, rfl, by decide, by decide⟩
  | emptyArray => exact ⟨_, _, rfl, by decide, by decide⟩
  | array => exact ⟨_, _, rfl, by decide, by decide⟩
  | emptyObject => exact ⟨_, _, rfl, by decide, by decide⟩
  | object => exact ⟨_, _, rfl, by decide, by decide⟩

/-! ## The two layouts -/

mutual

theorem spelled_compactChars : ∀ v : Value, Spelled (.value v) v.compactChars
  | .null => .null
  | .bool b => .bool b
  | .number n => .number n
  | .string s => .string s
  | .array [] => .emptyArray blank_nil
  | .array (v :: vs) => .array (spelled_compactItems (v :: vs) (List.cons_ne_nil v vs))
  | .object [] => .emptyObject blank_nil
  | .object (m :: ms) => .object (spelled_compactMembers (m :: ms) (List.cons_ne_nil m ms))

theorem spelled_compactItems : ∀ vs : List Value, vs ≠ [] →
    Spelled (.items vs) (Value.compactItems vs)
  | [], h => absurd rfl h
  | [v], _ => .lastItem (spelled_compactChars v) (padded_self _)
  | v :: w :: vs, _ =>
    .item (spelled_compactChars v) (padded_self _)
      (spelled_compactItems (w :: vs) (List.cons_ne_nil w vs))

theorem spelled_compactMembers : ∀ ms : List (String × Value), ms ≠ [] →
    Spelled (.members ms) (Value.compactMembers ms)
  | [], h => absurd rfl h
  | [(_, v)], _ => .lastMember (padded_self _) (spelled_compactChars v) (padded_self _)
  | (_, v) :: m :: ms, _ =>
    .member (padded_self _) (spelled_compactChars v) (padded_self _)
      (spelled_compactMembers (m :: ms) (List.cons_ne_nil m ms))

end

theorem blank_newline (level : Nat) : Blank (Value.newline level) := by
  intro c hc
  rcases List.mem_cons.mp hc with rfl | hc
  · rfl
  · rw [List.eq_of_mem_replicate hc]
    rfl

/-- What stands on lines of its own, with the next bracket on another. -/
theorem padded_lines (level level' : Nat) (cs : List Char) :
    Padded cs (Value.newline level ++ cs ++ Value.newline level') :=
  ⟨_, _, blank_newline level, blank_newline level', rfl⟩

theorem padded_line (level : Nat) (cs : List Char) : Padded cs (Value.newline level ++ cs) :=
  ⟨_, [], blank_newline level, blank_nil, by simp⟩

/-- What stands behind a colon. -/
theorem padded_space {b : List Char} (hb : Blank b) (cs : List Char) : Padded cs (' ' :: cs ++ b) :=
  ⟨[' '], b, by simp [Blank, isBlank], hb, rfl⟩

mutual

theorem spelled_prettyChars (level : Nat) : ∀ v : Value, Spelled (.value v) (v.prettyChars level)
  | .null => .null
  | .bool b => .bool b
  | .number n => .number n
  | .string s => .string s
  | .array [] => .emptyArray blank_nil
  | .array (v :: vs) => .array (spelled_prettyItems level (v :: vs) (List.cons_ne_nil v vs))
  | .object [] => .emptyObject blank_nil
  | .object (m :: ms) => .object (spelled_prettyMembers level (m :: ms) (List.cons_ne_nil m ms))

theorem spelled_prettyItems (level : Nat) : ∀ vs : List Value, vs ≠ [] →
    Spelled (.items vs) (Value.prettyItems level vs)
  | [], h => absurd rfl h
  | [v], _ => .lastItem (spelled_prettyChars (level + 1) v) (padded_lines ..)
  | v :: w :: vs, _ =>
    .item (spelled_prettyChars (level + 1) v) (padded_line ..)
      (spelled_prettyItems level (w :: vs) (List.cons_ne_nil w vs))

theorem spelled_prettyMembers (level : Nat) : ∀ ms : List (String × Value), ms ≠ [] →
    Spelled (.members ms) (Value.prettyMembers level ms)
  | [], h => absurd rfl h
  | [(k, v)], _ => by
    have h := Spelled.lastMember (padded_line (level + 1) (stringText k))
      (spelled_prettyChars (level + 1) v) (padded_space (blank_newline level) _)
    simpa only [Value.prettyMembers, List.append_assoc, List.cons_append] using h
  | (k, v) :: m :: ms, _ => by
    have h := Spelled.member (padded_line (level + 1) (stringText k))
      (spelled_prettyChars (level + 1) v) (padded_space blank_nil _)
      (spelled_prettyMembers level (m :: ms) (List.cons_ne_nil m ms))
    simpa only [Value.prettyMembers, List.append_nil] using h

end

/-! ## Reading -/

theorem skipBlanks_idem (t : List Char) : skipBlanks (skipBlanks t) = skipBlanks t :=
  List.dropWhile_idempotent _ t

theorem value_skipBlanks (fuel : Nat) (t : List Char) : value fuel (skipBlanks t) = value fuel t := by
  cases fuel with
  | zero => simp only [value]
  | succ fuel => simp only [value, skipBlanks_idem]

theorem value_blanks {a : List Char} (ha : Blank a) (fuel : Nat) (t : List Char) :
    value fuel (a ++ t) = value fuel t := by
  rw [← value_skipBlanks, skipBlanks_append ha, value_skipBlanks]

theorem member_skipBlanks (fuel : Nat) (t : List Char) :
    member fuel (skipBlanks t) = member fuel t := by
  cases fuel with
  | zero => simp only [member]
  | succ fuel => simp only [member, skipBlanks_idem]

/-- What the reader makes of a text that is followed by anything that does not run into it. -/
def Reads : Phrase → List Char → Prop
  | .value v, cs => ∀ fuel rest, 2 * cs.length ≤ fuel → Ends rest →
    value fuel (cs ++ rest) = (v.toDoc, some rest)
  | .items vs, cs => ∀ fuel rest, 2 * cs.length ≤ fuel →
    moreItems fuel (value fuel (cs ++ rest)) = (Value.toDocs vs, some rest)
  | .members ms, cs => ∀ fuel rest, 2 * cs.length ≤ fuel →
    member fuel (cs ++ rest) = (Value.toMembers ms, some rest)

theorem reads_scalar {v : Value} {cs : List Char} (hv : Spelled (.value v) cs)
    (h : ∀ rest, Ends rest → scalar? (cs ++ rest) = some (v.toDoc, some rest)) :
    Reads (.value v) cs := by
  intro fuel rest hf hrest
  obtain ⟨c, t, rfl, hc, -⟩ := hv.starts
  cases fuel with
  | zero => simp at hf
  | succ fuel =>
    have hread := h rest hrest
    rw [List.cons_append] at hread ⊢
    simp only [value, skipBlanks_cons hc, hread]

/-- A value with blanks around it is read up to the blanks behind it. -/
theorem value_padded {v : Value} {cs ds : List Char} (hv : Reads (.value v) cs)
    (hd : Padded cs ds) {fuel : Nat} (hf : 2 * ds.length ≤ fuel) {rest : List Char}
    (hrest : Ends rest) :
    ∃ b, Blank b ∧ value fuel (ds ++ rest) = (v.toDoc, some (b ++ rest)) := by
  obtain ⟨a, b, ha, hb, rfl⟩ := hd
  simp only [List.length_append] at hf
  refine ⟨b, hb, ?_⟩
  rw [List.append_assoc, List.append_assoc, value_blanks ha]
  exact hv fuel (b ++ rest) (by omega) (ends_of_blank hb hrest)

theorem value_bracket (fuel : Nat) (t : List Char) :
    value (fuel + 1) ('[' :: t) =
      (.array (firstItem fuel t).1 (firstItem fuel t).2.isSome, (firstItem fuel t).2) := by
  rw [value, skipBlanks_cons (by decide)]
  rfl

theorem value_brace (fuel : Nat) (t : List Char) :
    value (fuel + 1) ('\x7b' :: t) =
      (.object (firstMember fuel t).1 (firstMember fuel t).2.isSome, (firstMember fuel t).2) := by
  rw [value, skipBlanks_cons (by decide)]
  rfl

theorem moreItems_close {b : List Char} (hb : Blank b) (fuel : Nat) (d : Doc) (rest : List Char) :
    moreItems (fuel + 1) (d, some (b ++ ']' :: rest)) = ([d], some rest) := by
  simp only [moreItems, skipBlanks_append_cons hb (show isBlank ']' = false by decide)]

theorem moreItems_comma {b : List Char} (hb : Blank b) (fuel : Nat) (d : Doc) (t : List Char) :
    moreItems (fuel + 1) (d, some (b ++ ',' :: t)) =
      (d :: (moreItems fuel (value fuel t)).1, (moreItems fuel (value fuel t)).2) := by
  simp only [moreItems, skipBlanks_append_cons hb (show isBlank ',' = false by decide)]

theorem moreMembers_close {b : List Char} (hb : Blank b) (fuel : Nat) (k : Key) (d : Doc)
    (rest : List Char) :
    moreMembers (fuel + 1) k (d, some (b ++ '\x7d' :: rest)) = ([(k, d)], some rest) := by
  simp only [moreMembers, skipBlanks_append_cons hb (show isBlank '\x7d' = false by decide)]

theorem moreMembers_comma {b : List Char} (hb : Blank b) (fuel : Nat) (k : Key) (d : Doc)
    (t : List Char) :
    moreMembers (fuel + 1) k (d, some (b ++ ',' :: t)) =
      ((k, d) :: (member fuel t).1, (member fuel t).2) := by
  simp only [moreMembers, skipBlanks_append_cons hb (show isBlank ',' = false by decide)]

/-- A key and the colon behind it. -/
theorem member_key {k : String} {ks : List Char} (hk : Padded (stringText k) ks) (fuel : Nat)
    (t : List Char) :
    member (fuel + 1) (ks ++ ':' :: t) = moreMembers fuel (.text (some k)) (value fuel t) := by
  obtain ⟨a, b, ha, hb, rfl⟩ := hk
  have hkey : skipBlanks (a ++ stringText k ++ b ++ ':' :: t) =
      '"' :: (k.toList.flatMap escapeChar ++ '"' :: (b ++ ':' :: t)) := by
    rw [List.append_assoc, List.append_assoc, skipBlanks_append ha, stringText]
    simp only [List.cons_append, List.append_assoc, List.nil_append]
    exact skipBlanks_cons (by decide) _
  simp only [member, hkey, string?_escape, skipBlanks_append_cons hb (show isBlank ':' = false by decide)]

/-- The items after an opening bracket start with a value, so they are not taken for its end. -/
theorem firstItem_of_spelled {vs : List Value} {cs : List Char} (h : Spelled (.items vs) cs)
    (fuel : Nat) (rest : List Char) :
    firstItem (fuel + 1) (cs ++ rest) = moreItems fuel (value fuel (cs ++ rest)) := by
  have hstart : ∃ c t, skipBlanks (cs ++ rest) = c :: t ∧ c ≠ ']' := by
    cases h with
    | lastItem hv hd | item hv hd =>
      obtain ⟨a, b, ha, -, rfl⟩ := hd
      obtain ⟨c, t, rfl, hc, hne⟩ := hv.starts
      simp only [List.append_assoc, skipBlanks_append ha, List.cons_append, skipBlanks_cons hc]
      exact ⟨c, _, rfl, hne⟩
  obtain ⟨c, t, hs, hne⟩ := hstart
  rw [← value_skipBlanks, firstItem, hs]
  split
  · rename_i heq
    cases heq
  · rename_i heq
    exact absurd (List.cons.inj heq).1 hne
  · rfl

theorem firstMember_of_spelled {ms : List (String × Value)} {cs : List Char}
    (h : Spelled (.members ms) cs) (fuel : Nat) (rest : List Char) :
    firstMember (fuel + 1) (cs ++ rest) = member fuel (cs ++ rest) := by
  have hstart : ∃ t, skipBlanks (cs ++ rest) = '"' :: t := by
    cases h with
    | lastMember hk | member hk =>
      obtain ⟨a, b, ha, -, rfl⟩ := hk
      simp only [List.append_assoc, skipBlanks_append ha, stringText, List.cons_append]
      exact ⟨_, skipBlanks_cons (by decide) _⟩
  obtain ⟨t, hs⟩ := hstart
  rw [← member_skipBlanks, firstMember, hs]
  rfl

theorem reads_of_spelled {p : Phrase} {cs : List Char} (h : Spelled p cs) : Reads p cs := by
  induction h with
  | null => exact reads_scalar .null fun rest _ => scalar?_null rest
  | bool b => exact reads_scalar (.bool b) fun rest _ => scalar?_boolText b rest
  | number n => exact reads_scalar (.number n) fun rest hrest => scalar?_numberText n hrest
  | string s => exact reads_scalar (.string s) fun rest _ => scalar?_stringText s rest
  | @emptyArray a ha =>
    intro fuel rest hf _
    obtain ⟨k, rfl⟩ : ∃ k, fuel = k + 2 := ⟨fuel - 2, by simp at hf; omega⟩
    have hitems : firstItem (k + 1) (a ++ ']' :: rest) = ([], some rest) := by
      rw [firstItem, skipBlanks_append_cons ha (by decide)]
      rfl
    simp only [List.cons_append, List.append_assoc, List.nil_append, value_bracket, hitems]
    rfl
  | @array vs cs h ih =>
    intro fuel rest hf _
    obtain ⟨k, rfl⟩ : ∃ k, fuel = k + 2 := ⟨fuel - 2, by simp at hf; omega⟩
    have hitems : firstItem (k + 1) (cs ++ rest) = (Value.toDocs vs, some rest) := by
      rw [firstItem_of_spelled h]
      exact ih k rest (by simp at hf; omega)
    rw [List.cons_append, value_bracket, hitems]
    rfl
  | @emptyObject a ha =>
    intro fuel rest hf _
    obtain ⟨k, rfl⟩ : ∃ k, fuel = k + 2 := ⟨fuel - 2, by simp at hf; omega⟩
    have hmembers : firstMember (k + 1) (a ++ '\x7d' :: rest) = ([], some rest) := by
      rw [firstMember, skipBlanks_append_cons ha (by decide)]
      rfl
    simp only [List.cons_append, List.append_assoc, List.nil_append, value_brace, hmembers]
    rfl
  | @object ms cs h ih =>
    intro fuel rest hf _
    obtain ⟨k, rfl⟩ : ∃ k, fuel = k + 2 := ⟨fuel - 2, by simp at hf; omega⟩
    have hmembers : firstMember (k + 1) (cs ++ rest) = (Value.toMembers ms, some rest) := by
      rw [firstMember_of_spelled h]
      exact ih k rest (by simp at hf; omega)
    rw [List.cons_append, value_brace, hmembers]
    rfl
  | lastItem hv hd ih =>
    intro fuel rest hf
    simp only [List.length_append, List.length_cons, List.length_nil] at hf
    obtain ⟨b, hb, hvalue⟩ := value_padded ih hd (by omega : _ ≤ fuel)
      (ends_cons (c := ']') (by decide) rest)
    obtain ⟨k, rfl⟩ : ∃ k, fuel = k + 1 := ⟨fuel - 1, by omega⟩
    rw [List.append_assoc, List.singleton_append, hvalue, moreItems_close hb]
    rfl
  | item hv hd hvs ih ihs =>
    intro fuel rest hf
    simp only [List.length_append, List.length_cons] at hf
    obtain ⟨b, hb, hvalue⟩ := value_padded ih hd (by omega : _ ≤ fuel)
      (ends_cons (c := ',') (by decide) (_ ++ rest))
    obtain ⟨k, rfl⟩ : ∃ k, fuel = k + 1 := ⟨fuel - 1, by omega⟩
    rw [List.append_assoc, List.cons_append, hvalue, moreItems_comma hb, ihs k rest (by omega)]
    rfl
  | lastMember hk hv hd ih =>
    intro fuel rest hf
    simp only [List.length_append, List.length_cons, List.length_nil] at hf
    obtain ⟨k, rfl⟩ : ∃ k, fuel = k + 2 := ⟨fuel - 2, by omega⟩
    obtain ⟨b, hb, hvalue⟩ := value_padded ih hd (by omega : _ ≤ k + 1)
      (ends_cons (c := '\x7d') (by decide) rest)
    simp only [List.append_assoc, List.cons_append, List.nil_append]
    rw [member_key hk, hvalue, moreMembers_close hb]
    rfl
  | @member _ _ _ _ _ _ es hk hv hd hms ih ihs =>
    intro fuel rest hf
    simp only [List.length_append, List.length_cons] at hf
    obtain ⟨k, rfl⟩ : ∃ k, fuel = k + 2 := ⟨fuel - 2, by omega⟩
    obtain ⟨b, hb, hvalue⟩ := value_padded ih hd (by omega : _ ≤ k + 1)
      (ends_cons (c := ',') (by decide) (es ++ rest))
    simp only [List.append_assoc, List.cons_append]
    rw [member_key hk, hvalue, moreMembers_comma hb, ihs k rest (by omega)]
    rfl

/-- **Every layout is read alike.** A text of a value with nothing but blanks behind it is a
complete document, the one that the value stands for. -/
theorem read_spelled {v : Value} {cs : List Char} (h : Spelled (.value v) cs) {a : List Char}
    (ha : Blank a) : Document.read (String.ofList (cs ++ a)) = ⟨v.toDoc, true⟩ := by
  have hnil : Ends [] := fun _ hc => by cases hc
  have hends : Ends a := by simpa using ends_of_blank ha hnil
  have hvalue := reads_of_spelled h (2 * (cs ++ a).length + 2) a (by simp; omega) hends
  have hrest : skipBlanks a = [] := by simpa [skipBlanks] using skipBlanks_append ha []
  simp only [Document.read, String.toList_ofList, hvalue, hrest]
  rfl

end Outline.Json
