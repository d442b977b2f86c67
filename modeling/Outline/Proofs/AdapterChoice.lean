import Outline.Proofs.Paths
import Outline.Source

/-!
# Which adapter is chosen

A language can be told from a path in two ways: by the table of extensions, where the first language
that has the extension counts, and by the adapters at hand, where the first that handles the path
counts. No extension belongs to two languages, in whatever case its letters are, so neither order
matters: the adapter chosen is that of the language in the table, if it is at hand at all.

* `Language.ofExtension?_eq_some_iff`: a language is told by its own extensions and by no other's.
* `Language.handles_iff`: the two ways agree for one built-in adapter.
* `Registry.find?_builtin_eq_some_iff`: the first of several built-in adapters that passes a test
  which one language passes at most.
* `adapter_choice_agrees_with_table`: by path and by language, for any list of built-in adapters.
-/
namespace Outline

/-! ## Extensions and languages -/

theorem sameExtension_iff {a b : String} : sameExtension a b = true ↔
    a.toList.map Char.toLower = b.toList.map Char.toLower := by
  have hlower : ∀ s : String, s.toLower.toList = s.toList.map Char.toLower := fun _ =>
    String.toList_map
  rw [sameExtension, beq_iff_eq, ← String.toList_inj, hlower, hlower]

namespace Language

/-- Whether a language has an extension, in any case of the letters. -/
def hasExtension (l : Language) (ext : String) : Bool := l.extensions.any (sameExtension · ext)

/-- No extension belongs to two languages. -/
theorem hasExtension_unique {l m : Language} {ext : String} (hl : l.hasExtension ext = true)
    (hm : m.hasExtension ext = true) : l = m := by
  obtain ⟨x, hx, hxe⟩ := List.any_eq_true.mp hl
  obtain ⟨y, hy, hye⟩ := List.any_eq_true.mp hm
  have hsame := (sameExtension_iff.mp hxe).trans (sameExtension_iff.mp hye).symm
  have hdiffer : ∀ x ∈ python.extensions, ∀ y ∈ java.extensions,
      x.toList.map Char.toLower ≠ y.toList.map Char.toLower := by decide
  cases l <;> cases m
  · rfl
  · exact absurd hsame (hdiffer x hx y hy)
  · exact absurd hsame.symm (hdiffer y hy x hx)
  · rfl

theorem mem_all (l : Language) : l ∈ all := by cases l <;> decide

theorem ofExtension?_eq_some_iff {l : Language} {ext : String} :
    ofExtension? ext = some l ↔ l.hasExtension ext = true := by
  have hfirst : ofExtension? ext = all.find? (·.hasExtension ext) := rfl
  rw [hfirst]
  constructor
  · intro h
    have hl := List.find?_some h
    exact hl
  · intro h
    cases hfound : all.find? (·.hasExtension ext) with
    | none => exact absurd h (List.find?_eq_none.mp hfound l l.mem_all)
    | some m =>
      have hm := List.find?_some hfound
      rw [hasExtension_unique hm h]

theorem adapter_language (l : Language) : l.adapter.language = l := by cases l <;> rfl

theorem adapter_extensions (l : Language) : l.adapter.extensions = l.extensions := by
  cases l <;> rfl

/-- A built-in adapter handles the paths whose extension tells its language. -/
theorem handles_iff {l : Language} {path : String} :
    l.adapter.handles path = true ↔
      ∃ ext, Path.HasExtension path ext ∧ ofExtension? ext = some l := by
  simp only [← Path.extension?_eq_some_iff, ofExtension?_eq_some_iff, Adapter.handles,
    adapter_extensions]
  cases Path.extension? path with
  | none => simp
  | some ext => simp [hasExtension]

end Language

/-! ## Choosing -/

namespace Registry

/-- A test that no two languages pass does not depend on the order of the adapters. -/
theorem find?_builtin_eq_some_iff {p : Adapter → Bool}
    (hp : ∀ l m : Language, p l.adapter = true → p m.adapter = true → l = m)
    {languages : List Language} {a : Adapter} :
    List.find? p (languages.map Language.adapter) = some a ↔
      ∃ l ∈ languages, p l.adapter = true ∧ a = l.adapter := by
  constructor
  · intro h
    obtain ⟨l, hl, rfl⟩ := List.mem_map.mp (List.mem_of_find?_eq_some h)
    exact ⟨l, hl, List.find?_some h, rfl⟩
  · rintro ⟨l, hl, hpl, rfl⟩
    cases h : List.find? p (languages.map Language.adapter) with
    | none => exact absurd hpl (List.find?_eq_none.mp h _ (List.mem_map_of_mem hl))
    | some b =>
      obtain ⟨m, -, rfl⟩ := List.mem_map.mp (List.mem_of_find?_eq_some h)
      rw [hp m l (List.find?_some h) hpl]

variable {languages : List Language} {a : Adapter}

theorem find?_eq_some_iff {path : String} :
    find? (languages.map Language.adapter) path = some a ↔
      ∃ l ∈ languages, (∃ ext, Path.HasExtension path ext ∧ Language.ofExtension? ext = some l) ∧
        a = l.adapter := by
  have hunique : ∀ l m : Language, l.adapter.handles path = true →
      m.adapter.handles path = true → l = m := by
    simp only [Language.handles_iff, ← Path.extension?_eq_some_iff]
    rintro l m ⟨x, hx, hl⟩ ⟨y, hy, hm⟩
    rw [Option.some.inj (hx.symm.trans hy)] at hl
    exact Option.some.inj (hl.symm.trans hm)
  rw [find?, find?_builtin_eq_some_iff hunique]
  simp only [Language.handles_iff]

theorem forLanguage?_eq_some_iff {l : Language} :
    forLanguage? (languages.map Language.adapter) l = some a ↔ l ∈ languages ∧ a = l.adapter := by
  have hunique : ∀ k m : Language, (k.adapter.language == l) = true →
      (m.adapter.language == l) = true → k = m := by
    simp only [Language.adapter_language, beq_iff_eq]
    rintro k m rfl rfl
    rfl
  rw [forLanguage?, find?_builtin_eq_some_iff hunique]
  simp only [Language.adapter_language, beq_iff_eq]
  constructor
  · rintro ⟨k, hk, rfl, rfl⟩
    exact ⟨hk, rfl⟩
  · rintro ⟨hl, rfl⟩
    exact ⟨l, hl, rfl, rfl⟩

end Registry

/-- **The choice of an adapter agrees with the table of extensions.** From any list of built-in
adapters, with repetitions and in any order, a path selects the language `l` if and only if `l` is
in the list and is what the table says of the extension in the path's last name. Lists with the same
languages select the same adapter, by path and by language, and so for every source. -/
theorem adapter_choice_agrees_with_table (languages : List Language) :
    (∀ path ext, Path.extension? path = some ext ↔ Path.HasExtension path ext) ∧
    (∀ path l, (Registry.find? (languages.map Language.adapter) path).map (·.language) = some l ↔
      l ∈ languages ∧ ∃ ext, Path.HasExtension path ext ∧ Language.ofExtension? ext = some l) ∧
    (∀ l m, (Registry.forLanguage? (languages.map Language.adapter) l).map (·.language) = some m ↔
      l ∈ languages ∧ m = l) ∧
    ∀ others : List Language, (∀ l, l ∈ others ↔ l ∈ languages) →
      (∀ path, Registry.find? (others.map Language.adapter) path =
        Registry.find? (languages.map Language.adapter) path) ∧
      (∀ l, Registry.forLanguage? (others.map Language.adapter) l =
        Registry.forLanguage? (languages.map Language.adapter) l) ∧
      ∀ parse i language, Extractor.adapterFor ⟨others.map Language.adapter, parse⟩ i language =
        Extractor.adapterFor ⟨languages.map Language.adapter, parse⟩ i language := by
  refine ⟨fun path ext => Path.extension?_eq_some_iff, fun path l => ?_, fun l m => ?_,
    fun others hsame => ?_⟩
  · rw [Option.map_eq_some_iff]
    constructor
    · rintro ⟨a, ha, rfl⟩
      obtain ⟨m, hm, hext, rfl⟩ := Registry.find?_eq_some_iff.mp ha
      rw [Language.adapter_language]
      exact ⟨hm, hext⟩
    · rintro ⟨hl, hext⟩
      exact ⟨l.adapter, Registry.find?_eq_some_iff.mpr ⟨l, hl, hext, rfl⟩, l.adapter_language⟩
  · rw [Option.map_eq_some_iff]
    constructor
    · rintro ⟨a, ha, rfl⟩
      obtain ⟨hl, rfl⟩ := Registry.forLanguage?_eq_some_iff.mp ha
      exact ⟨hl, l.adapter_language⟩
    · rintro ⟨hl, rfl⟩
      exact ⟨m.adapter, Registry.forLanguage?_eq_some_iff.mpr ⟨hl, rfl⟩, m.adapter_language⟩
  · have hpath : ∀ path, Registry.find? (others.map Language.adapter) path =
        Registry.find? (languages.map Language.adapter) path := by
      intro path
      apply Option.ext
      intro a
      simp only [Registry.find?_eq_some_iff, hsame]
    have hlanguage : ∀ l, Registry.forLanguage? (others.map Language.adapter) l =
        Registry.forLanguage? (languages.map Language.adapter) l := by
      intro l
      apply Option.ext
      intro a
      simp only [Registry.forLanguage?_eq_some_iff, hsame]
    refine ⟨hpath, hlanguage, fun parse i language => ?_⟩
    simp only [Extractor.adapterFor, hpath, hlanguage]

/-- Java comes first, and twice; the extension is in capitals, below a directory with a dot. -/
theorem adapter_choice_agrees_with_table_capitals :
    Path.HasExtension "lib.java/a.PY/." "PY" ∧
    (Registry.find? ([Language.java, .python, .java].map Language.adapter) "lib.java/a.PY/.").map
      (·.language) = some .python ∧
    Registry.find? ([Language.python, .java].map Language.adapter) "lib.java/a.PY/." =
      Registry.find? ([Language.java, .python, .java].map Language.adapter) "lib.java/a.PY/." := by
  have hext : Path.HasExtension "lib.java/a.PY/." "PY" :=
    Path.extension?_eq_some_iff.mp (by decide)
  have htable : Language.ofExtension? "PY" = some .python := by
    refine Language.ofExtension?_eq_some_iff.mpr (List.any_eq_true.mpr ⟨"py", by decide, ?_⟩)
    exact sameExtension_iff.mpr (by decide)
  obtain ⟨-, hpath, -, hothers⟩ := adapter_choice_agrees_with_table [.java, .python, .java]
  refine ⟨hext, (hpath _ _).mpr ⟨by decide, "PY", hext, htable⟩, ?_⟩
  exact (hothers [.python, .java] fun l => by cases l <;> decide).1 _

end Outline
