import Outline.Proofs.Accounting
import Outline.Proofs.AdapterChoice

/-!
# Finding sources of one language

Sources are found below directories with or without a language asked for. Two different look-ups
then decide what counts as a source: one asks the adapter of the language whether it handles a path,
the other asks all adapters for one that does. What each leaves of a directory is sorted on its own.

All of this comes to one list, from which a language takes its part: what is asked for alone is what
is found without a language, less the files of other languages. Paths that are no directories stay
as they were given.

* `mergeSort_filter`: what is left out before a list is sorted may as well be left out afterwards.
* `collect_filter`: so it is with the files of a directory.
* `isSource_some`: a language has the sources whose paths tell it.
* `forced_language_narrows`: what a language makes of the sources that are found, and that none of
  those is refused later.
-/
namespace Outline

/-! ## Sorting a part of a list -/

section

variable {α : Type} {le : α → α → Bool}
  (trans : ∀ a b c, le a b = true → le b c = true → le a c = true)
  (total : ∀ a b, (le a b || le b a) = true)
include trans total

/-- A sorted list falls into what must come before `a` and what need not, and `a` is sorted in
between. -/
theorem mergeSort_cons_filter (a : α) (l : List α) :
    l.mergeSort le = (l.mergeSort le).filter (!le a ·) ++ (l.mergeSort le).filter (le a ·) ∧
    (a :: l).mergeSort le =
      (l.mergeSort le).filter (!le a ·) ++ a :: (l.mergeSort le).filter (le a ·) := by
  obtain ⟨before, after, hcons, hl, hbefore⟩ := List.mergeSort_cons trans total a l
  have hsorted := List.pairwise_mergeSort trans total (a :: l)
  rw [hcons] at hsorted
  have hafter : ∀ b ∈ after, le a b = true :=
    (List.pairwise_cons.mp (List.pairwise_append.mp hsorted).2.1).1
  have hfirst : (before ++ after).filter (!le a ·) = before := by
    rw [List.filter_append, List.filter_eq_self.mpr hbefore,
      List.filter_eq_nil_iff.mpr fun b hb => by simp [hafter b hb], List.append_nil]
  have hsecond : (before ++ after).filter (le a ·) = after := by
    rw [List.filter_append, List.filter_eq_self.mpr hafter,
      List.filter_eq_nil_iff.mpr fun b hb => by simpa using hbefore b hb, List.nil_append]
  rw [hcons, hl, hfirst, hsecond]
  exact ⟨rfl, rfl⟩

theorem mergeSort_filter (p : α → Bool) (l : List α) :
    (l.filter p).mergeSort le = (l.mergeSort le).filter p := by
  induction l with
  | nil => simp
  | cons a l ih =>
    obtain ⟨hl, hcons⟩ := mergeSort_cons_filter trans total a l
    rw [hcons, List.filter_append]
    by_cases ha : p a = true
    · rw [List.filter_cons_of_pos ha, List.filter_cons_of_pos ha,
        (mergeSort_cons_filter trans total a (l.filter p)).2, ih]
      simp only [List.filter_filter, Bool.and_comm]
    · rw [List.filter_cons_of_neg ha, List.filter_cons_of_neg ha, ih, ← List.filter_append, ← hl]

end

namespace Discovery

/-! ## The files of a directory -/

/-- Of the files of a directory those that pass one more test. -/
theorem collect_filter {fs : FileSystem} {root : String} {excludes more : List String}
    {wanted wanted' : String → Bool} (p : String → Bool)
    (h : ∀ path, ((IgnoreList.excluding root more).isIgnored? path false == some false &&
        wanted' path) =
      (p path && ((IgnoreList.excluding root excludes).isIgnored? path false == some false &&
        wanted path))) :
    collect fs root more wanted' = (collect fs root excludes wanted).filter p := by
  simp only [collect, h]
  rw [← List.filter_filter, mergeSort_filter inOrder_trans inOrder_total]

/-! ## The language of a path -/

/-- The language that a path is taken for when none is asked for. -/
def guess? (path : String) : Option Language := (Registry.builtin.find? path).map (·.language)

theorem find?_builtin_of_guess? {path : String} {l : Language} (h : guess? path = some l) :
    Registry.builtin.find? path = some l.adapter := by
  obtain ⟨a, ha, rfl⟩ := Option.map_eq_some_iff.mp h
  obtain ⟨l, -, -, rfl⟩ := Registry.find?_eq_some_iff.mp ha
  rw [ha, l.adapter_language]

theorem forLanguage?_builtin (l : Language) : Registry.builtin.forLanguage? l = some l.adapter :=
  Registry.forLanguage?_eq_some_iff.mpr ⟨l.mem_all, rfl⟩

theorem isSource_none (path : String) : isSource .builtin none path = (guess? path).isSome := by
  rw [guess?, Option.isSome_map]
  rfl

/-- The adapter of a language handles just the paths that are taken for it. -/
theorem isSource_some (l : Language) (path : String) :
    isSource .builtin (some l) path = (guess? path == some l) := by
  rw [Bool.eq_iff_iff, beq_iff_eq]
  simp only [isSource, forLanguage?_builtin, Language.handles_iff]
  constructor
  · intro hext
    have hfound : Registry.builtin.find? path = some l.adapter :=
      Registry.find?_eq_some_iff.mpr ⟨l, l.mem_all, hext, rfl⟩
    rw [guess?, hfound, Option.map_some, l.adapter_language]
  · intro h
    obtain ⟨m, -, hext, hadapter⟩ := Registry.find?_eq_some_iff.mp (find?_builtin_of_guess? h)
    have hlanguage := congrArg Adapter.language hadapter
    rw [l.adapter_language, m.adapter_language] at hlanguage
    rwa [hlanguage]

theorem isSource_some_eq (l : Language) (path : String) :
    isSource .builtin (some l) path = ((guess? path == some l) && isSource .builtin none path) := by
  rw [isSource_some, isSource_none]
  cases h : guess? path with
  | none => rfl
  | some m => rw [Option.isSome_some, Bool.and_true]

/-! ## What is found -/

/-- A path that is taken for a source, and whether it was found in a directory. -/
structure Finding where
  path : String
  inDirectory : Bool
  deriving DecidableEq, Repr

/-- What each argument contributes: a directory the sources in it, and any other path itself. -/
def findings (fs : FileSystem) (paths excludes : List String) (language : Option Language) :
    List Finding :=
  paths.flatMap fun path =>
    if fs.hasDirectory path then
      (collect fs path excludes (isSource .builtin language)).map (⟨·, true⟩)
    else [⟨path, false⟩]

variable {fs : FileSystem} {paths excludes : List String} {language : Option Language}

theorem sources_eq_findings (fs : FileSystem) (paths excludes : List String)
    (language : Option Language) :
    sources fs .builtin paths excludes language =
      (findings fs paths excludes language).map (·.path) := by
  rw [sources, findings, List.map_flatMap]
  congr 1
  funext path
  split
  · rw [List.map_map]
    exact (List.map_id _).symm
  · rfl

/-- Whether a finding stays when a language is asked for. -/
def Finding.stays (l : Language) (f : Finding) : Bool := !f.inDirectory || guess? f.path == some l

theorem findings_some (fs : FileSystem) (paths excludes : List String) (l : Language) :
    findings fs paths excludes (some l) =
      (findings fs paths excludes none).filter (·.stays l) := by
  rw [findings, findings, List.filter_flatMap]
  congr 1
  funext path
  split
  · have hcollect : collect fs path excludes (isSource .builtin (some l)) =
        (collect fs path excludes (isSource .builtin none)).filter (guess? · == some l) :=
      collect_filter _ fun x => by rw [isSource_some_eq, Bool.and_left_comm]
    rw [hcollect, List.filter_map]
    rfl
  · rfl

theorem inDirectory_of_mem_findings (h : ∀ path ∈ paths, fs.hasDirectory path = true) {f : Finding}
    (hf : f ∈ findings fs paths excludes language) : f.inDirectory = true := by
  obtain ⟨path, hpath, hmem⟩ := List.mem_flatMap.mp hf
  rw [if_pos (h path hpath)] at hmem
  obtain ⟨x, -, rfl⟩ := List.mem_map.mp hmem
  rfl

/-- Below directories the sources of a language are those that are taken for it. -/
theorem sources_some (h : ∀ path ∈ paths, fs.hasDirectory path = true) (excludes : List String)
    (l : Language) : sources fs .builtin paths excludes (some l) =
      (sources fs .builtin paths excludes none).filter (guess? · == some l) := by
  rw [sources_eq_findings, sources_eq_findings, findings_some, List.filter_map]
  congr 1
  apply List.filter_congr
  intro f hf
  simp [Finding.stays, inDirectory_of_mem_findings h hf]

theorem isSource_of_mem_findings {f : Finding} (hf : f ∈ findings fs paths excludes language)
    (hdir : f.inDirectory = true) : isSource .builtin language f.path = true := by
  obtain ⟨path, -, hmem⟩ := List.mem_flatMap.mp hf
  split at hmem
  · obtain ⟨x, hx, rfl⟩ := List.mem_map.mp hmem
    rw [collect, List.mem_mergeSort] at hx
    exact (Bool.and_eq_true_iff.mp (List.mem_filter.mp hx).2).2
  · obtain rfl := List.mem_singleton.mp hmem
    cases hdir

theorem exists_guess? {f : Finding} (hf : f ∈ findings fs paths excludes language)
    (hdir : f.inDirectory = true) :
    ∃ l, guess? f.path = some l ∧ ∀ m, language = some m → m = l := by
  have hsource := isSource_of_mem_findings hf hdir
  cases language with
  | none =>
    rw [isSource_none] at hsource
    obtain ⟨l, hl⟩ := Option.isSome_iff_exists.mp hsource
    exact ⟨l, hl, fun m hm => by cases hm⟩
  | some l =>
    rw [isSource_some, beq_iff_eq] at hsource
    exact ⟨l, hsource, fun m hm => (Option.some.inj hm).symm⟩

end Discovery

/-- A source is extracted with the adapter of the language that its path is taken for, if no other
is asked for. -/
theorem Extractor.adapterFor_of_guess? {i : SourceInput} {l : Language} {language : Option Language}
    (h : Discovery.guess? i.path = some l) (hl : ∀ m, language = some m → m = l)
    (parse : Language → SourceInput → Node) :
    Extractor.adapterFor ⟨.builtin, parse⟩ i language = .ok l.adapter := by
  cases language with
  | none => simp [adapterFor, Discovery.find?_builtin_of_guess? h]
  | some m =>
    obtain rfl := hl m rfl
    simp [adapterFor, Discovery.forLanguage?_builtin]

theorem Extractor.extract_ne_unsupported {e : Extractor} {i : SourceInput} {a : Adapter}
    {language : Option Language} (h : e.adapterFor i language = .ok a) (text : String) :
    e.extract i language ≠ .error (.unsupported text) := by
  rw [extract, extractDumping_of_adapter h]
  cases hfault : (e.parse a.language i).fault? with
  | some fault =>
    rw [extractWith_of_fault hfault]
    intro heq
    cases heq
  | none =>
    rw [extractWith_of_clean hfault]
    intro heq
    cases heq

/-- **Asking for a language only narrows what is found in directories.** For any files, working
directory, arguments and excludes, what is found for the language `l` is what is found without a
language, in the same order and as often, less the findings in directories whose paths are not taken
for `l`. So if all arguments are directories, what is found falls into the sources of the two
languages. And whatever is found in a directory is later extracted with the adapter for its path,
with or without a language asked for: it is not refused as unsupported. -/
theorem forced_language_narrows (fs : FileSystem) (paths excludes : List String) :
    (∀ language, Discovery.sources fs .builtin paths excludes language =
      (Discovery.findings fs paths excludes language).map (·.path)) ∧
    (∀ l, Discovery.findings fs paths excludes (some l) =
      (Discovery.findings fs paths excludes none).filter fun f =>
        !f.inDirectory || Discovery.guess? f.path == some l) ∧
    ((∀ path ∈ paths, fs.hasDirectory path = true) →
      (Discovery.sources fs .builtin paths excludes (some .python) ++
        Discovery.sources fs .builtin paths excludes (some .java)).Perm
          (Discovery.sources fs .builtin paths excludes none) ∧
      List.Disjoint (Discovery.sources fs .builtin paths excludes (some .python))
        (Discovery.sources fs .builtin paths excludes (some .java)) ∧
      ∀ l, Discovery.sources fs .builtin paths excludes (some l) =
        (Discovery.sources fs .builtin paths excludes none).filter (Discovery.guess? · == some l)) ∧
    ∀ language, ∀ f ∈ Discovery.findings fs paths excludes language, f.inDirectory = true →
      ∃ l, Discovery.guess? f.path = some l ∧ (language = none ∨ language = some l) ∧
        ∀ parse i, i.path = f.path →
          Extractor.adapterFor ⟨.builtin, parse⟩ i language = .ok l.adapter ∧
          ∀ text, Extractor.extract ⟨.builtin, parse⟩ i language ≠ .error (.unsupported text) := by
  refine ⟨Discovery.sources_eq_findings fs paths excludes,
    Discovery.findings_some fs paths excludes, fun hdirs => ?_, fun language f hf hdir => ?_⟩
  · have hnarrow := Discovery.sources_some hdirs excludes
    refine ⟨?_, ?_, hnarrow⟩
    · -- what is found is taken for one of the languages, and not for the other
      have hother : (Discovery.sources fs .builtin paths excludes none).filter
            (Discovery.guess? · == some .java) =
          (Discovery.sources fs .builtin paths excludes none).filter
            (!Discovery.guess? · == some .python) := by
        apply List.filter_congr
        intro path hpath
        rw [Discovery.sources_eq_findings] at hpath
        obtain ⟨f, hf, rfl⟩ := List.mem_map.mp hpath
        obtain ⟨l, hl, -⟩ :=
          Discovery.exists_guess? hf (Discovery.inDirectory_of_mem_findings hdirs hf)
        rw [hl]
        cases l <;> rfl
      rw [hnarrow, hnarrow, hother]
      exact List.filter_append_perm _ _
    · intro path hpython hjava
      rw [hnarrow, List.mem_filter, beq_iff_eq] at hpython hjava
      have hsame := hpython.2.symm.trans hjava.2
      cases hsame
  · obtain ⟨l, hguess, hasked⟩ := Discovery.exists_guess? hf hdir
    refine ⟨l, hguess, ?_, fun parse i hpath => ?_⟩
    · cases language with
      | none => exact Or.inl rfl
      | some m => exact Or.inr (congrArg some (hasked m rfl))
    · have hadapter := Extractor.adapterFor_of_guess? (i := i) (hpath ▸ hguess) hasked parse
      exact ⟨hadapter, Extractor.extract_ne_unsupported hadapter⟩

/-- A directory with a source of each language and a text, and beside it another text. -/
def FileSystem.twoLanguages : FileSystem where
  root := .directory [
    ("work", .directory [
      ("src", .directory [
        ("b.py", .file .empty),
        ("README.md", .file .empty),
        ("A.java", .file .empty)]),
      ("Legacy.txt", .file .empty)])]
  here := ["work"]

theorem FileSystem.collect_twoLanguages (language : Option Language) (path : String) :
    path ∈ Discovery.collect twoLanguages "/work/src" [] (Discovery.isSource .builtin language) ↔
      path ∈ ["/work/src/b.py", "/work/src/README.md", "/work/src/A.java"] ∧
        Discovery.isSource .builtin language path = true := by
  have hfound : (Discovery.candidates twoLanguages "/work/src").filter
      (fun x => (IgnoreList.excluding "/work/src" []).isIgnored? x false == some false) =
        ["/work/src/b.py", "/work/src/README.md", "/work/src/A.java"] := by decide +kernel
  rw [Discovery.collect, List.mem_mergeSort, ← hfound]
  simp only [List.mem_filter, Bool.and_eq_true, and_assoc]

/-- The source in the other language is not found, and the text is kept as it was given. -/
theorem forced_language_narrows_twoLanguages :
    ⟨"/work/src/A.java", true⟩ ∈
      Discovery.findings .twoLanguages ["/work/src", "Legacy.txt"] [] (some .java) ∧
    ⟨"/work/src/b.py", true⟩ ∉
      Discovery.findings .twoLanguages ["/work/src", "Legacy.txt"] [] (some .java) ∧
    ⟨"Legacy.txt", false⟩ ∈
      Discovery.findings .twoLanguages ["/work/src", "Legacy.txt"] [] (some .java) ∧
    (Discovery.sources .twoLanguages .builtin ["/work/src", "src"] [] (some .python) ++
      Discovery.sources .twoLanguages .builtin ["/work/src", "src"] [] (some .java)).Perm
        (Discovery.sources .twoLanguages .builtin ["/work/src", "src"] [] none) := by
  obtain ⟨-, hnarrow, -, -⟩ :=
    forced_language_narrows .twoLanguages ["/work/src", "Legacy.txt"] []
  obtain ⟨-, -, hsplit, -⟩ := forced_language_narrows .twoLanguages ["/work/src", "src"] []
  have hdirs : ["/work/src", "src", "Legacy.txt"].map FileSystem.twoLanguages.hasDirectory =
      [true, true, false] := by decide +kernel
  simp only [List.map_cons, List.map_nil, List.cons.injEq, and_true] at hdirs
  obtain ⟨habsolute, hrelative, htext⟩ := hdirs
  have hguess : Discovery.guess? "/work/src/A.java" = some .java ∧
      Discovery.guess? "/work/src/b.py" = some .python := by decide +kernel
  have hjava : (⟨"/work/src/A.java", true⟩ : Discovery.Finding) ∈
      Discovery.findings .twoLanguages ["/work/src", "Legacy.txt"] [] none := by
    rw [Discovery.findings, List.mem_flatMap]
    refine ⟨"/work/src", by decide, ?_⟩
    rw [if_pos habsolute]
    refine List.mem_map_of_mem ((FileSystem.collect_twoLanguages none _).mpr ⟨by decide, ?_⟩)
    rw [Discovery.isSource_none, hguess.1]
    rfl
  rw [hnarrow]
  simp only [List.mem_filter]
  refine ⟨⟨hjava, ?_⟩, ?_, ⟨?_, rfl⟩, (hsplit ?_).1⟩
  · rw [hguess.1]; rfl
  · rintro ⟨-, hstays⟩
    rw [hguess.2] at hstays
    cases hstays
  · rw [Discovery.findings, List.mem_flatMap]
    refine ⟨"Legacy.txt", by decide, ?_⟩
    rw [if_neg (by simp [htext])]
    exact List.mem_singleton_self _
  · exact List.forall_mem_cons.mpr ⟨habsolute, List.forall_mem_singleton.mpr hrelative⟩

end Outline
