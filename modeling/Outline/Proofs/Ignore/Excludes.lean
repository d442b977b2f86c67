import Outline.Proofs.Discovery
import Outline.Proofs.Ignore.Globs

/-!
# What excludes remove

A path goes by the last rule that applies to it, or else by the directories around it, and excludes
come after all other rules. So a rule that is put at the end of the list has the last word wherever
it applies, at whichever level of a path that is. Unless it is negated, that word is that a path is
ignored: nothing that was ignored comes back.

The default excludes name directories. Each directory that a path leads through is among those that
are looked at, in the spelling of the path and cut off after its name, and there the glob of the
name matches. As long as no rule is negated this decides, however deep the directory is.

* `exists_ancestor`: every directory that a path leads through is looked at.
* `relative_child`: what remains of a path below a root.
* `ofLine?_negated`: a rule is negated only if its line starts with the mark.
* `verdict?_append`, `judge_append`: one more rule, on one level and on all levels of a path.
* `applies_default`: the default excludes apply to the directories that they name.
* `excludes_only_remove`: what appending an exclude does, and what the default excludes do.
-/
namespace Outline

/-! ## The directories of a path -/

namespace Path

theorem join_append_singleton {parts : List (List Char)} (h : parts ≠ []) (s : List Char) :
    join (parts ++ [s]) = join parts ++ '/' :: s := by
  induction parts with
  | nil => exact absurd rfl h
  | cons p ps ih =>
    cases ps with
    | nil => rfl
    | cons q qs =>
      have hrest := ih (List.cons_ne_nil q qs)
      simp only [List.cons_append, join] at hrest ⊢
      rw [hrest, List.append_assoc, List.cons_append]

theorem join_cons {s : List Char} {parts : List (List Char)} (h : parts ≠ []) :
    join (s :: parts) = s ++ '/' :: join parts := by
  cases parts with
  | nil => exact absurd rfl h
  | cons p ps => rfl

theorem join_segments (cs : List Char) : join (segments cs) = cs := by
  induction cs using slash_induction with
  | last part h => rw [segments_of_notMem h]; rfl
  | step part rest h ih =>
    rw [segments_append, segments_of_notMem h, List.singleton_append,
      join_cons (segments_ne_nil rest), ih]

theorem slash_notMem_of_mem_segments {cs s : List Char} (h : s ∈ segments cs) : '/' ∉ s := by
  induction cs using slash_induction with
  | last part hpart =>
    rw [segments_of_notMem hpart, List.mem_singleton] at h
    exact h ▸ hpart
  | step part rest hpart ih =>
    rw [segments_append, segments_of_notMem hpart, List.singleton_append, List.mem_cons] at h
    rcases h with rfl | h
    · exact hpart
    · exact ih h

theorem endsIn_join (before : List (List Char)) (s : List Char) :
    EndsIn (join (before ++ [s])) s := by
  cases before with
  | nil => exact Or.inl rfl
  | cons p ps => exact Or.inr ⟨_, join_append_singleton (List.cons_ne_nil p ps) s⟩

/-- What remains of a path when all after one of its names is taken away. -/
theorem mem_shortenings {s t : List Char} (hs : isVoid s = false) (ht : isVoid t = false)
    {voids : List (List Char)} (hvoids : ∀ v ∈ voids, isVoid v = true)
    (after before : List (List Char)) :
    join (before.reverse ++ [s]) ∈ shortenings (after ++ t :: (voids ++ s :: before)) := by
  induction after with
  | nil =>
    have hdrop : (voids ++ s :: before).dropWhile isVoid = s :: before := by
      rw [List.dropWhile_append_of_pos hvoids, List.dropWhile_cons_of_neg (by simp [hs])]
    rw [List.nil_append, shortenings, ht, if_neg Bool.false_ne_true, hdrop, List.reverse_cons]
    exact List.mem_cons_self
  | cons p ps ih =>
    rw [List.cons_append, shortenings]
    split
    · exact ih
    · exact List.mem_cons_of_mem _ ih

/-- After a part that is not the last name come parts that add nothing, and then another name. -/
theorem split_of_mem_dropLast {parts : List (List Char)} {s : List Char}
    (h : s ∈ (parts.filter (!isVoid ·)).dropLast) :
    ∃ before voids t after, parts = before ++ s :: (voids ++ t :: after) ∧ isVoid s = false ∧
      isVoid t = false ∧ ∀ v ∈ voids, isVoid v = true := by
  induction parts with
  | nil => cases h
  | cons p ps ih =>
    cases hp : isVoid p with
    | true =>
      rw [List.filter_cons_of_neg (by simp [hp])] at h
      obtain ⟨before, voids, t, after, rfl, hrest⟩ := ih h
      exact ⟨p :: before, voids, t, after, rfl, hrest⟩
    | false =>
      rw [List.filter_cons_of_pos (by simp [hp])] at h
      cases hnames : ps.filter (!isVoid ·) with
      | nil => rw [hnames] at h; cases h
      | cons q qs =>
        rw [hnames, List.dropLast_cons_of_ne_nil (List.cons_ne_nil q qs), List.mem_cons] at h
        rcases h with rfl | h
        · obtain ⟨voids, after, rfl, hvoids, hq, -⟩ := List.filter_eq_cons_iff.mp hnames
          exact ⟨[], voids, q, after, rfl, hp, by simpa using hq,
            fun v hv => by simpa using hvoids v hv⟩
        · obtain ⟨before, voids, t, after, rfl, hrest⟩ := ih (hnames ▸ h)
          exact ⟨p :: before, voids, t, after, rfl, hrest⟩

/-- A path leads through a directory of some name, or is one. The name of a directory that is the
path itself counts if nothing is written after it. -/
def HasDirectory (path name : String) (isDirectory : Bool) : Prop :=
  name ∈ (names path).dropLast ∨
    isDirectory = true ∧ (segments path.toList).getLast? = some name.toList

theorem exists_ancestor {path name : String} (h : name ∈ (names path).dropLast) :
    ∃ dir ∈ ancestors path, EndsIn dir.toList name.toList := by
  rw [names, ← List.map_dropLast] at h
  obtain ⟨s, hs, rfl⟩ := List.mem_map.mp h
  rw [String.toList_ofList]
  unfold ancestors
  split
  · rename_i heq
    rw [heq] at hs
    cases hs
  · -- the first part is the dot, and what follows it starts with a slash
    rename_i rest heq
    have hparts : ((segments path.toList).filter (!isVoid ·)) =
        (segments ('/' :: rest)).filter (!isVoid ·) := by
      have hdot : segments ('.' :: '/' :: rest) = ['.'] :: segments rest :=
        segments_append ['.'] rest
      rw [heq, hdot]
      rfl
    rw [hparts] at hs
    obtain ⟨before, voids, t, after, hsplit, hsv, htv, hvoids⟩ := split_of_mem_dropLast hs
    have hne : before ≠ [] := by
      rintro rfl
      have hfirst : s = [] := (List.cons.inj hsplit).1.symm
      rw [hfirst] at hsv
      cases hsv
    refine ⟨String.ofList ('.' :: join (before ++ [s])), ?_, ?_⟩
    · refine List.mem_append_left _ ?_
      refine List.mem_map_of_mem (f := fun s => String.ofList ('.' :: s)) ?_
      rw [hsplit]
      have hreverse : ∀ v ∈ voids.reverse, isVoid v = true := fun v hv =>
        hvoids v (List.mem_reverse.mp hv)
      have hmem := mem_shortenings hsv htv hreverse after.reverse before.reverse
      simpa using hmem
    · rw [String.toList_ofList, join_append_singleton hne]
      exact Or.inr ⟨'.' :: join before, rfl⟩
  · obtain ⟨before, voids, t, after, hsplit, hsv, htv, hvoids⟩ := split_of_mem_dropLast hs
    refine ⟨String.ofList (join (before ++ [s])), List.mem_map_of_mem ?_, ?_⟩
    · rw [hsplit]
      have hreverse : ∀ v ∈ voids.reverse, isVoid v = true := fun v hv =>
        hvoids v (List.mem_reverse.mp hv)
      have hmem := mem_shortenings hsv htv hreverse after.reverse before.reverse
      simpa using hmem
    · rw [String.toList_ofList]
      exact endsIn_join before s

theorem endsIn_of_getLast? {path name : List Char} (h : (segments path).getLast? = some name) :
    EndsIn path name := by
  obtain ⟨before, hbefore⟩ := List.getLast?_eq_some_iff.mp h
  rw [← join_segments path, hbefore]
  exact endsIn_join before name

theorem HasDirectory.slash_notMem {path name : String} {isDirectory : Bool}
    (h : HasDirectory path name isDirectory) : '/' ∉ name.toList := by
  rcases h with h | ⟨-, h⟩
  · obtain ⟨s, hs, rfl⟩ := List.mem_map.mp (List.dropLast_subset _ h)
    rw [String.toList_ofList]
    exact slash_notMem_of_mem_segments (List.mem_filter.mp hs).1
  · exact slash_notMem_of_mem_segments (List.mem_of_getLast? h)

/-- What stands before a path adds to the directories that it leads through. -/
theorem HasDirectory.of_below {path rest name : String} {isDirectory : Bool} {before : List Char}
    (hpath : path.toList = before ++ '/' :: rest.toList) (h : HasDirectory rest name isDirectory) :
    HasDirectory path name isDirectory := by
  rcases h with h | ⟨hdir, h⟩
  · refine Or.inl ?_
    have hne : names rest ≠ [] := by
      intro hnil
      rw [hnil] at h
      cases h
    have hnames : names path =
        ((segments before).filter (!isVoid ·)).map String.ofList ++ names rest := by
      rw [names, hpath, segments_append, List.filter_append, List.map_append]
      rfl
    rw [hnames, List.dropLast_append_of_ne_nil hne]
    exact List.mem_append_right _ h
  · refine Or.inr ⟨hdir, ?_⟩
    rw [hpath, segments_append, List.getLast?_append_of_ne_nil _ (segments_ne_nil _), h]

/-- One slash divides a directory from what is added to it. -/
theorem toList_child (dir name : String) :
    ∃ base, (child dir name).toList = base ++ '/' :: name.toList ∧
      (dir.toList = base ∨ dir.toList = base ++ ['/']) := by
  rw [child]
  split
  · rename_i hlast
    obtain ⟨base, hbase⟩ := List.getLast?_eq_some_iff.mp (beq_iff_eq.mp hlast)
    exact ⟨base, by simp [hbase], Or.inr hbase⟩
  · exact ⟨dir.toList, by simp, Or.inl rfl⟩

end Path

/-! ## Paths below a root -/

namespace IgnoreList

theorem withoutDot_dot (cs : List Char) : withoutDot ('.' :: '/' :: cs) = cs := rfl

theorem withoutDot_of_ne {cs : List Char} (h : ∀ rest, cs ≠ '.' :: '/' :: rest) :
    withoutDot cs = cs := by
  have hnone : ['.', '/'].isPrefixOf? cs = none := by
    cases hprefix : ['.', '/'].isPrefixOf? cs with
    | none => rfl
    | some rest =>
      exact absurd (List.isPrefixOf?_eq_some_iff_append_eq.mp hprefix).symm (h rest)
  rw [withoutDot, hnone, Option.getD_none]

/-- A slash that is left over in front would be taken away, too. -/
theorem left_of_head_ne {rest : List Char} (h : rest.head? ≠ some '/') (whole : List Char) :
    (match some rest with
      | some ('/' :: rest) => rest
      | some rest => rest
      | none => whole) = rest := by
  cases rest with
  | nil => rfl
  | cons c cs =>
    have hc : c ≠ '/' := fun heq => h (by rw [heq]; rfl)
    split <;> simp_all

/-- The root is taken away from what stands below it, unless it is dots and slashes. -/
theorem relative_of_below {l : IgnoreList} {path : String} {base rest : List Char}
    (hpath : withoutDot path.toList = base ++ '/' :: rest)
    (hroot : l.root.toList = base ∨ l.root.toList = base ++ ['/']) (hrest : rest.head? ≠ some '/') :
    (l.relative path).toList = rest ∨
      ∃ before, (l.relative path).toList = '.' :: before ++ '/' :: rest := by
  have hslash : (base ++ '/' :: rest).contains '/' = true := by simp
  rw [relative]
  simp only [hpath, hslash, Bool.not_true, Bool.or_false]
  cases hhere : Path.isHere l.root with
  | true =>
    have hdot : l.root.toList.head? = some '.' := beq_iff_eq.mp (Bool.and_eq_true_iff.mp hhere).1
    obtain ⟨before, rfl⟩ : ∃ before, base = '.' :: before := by
      cases base with
      | nil => rcases hroot with h | h <;> rw [h] at hdot <;> cases hdot
      | cons c cs =>
        have hc : c = '.' := by rcases hroot with h | h <;> rw [h] at hdot <;> cases hdot <;> rfl
        exact ⟨cs, by rw [hc]⟩
    exact Or.inr ⟨before, by simp⟩
  | false =>
    left
    rcases hroot with h | h
    · have hstrip : base.isPrefixOf? (base ++ '/' :: rest) = some ('/' :: rest) :=
        List.isPrefixOf?_eq_some_iff_append_eq.mpr rfl
      simp [h, hstrip]
    · have hstrip : (base ++ ['/']).isPrefixOf? (base ++ '/' :: rest) = some rest :=
        List.isPrefixOf?_eq_some_iff_append_eq.mpr (by simp)
      simp only [h, hstrip, Bool.false_eq_true, if_false, String.toList_ofList]
      exact left_of_head_ne hrest _

theorem relative_child {root rest : String} (hrest : Path.isAbsolute rest = false)
    (lines : List String) :
    ((ofLines root lines).relative (Path.child root rest)).toList = rest.toList ∨
      ∃ before, ((ofLines root lines).relative (Path.child root rest)).toList =
        '.' :: before ++ '/' :: rest.toList := by
  have hhead : rest.toList.head? ≠ some '/' := by simpa [Path.isAbsolute] using hrest
  obtain ⟨base, hchild, hbase⟩ := Path.toList_child root rest
  have hlist : (ofLines root lines).root.toList = withoutDot root.toList :=
    String.toList_ofList ..
  by_cases hdots : ∃ before, base = '.' :: '/' :: before
  · obtain ⟨before, rfl⟩ := hdots
    have hpath : withoutDot (Path.child root rest).toList = before ++ '/' :: rest.toList := by
      rw [hchild]
      exact withoutDot_dot _
    refine relative_of_below hpath ?_ hhead
    · rw [hlist]
      rcases hbase with h | h <;> rw [h]
      · exact Or.inl (withoutDot_dot _)
      · exact Or.inr (withoutDot_dot _)
  by_cases hdot : base = ['.']
  · -- the root is the directory itself, and goes with the dot
    subst hdot
    have hwithout : withoutDot (Path.child root rest).toList = rest.toList := by
      rw [hchild]
      exact withoutDot_dot _
    left
    rw [relative, String.toList_ofList, hwithout]
    rcases hbase with h | h
    · obtain rfl : root = "." := String.toList_inj.mp h
      have hhere : Path.isHere (ofLines "." lines).root = true := by
        change Path.isHere (String.ofList (withoutDot ".".toList)) = true
        decide
      rw [hhere, Bool.true_or, if_pos rfl]
    · have hempty : (ofLines root lines).root.toList = [] := by
        rw [hlist, h]
        rfl
      have hwhole : [].isPrefixOf? rest.toList = some rest.toList := rfl
      rw [hempty, hwhole]
      split
      · rfl
      · exact left_of_head_ne hhead _
  · have hstart : ∀ after more, base ++ '/' :: after ≠ '.' :: '/' :: more := by
      intro after more heq
      match base, hdots, hdot, heq with
      | [c], _, hdot, heq => exact hdot (by rw [(List.cons.inj heq).1])
      | c :: d :: cs, hdots, _, heq =>
        obtain ⟨hc, hrest⟩ := List.cons.inj heq
        exact hdots ⟨cs, by rw [hc, (List.cons.inj hrest).1]⟩
    have hpath : withoutDot (Path.child root rest).toList = base ++ '/' :: rest.toList := by
      rw [hchild]
      exact withoutDot_of_ne (hstart _)
    refine relative_of_below hpath ?_ hhead
    · rw [hlist, withoutDot_of_ne]
      · exact hbase
      · intro more heq
        rcases hbase with h | h <;> rw [h] at heq
        · exact hdots ⟨more, heq⟩
        · exact hstart [] more heq

end IgnoreList

/-! ## One more rule -/

/-- Whether a line starts with the mark of a negated rule. -/
def IgnoreRule.isNegation (line : String) : Bool := line.toList.head? == some '!'

theorem IgnoreRule.trim_prefix (cs : List Char) : trim cs <+: cs := by
  rw [trim]
  split
  · exact List.prefix_refl cs
  · rw [Text.trimEnd, ← List.reverse_suffix, List.reverse_reverse]
    exact List.dropWhile_suffix _

theorem IgnoreRule.negated_closing (l : Line) : (closing l).negated = l.negated := by
  rw [closing]
  split <;> rfl

theorem IgnoreRule.negated_opening {cs : List Char} (h : (opening cs).negated = true) :
    cs.head? = some '!' := by
  unfold opening at h
  split at h <;> simp_all

/-- A rule is negated only if its line starts with the mark. -/
theorem IgnoreRule.ofLine?_negated {line : String} {r : IgnoreRule} (h : ofLine? line = some r)
    (hline : isNegation line = false) : r.negated = false := by
  rw [ofLine?_eq] at h
  split at h
  · cases h
  · rename_i hsome
    obtain ⟨glob, -, rfl⟩ := Option.map_eq_some_iff.mp h
    cases hnegated : (unmarked line).negated with
    | false => rfl
    | true =>
      rw [unmarked, negated_closing] at hnegated
      have hhead := negated_opening hnegated
      obtain ⟨cs, hcs⟩ := List.head?_eq_some_iff.mp hhead
      have hprefix := trim_prefix line.toList
      rw [hcs] at hprefix
      obtain ⟨more, hmore⟩ := hprefix
      rw [isNegation, ← hmore] at hline
      cases hline

/-- The rules at the end have the last word. -/
theorem verdict?_append (rules more : List IgnoreRule) (path : String) (isDirectory : Bool) :
    verdict? (rules ++ more) path isDirectory =
      (verdict? more path isDirectory).or (verdict? rules path isDirectory) := by
  rw [verdict?, List.reverse_append, List.find?_append, Option.map_or]
  rfl

theorem verdict?_ne_kept {rules : List IgnoreRule} (h : ∀ r ∈ rules, r.negated = false)
    (path : String) (isDirectory : Bool) : verdict? rules path isDirectory ≠ some .kept := by
  intro hkept
  obtain ⟨r, hr, hverdict⟩ := Option.map_eq_some_iff.mp hkept
  have hmem := List.mem_reverse.mp (List.mem_of_find?_eq_some hr)
  rw [IgnoreRule.verdict, h r hmem] at hverdict
  cases hverdict

theorem verdict?_of_applies {rules : List IgnoreRule} (h : ∀ r ∈ rules, r.negated = false)
    {r : IgnoreRule} (hr : r ∈ rules) {path : String} {isDirectory : Bool}
    (happlies : r.applies path isDirectory = true) :
    verdict? rules path isDirectory = some .ignored := by
  cases hverdict : verdict? rules path isDirectory with
  | none =>
    have hnone := List.find?_eq_none.mp (Option.map_eq_none_iff.mp hverdict) r
      (List.mem_reverse.mpr hr)
    exact absurd happlies hnone
  | some v =>
    cases v with
    | ignored => rfl
    | kept => exact absurd hverdict (verdict?_ne_kept h path isDirectory)

/-! ## All levels of a path -/

theorem findSome?_of_override {α β : Type} {f g : α → Option β} {b : β} {xs : List α}
    (h : ∀ x, g x = f x ∨ g x = some b) (hf : xs.findSome? f = some b) :
    xs.findSome? g = some b := by
  induction xs with
  | nil => cases hf
  | cons x xs ih =>
    rw [List.findSome?_cons] at hf ⊢
    rcases h x with heq | heq
    · rw [heq]
      split at hf
      · exact hf
      · exact ih hf
    · rw [heq]

namespace IgnoreList

variable {l : IgnoreList} {path : String} {isDirectory : Bool}

/-- The path itself and the directories around it, in the order in which they are looked at. -/
def levels (path : String) (isDirectory : Bool) : List (String × Bool) :=
  (path, isDirectory) :: (Path.ancestors path).map (·, true)

theorem judge_eq (l : IgnoreList) (path : String) (isDirectory : Bool) :
    l.judge path isDirectory =
      (levels path isDirectory).findSome? fun x => verdict? l.rules x.1 x.2 := by
  rw [judge, levels, List.findSome?_cons, List.findSome?_map]
  cases verdict? l.rules path isDirectory <;> rfl

theorem judge_append (more : List IgnoreRule) (hmore : ∀ r ∈ more, r.negated = false)
    (h : l.judge path isDirectory = some .ignored) :
    judge { l with rules := l.rules ++ more } path isDirectory = some .ignored := by
  rw [judge_eq] at h ⊢
  refine findSome?_of_override (fun x => ?_) h
  rw [verdict?_append]
  cases hverdict : verdict? more x.1 x.2 with
  | none => exact Or.inl rfl
  | some v =>
    cases v with
    | ignored => exact Or.inr rfl
    | kept => exact absurd hverdict (verdict?_ne_kept hmore x.1 x.2)

/-- Where no rule is negated, a rule that applies on any level decides. -/
theorem judge_of_applies (h : ∀ r ∈ l.rules, r.negated = false) {x : String × Bool}
    (hx : x ∈ levels path isDirectory) {r : IgnoreRule} (hr : r ∈ l.rules)
    (happlies : r.applies x.1 x.2 = true) : l.judge path isDirectory = some .ignored := by
  have hsome : (l.judge path isDirectory).isSome = true := by
    rw [judge_eq, List.findSome?_isSome_iff]
    exact ⟨x, hx, by rw [verdict?_of_applies h hr happlies]; rfl⟩
  obtain ⟨v, hv⟩ := Option.isSome_iff_exists.mp hsome
  cases v with
  | ignored => exact hv
  | kept =>
    rw [judge_eq] at hv
    obtain ⟨y, -, hy⟩ := List.exists_of_findSome?_eq_some hv
    exact absurd hy (verdict?_ne_kept h y.1 y.2)

/-- Whether a path is ignored goes by the rules, and whether it can be told at all by the root. -/
theorem isIgnored?_eq_some_true_iff : l.isIgnored? path isDirectory = some true ↔
    Path.isAbsolute (l.relative path) = false ∧
      l.judge (l.relative path) isDirectory = some .ignored := by
  rw [isIgnored?]
  cases Path.isAbsolute (l.relative path) <;> simp

theorem isIgnored?_eq_none_iff : l.isIgnored? path isDirectory = none ↔
    Path.isAbsolute (l.relative path) = true := by
  rw [isIgnored?]
  cases Path.isAbsolute (l.relative path) <;> simp

theorem excluding_append (root : String) (more : List String) (line : String) :
    excluding root (more ++ [line]) =
      { excluding root more with
        rules := (excluding root more).rules ++ (IgnoreRule.ofLine? line).toList } := by
  have hlast : [line].filterMap IgnoreRule.ofLine? = (IgnoreRule.ofLine? line).toList := by
    cases h : IgnoreRule.ofLine? line <;> simp [h]
  simp only [excluding, ofLines, ← List.append_assoc, List.filterMap_append, hlast]

theorem relative_append (root : String) (more : List String) (line path : String) :
    (excluding root (more ++ [line])).relative path = (excluding root more).relative path := by
  have hroot : (excluding root (more ++ [line])).root = (excluding root more).root := rfl
  rw [relative, relative, hroot]

theorem isIgnored?_append {root : String} {more : List String} {line : String}
    (hline : IgnoreRule.isNegation line = false)
    (h : (excluding root more).isIgnored? path isDirectory = some true) :
    (excluding root (more ++ [line])).isIgnored? path isDirectory = some true := by
  rw [isIgnored?_eq_some_true_iff] at h ⊢
  rw [relative_append, excluding_append]
  refine ⟨h.1, judge_append _ (fun r hr => ?_) h.2⟩
  exact IgnoreRule.ofLine?_negated (Option.mem_toList.mp hr) hline

/-- What is kept with one more rule was kept before. -/
theorem isIgnored?_of_append {root : String} {more : List String} {line : String}
    (hline : IgnoreRule.isNegation line = false)
    (h : (excluding root (more ++ [line])).isIgnored? path isDirectory = some false) :
    (excluding root more).isIgnored? path isDirectory = some false := by
  cases hbefore : (excluding root more).isIgnored? path isDirectory with
  | none =>
    have hnone : (excluding root (more ++ [line])).isIgnored? path isDirectory = none := by
      rw [isIgnored?_eq_none_iff, relative_append]
      exact isIgnored?_eq_none_iff.mp hbefore
    rw [hnone] at h
    cases h
  | some b =>
    cases b with
    | false => rfl
    | true =>
      rw [isIgnored?_append hline hbefore] at h
      cases h

end IgnoreList

/-! ## The default excludes -/

/-- A line for directories names one: it is the name with a slash after it, or a star in the line
stands for the start of the name. -/
def IgnoreRule.NamesDirectory (line name : String) : Prop :=
  line = name ++ "/" ∨ ∃ stem ending, name = stem ++ ending ∧ line = "*" ++ ending ++ "/"

/-- The names in the default excludes, and whether a star stands before them. -/
theorem defaultExcludes_spelled {line : String} (h : line ∈ defaultExcludes) :
    ∃ starred name, name ≠ [] ∧ (∀ c ∈ name, Glob.isPlain c = true) ∧
      line.toList = Glob.starText starred ++ name ++ ['/'] := by
  have hall : ∀ line ∈ defaultExcludes, line.toList.filter Glob.isPlain ≠ [] ∧
      line.toList = Glob.starText (line.toList.head? == some '*') ++
        line.toList.filter Glob.isPlain ++ ['/'] := by
    decide +kernel
  obtain ⟨hne, hline⟩ := hall line h
  exact ⟨_, _, hne, fun c hc => (List.mem_filter.mp hc).2, hline⟩

theorem IgnoreRule.applies_default {line name : String} (hline : line ∈ defaultExcludes)
    (hname : NamesDirectory line name) (hslash : '/' ∉ name.toList) :
    ∃ r, ofLine? line = some r ∧
      ∀ dir : String, Path.EndsIn dir.toList name.toList → r.applies dir true = true := by
  obtain ⟨starred, text, htext, hplain, hspelled⟩ := defaultExcludes_spelled hline
  obtain ⟨stem, hstem, hends⟩ : ∃ stem, Glob.IsStem starred stem ∧ name.toList = stem ++ text := by
    rcases hname with rfl | ⟨stem, ending, rfl, rfl⟩
    · rw [String.toList_append] at hspelled
      have hwhole : name.toList = Glob.starText starred ++ text :=
        List.append_cancel_right hspelled
      refine ⟨Glob.starText starred, ?_, hwhole⟩
      cases starred with
      | true => simp [Glob.IsStem, Glob.starText]
      | false => rfl
    · have hending : '*' :: ending.toList = Glob.starText starred ++ text := by
        have hclosed : '*' :: ending.toList ++ ['/'] = Glob.starText starred ++ text ++ ['/'] := by
          rw [← hspelled]
          simp
        exact List.append_cancel_right hclosed
      cases starred with
      | true =>
        have hsame : ending.toList = text := (List.cons.inj hending).2
        refine ⟨stem.toList, fun hmem => hslash ?_, by rw [String.toList_append, hsame]⟩
        rw [String.toList_append]
        exact List.mem_append_left _ hmem
      | false =>
        have hstar : '*' ∈ text := by
          change '*' :: ending.toList = text at hending
          rw [← hending]
          exact List.mem_cons_self
        exact absurd (hplain _ hstar) (by decide)
  refine ⟨_, ofLine?_directory htext hplain starred hspelled, fun dir hdir => ?_⟩
  rw [hends] at hdir
  rw [applies, Glob.isMatch_nameTokens hstem hdir]
  rfl

theorem IgnoreList.negated_excluding {root : String} {more : List String}
    (hmore : ∀ line ∈ more, IgnoreRule.isNegation line = false) :
    ∀ r ∈ (excluding root more).rules, r.negated = false := by
  intro r hr
  obtain ⟨line, hline, hr⟩ := List.mem_filterMap.mp hr
  refine IgnoreRule.ofLine?_negated hr ?_
  rcases List.mem_append.mp hline with hdefault | hextra
  · have hall : ∀ line ∈ defaultExcludes, IgnoreRule.isNegation line = false := by decide +kernel
    exact hall line hdefault
  · exact hmore line hextra

/-- A path that leads through a directory with a default name is ignored. -/
theorem IgnoreList.judge_of_hasDirectory {root : String} {more : List String}
    (hmore : ∀ line ∈ more, IgnoreRule.isNegation line = false) {path name line : String}
    {isDirectory : Bool} (hpath : Path.HasDirectory path name isDirectory)
    (hline : line ∈ defaultExcludes) (hname : IgnoreRule.NamesDirectory line name) :
    (excluding root more).judge path isDirectory = some .ignored := by
  obtain ⟨r, hr, happlies⟩ := IgnoreRule.applies_default hline hname hpath.slash_notMem
  have hmem : r ∈ (excluding root more).rules :=
    List.mem_filterMap.mpr ⟨line, List.mem_append_left _ hline, hr⟩
  rcases hpath with hdir | ⟨rfl, hlast⟩
  · obtain ⟨dir, hdir, hends⟩ := Path.exists_ancestor hdir
    have hlevel : (dir, true) ∈ levels path isDirectory :=
      List.mem_cons_of_mem _ (List.mem_map_of_mem hdir)
    exact judge_of_applies (negated_excluding hmore) hlevel hmem (happlies dir hends)
  · exact judge_of_applies (negated_excluding hmore) List.mem_cons_self hmem
      (happlies path (Path.endsIn_of_getLast? hlast))

/-- Below a root all directories count that come after it. -/
theorem Path.HasDirectory.relative_child {rest name : String} {isDirectory : Bool}
    (hrest : isAbsolute rest = false) (h : HasDirectory rest name isDirectory) (root : String)
    (lines : List String) :
    isAbsolute ((IgnoreList.ofLines root lines).relative (child root rest)) = false ∧
      HasDirectory ((IgnoreList.ofLines root lines).relative (child root rest)) name
        isDirectory := by
  rcases IgnoreList.relative_child hrest lines with heq | ⟨before, heq⟩
  · rw [String.toList_inj.mp heq]
    exact ⟨hrest, h⟩
  · exact ⟨by rw [isAbsolute, heq]; rfl, h.of_below heq⟩

/-- **Excludes only ever remove files, unless they are negated.** For any root and any excludes: one
more that does not start with the mark leaves ignored what was ignored, so that of the files that
were found in a directory some are left, in their order. A line that holds no rule changes nothing;
these are comments, blank lines, and lines whose glob is not valid. And if no exclude starts with
the mark, every path is ignored that leads below the root through a directory that one of the
default excludes names, at any depth. -/
theorem excludes_only_remove (root : String) (more : List String) :
    (∀ line, IgnoreRule.isNegation line = false →
      (∀ path isDirectory,
        (IgnoreList.excluding root more).isIgnored? path isDirectory = some true →
          (IgnoreList.excluding root (more ++ [line])).isIgnored? path isDirectory = some true) ∧
      ∀ fs wanted, (Discovery.collect fs root (more ++ [line]) wanted).Sublist
        (Discovery.collect fs root more wanted)) ∧
    (∀ line, IgnoreRule.ofLine? line = none →
      (∀ path isDirectory,
        (IgnoreList.excluding root (more ++ [line])).isIgnored? path isDirectory =
          (IgnoreList.excluding root more).isIgnored? path isDirectory) ∧
      ∀ fs wanted, Discovery.collect fs root (more ++ [line]) wanted =
        Discovery.collect fs root more wanted) ∧
    (∀ line, IgnoreRule.ofLine? line = none ↔
      line.toList.head? = some '#' ∨ IgnoreRule.trim line.toList = [] ∨
        Glob.parse? (String.ofList (IgnoreRule.globText (IgnoreRule.unmarked line))) = none) ∧
    ((∀ line ∈ more, IgnoreRule.isNegation line = false) →
      ∀ name, ∀ line ∈ defaultExcludes, IgnoreRule.NamesDirectory line name → ∀ isDirectory,
        (∀ rest, Path.isAbsolute rest = false → Path.HasDirectory rest name isDirectory →
          (IgnoreList.excluding root more).isIgnored? (Path.child root rest) isDirectory =
            some true) ∧
        ∀ path, (IgnoreList.excluding root more).isIgnored? path isDirectory ≠ none →
          Path.HasDirectory ((IgnoreList.excluding root more).relative path) name isDirectory →
          (IgnoreList.excluding root more).isIgnored? path isDirectory = some true) := by
  refine ⟨fun line hline => ⟨fun path isDirectory => IgnoreList.isIgnored?_append hline,
    fun fs wanted => ?_⟩, fun line hline => ?_, fun line => ?_,
    fun hmore name line hline hname isDirectory => ⟨fun rest hrest hdir => ?_,
      fun path hpath hdir => ?_⟩⟩
  · have hfilter : Discovery.collect fs root (more ++ [line]) wanted =
        (Discovery.collect fs root more wanted).filter fun path =>
          (IgnoreList.excluding root (more ++ [line])).isIgnored? path false == some false := by
      refine Discovery.collect_filter _ fun path => ?_
      cases hkept :
          (IgnoreList.excluding root (more ++ [line])).isIgnored? path false == some false with
      | true => simp [IgnoreList.isIgnored?_of_append hline (beq_iff_eq.mp hkept)]
      | false => simp only [Bool.false_and]
    rw [hfilter]
    exact List.filter_sublist
  · have hsame : IgnoreList.excluding root (more ++ [line]) = IgnoreList.excluding root more := by
      rw [IgnoreList.excluding_append, hline, Option.toList_none, List.append_nil]
    exact ⟨fun path isDirectory => by rw [hsame], fun fs wanted => by
      rw [Discovery.collect, Discovery.collect, hsame]⟩
  · rw [IgnoreRule.ofLine?_eq]
    split
    · rename_i hnone
      exact ⟨fun _ => hnone.imp id Or.inl, fun _ => rfl⟩
    · rename_i hsome
      rw [not_or] at hsome
      simp [hsome.1, hsome.2]
  · obtain ⟨habsolute, hbelow⟩ := hdir.relative_child hrest root (defaultExcludes ++ more)
    exact IgnoreList.isIgnored?_eq_some_true_iff.mpr
      ⟨habsolute, IgnoreList.judge_of_hasDirectory hmore hbelow hline hname⟩
  · have habsolute : Path.isAbsolute ((IgnoreList.excluding root more).relative path) = false := by
      cases h : Path.isAbsolute ((IgnoreList.excluding root more).relative path) with
      | false => rfl
      | true => exact absurd (IgnoreList.isIgnored?_eq_none_iff.mpr h) hpath
    exact IgnoreList.isIgnored?_eq_some_true_iff.mpr
      ⟨habsolute, IgnoreList.judge_of_hasDirectory hmore hdir hline hname⟩

/-- A file that one exclude ignores, with another exclude after it; a pattern without its second
brace; a package directory deep below the root, with an exclude that is about another one; and a
directory that is searched with one exclude more. -/
theorem excludes_only_remove_deep :
    (IgnoreList.excluding "proj" ["*.py", "gen/"]).isIgnored? "proj/a.py" false = some true ∧
    (IgnoreList.excluding "proj" ["*.py", "x\x7ba"]).isIgnored? "proj/b.java" false =
      (IgnoreList.excluding "proj" ["*.py"]).isIgnored? "proj/b.java" false ∧
    (IgnoreList.excluding "/proj" ["gen/"]).isIgnored? "/proj/a/./lib.egg-info//b/C.java" false =
      some true ∧
    "/work/src/b.py" ∈ Discovery.collect .twoLanguages "/work/src" [] (fun _ => true) ∧
    (Discovery.collect .twoLanguages "/work/src" ["*.py"] fun _ => true).Sublist
      (Discovery.collect .twoLanguages "/work/src" [] fun _ => true) := by
  obtain ⟨happend, hinvalid, hnone, -⟩ := excludes_only_remove "proj" ["*.py"]
  obtain ⟨-, -, -, hdefault⟩ := excludes_only_remove "/proj" ["gen/"]
  obtain ⟨hsearch, -⟩ := excludes_only_remove "/work/src" []
  refine ⟨(happend "gen/" (by decide)).1 _ _ (by decide +kernel),
    (hinvalid "x\x7ba" ((hnone _).mpr (Or.inr (Or.inr (by decide +kernel))))).1 _ _, ?_, ?_,
    (hsearch "*.py" (by decide)).2 _ _⟩
  · have hnames : IgnoreRule.NamesDirectory "*.egg-info/" "lib.egg-info" :=
      Or.inr ⟨"lib", ".egg-info", by decide, by decide⟩
    exact (hdefault (by decide) _ "*.egg-info/" (by decide) hnames false).1
      "a/./lib.egg-info//b/C.java" (by decide) (Or.inl (by decide))
  · have hfound : "/work/src/b.py" ∈ (Discovery.candidates .twoLanguages "/work/src").filter
        (fun x => (IgnoreList.excluding "/work/src" []).isIgnored? x false == some false && true) :=
      by decide +kernel
    rwa [Discovery.collect, List.mem_mergeSort]

end Outline
