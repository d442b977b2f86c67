import Outline.Config
import Outline.Proofs.FileWrites
import Outline.Proofs.Toml.Documents

/-!
# Configurations in files

A configuration that is written is read back as it was, and a write that fails changes nothing.

The text of a configuration is a document of plain lines, one for each setting that is there; so it
is read as these settings, and the others take their defaults. Of the file system it is asked that a
write happens as a whole or is refused (`Store.IsWhole`). That a failure changes nothing would be
true of any function that answers an error or new files; so the write is taken as a program that
changes the files step by step (`Config.writing`), in which what was done before a failure stays.

* `reads_writeStrings`: a written array is read as its items.
* `ofText?_of_toText?`: the text of a configuration is read as the configuration.
* `attempt_writing`: all that a write can do.
* `runOn_writing_plain`: `Config.write` is that program, taken as a whole.
* `config_write_all_or_nothing`: the result.
-/
namespace Outline
open Toml

/-! ## Texts of configurations -/

namespace Config

theorem toList_writeStrings (s s' : String) (ss : List String) :
    (writeStrings (s :: s' :: ss)).toList =
      '[' :: '\n' :: ((s :: s' :: ss).flatMap itemLine ++ [']']) := by
  have hitem : ∀ s : String, ("    " ++ writeString s ++ ",\n").toList = itemLine s := by
    intro s
    simp [itemLine]
  rw [writeStrings]
  · simp only [String.toList_append, String.toList_join, List.flatMap_map, hitem]
    rfl
  all_goals simp

theorem reads_writeStrings (ss : List String) :
    Reads (.array (ss.map .string)) (writeStrings ss) := by
  have hdepth : depthLimit - 1 = 78 + 1 := rfl
  match ss with
  | [] => exact ⟨rfl, fun rest => rfl⟩
  | [s] =>
    have htext : (writeStrings [s]).toList = '[' :: ((writeString s).toList ++ [']']) := by
      simp [writeStrings]
    refine ⟨by rw [htext]; rfl, fun rest => ?_⟩
    have hskip := skipLines_writeString s (']' :: '\n' :: rest)
    have hclear : Clear (']' :: '\n' :: rest) := by simp [Clear]
    have hread := value?_writeString s hclear 78
    rw [← hskip] at hread
    have hopen : ∀ t, skipLines ((writeString s).toList ++ ']' :: '\n' :: rest) ≠ ']' :: t := by
      rw [hskip]
      exact writeString_ne_close s _
    have hclose : skipLines (']' :: '\n' :: rest) = ']' :: '\n' :: rest :=
      skipLines_cons rfl (by decide) (by decide) (by decide) _
    have hitems := items?_last hopen hread hclose
    rw [htext, List.cons_append, List.append_assoc, List.singleton_append, hdepth,
      value?_bracket, hitems]
    rfl
  | s :: s' :: ss =>
    refine ⟨by rw [toList_writeStrings]; rfl, fun rest => ?_⟩
    have hfuel : (s :: s' :: ss).length <
        ('\n' :: ((s :: s' :: ss).flatMap itemLine ++ ']' :: '\n' :: rest)).length + 1 := by
      have hle : _ ≤ ((s :: s' :: ss).flatMap itemLine).length :=
        length_le_flatMap (by simp [itemLine]) (s :: s' :: ss)
      simp only [List.length_cons, List.length_append] at hle ⊢
      omega
    rw [toList_writeStrings, List.cons_append, List.cons_append, List.append_assoc,
      List.singleton_append, hdepth, value?_bracket, items?_lines _ _ hfuel]
    rfl

/-- The line of a setting, if it is there. -/
def settingLines {α : Type} (key : String) (bare : IsBare key) (value : α → Value)
    (write : α → String) : (a : Option α) → (∀ x ∈ a, Reads (value x) (write x)) → List Entry
  | some x, h => [⟨key, value x, write x, bare, h x rfl⟩]
  | none, _ => []

theorem toList_lineOf {α : Type} {key : String} (bare : IsBare key) {value : α → Value}
    {write : α → String} {a : Option α} (h : ∀ x ∈ a, Reads (value x) (write x)) :
    (lineOf key write a).toList = (settingLines key bare value write a h).flatMap Entry.line := by
  cases a with
  | none => rfl
  | some x => simp [lineOf, line, settingLines, Entry.line]

/-- The lines of a configuration. -/
def entries (c : Config) (h : ∀ n ∈ c.jobs, n < signedBound) : List Entry :=
  settingLines "language" (by decide) .string writeString c.language
    (fun s _ => reads_writeString s) ++
  settingLines "jobs" (by decide) (fun n : Nat => .integer n) toString c.jobs
    (fun n hn => reads_toString (h n hn)) ++
  settingLines "dump_nodes" (by decide) .boolean (fun b => if b then "true" else "false")
    c.dumpNodes (fun b _ => reads_boolean b) ++
  settingLines "exclude" (by decide) (fun ss => .array (ss.map .string)) writeStrings
    (some c.exclude) (fun ss _ => reads_writeStrings ss)

theorem toText?_eq_some_iff {c : Config} {text : String} : c.toText? = some text ↔
    ∃ h : ∀ n ∈ c.jobs, n < signedBound, text.toList = (c.entries h).flatMap Entry.line := by
  have hbound : c.jobs.any (signedBound ≤ ·) = false ↔ ∀ n ∈ c.jobs, n < signedBound := by
    cases c.jobs <;> simp
  rw [toText?]
  by_cases h : ∀ n ∈ c.jobs, n < signedBound
  · rw [exists_prop_of_true h, hbound.mpr h, if_neg Bool.false_ne_true, Option.some.injEq,
      ← String.toList_inj, eq_comm]
    simp only [entries, List.flatMap_append, ← toList_lineOf, String.toList_append]
    rfl
  · rw [if_pos (by rwa [← hbound, Bool.not_eq_false] at h)]
    constructor
    · intro hnone
      cases hnone
    · rintro ⟨hall, -⟩
      exact absurd hall h

theorem ofMembers?_entries (c : Config) (h : ∀ n ∈ c.jobs, n < signedBound) :
    ofMembers? ((c.entries h).map Entry.pair) = some c := by
  have hstrings : ∀ ss : List String, (ss.map Value.string).mapM asString = some ss := by
    intro ss
    induction ss with
    | nil => rfl
    | cons s ss ih => simp [asString, ih]
  obtain ⟨language, jobs, dumpNodes, exclude⟩ := c
  cases language <;> cases jobs <;> cases dumpNodes <;>
    simp [entries, settingLines, Entry.pair, ofMembers?, setting, List.lookup_cons, asString, asNat,
      asBool, asStrings, hstrings]

theorem nodup_entries (c : Config) (h : ∀ n ∈ c.jobs, n < signedBound) :
    ((c.entries h).map Entry.key).Nodup := by
  obtain ⟨language, jobs, dumpNodes, exclude⟩ := c
  cases language <;> cases jobs <;> cases dumpNodes <;> simp [entries, settingLines]

/-- The text of a configuration is read as the configuration. -/
theorem ofText?_of_toText? {c : Config} {text : String} (h : c.toText? = some text) :
    ofText? text = some c := by
  obtain ⟨hjobs, htext⟩ := toText?_eq_some_iff.mp h
  rw [ofText?, read?_entries (nodup_entries c hjobs) htext, Option.bind_some, ofMembers?_entries]

end Config

/-! ## Writing as a program -/

/-- A program on files that may fail. What it did before it failed stays done. -/
abbrev FileProgram (ε α : Type) := ExceptT ε (StateM FileSystem) α

/-- What a program answers, and the files after it. -/
def FileProgram.runOn {ε α : Type} (p : FileProgram ε α) (fs : FileSystem) :
    Except ε α × FileSystem :=
  (ExceptT.run p).run fs

namespace FileProgram

variable {ε ε' α β : Type} (fs fs' : FileSystem)

@[simp] theorem runOn_pure (a : α) : (pure a : FileProgram ε α).runOn fs = (.ok a, fs) := rfl

@[simp] theorem runOn_throw (e : ε) : (throw e : FileProgram ε α).runOn fs = (.error e, fs) := rfl

@[simp] theorem runOn_get : (get : FileProgram ε FileSystem).runOn fs = (.ok fs, fs) := rfl

@[simp] theorem runOn_set : (set fs' : FileProgram ε PUnit).runOn fs = (.ok (), fs') := rfl

@[simp] theorem runOn_bind (p : FileProgram ε α) (f : α → FileProgram ε β) :
    runOn (p >>= f) fs =
      match p.runOn fs with
      | (.ok a, fs') => (f a).runOn fs'
      | (.error e, fs') => (.error e, fs') := by
  unfold runOn ExceptT.run StateT.run
  simp only [bind, ExceptT.bind, ExceptT.mk, StateT.bind]
  obtain ⟨result, fs'⟩ := p fs
  cases result <;> rfl

@[simp] theorem runOn_adapt (f : ε → ε') (p : FileProgram ε α) :
    runOn (ExceptT.adapt f p) fs = ((p.runOn fs).1.mapError f, (p.runOn fs).2) := rfl

end FileProgram

/-- A way to write a text under a path. -/
abbrev Store := (path text : String) → FileProgram FileError Unit

/-- A write happens as a whole, or is refused and changes nothing. It may be refused for reasons of
its own. -/
def Store.IsWhole (store : Store) : Prop :=
  ∀ path text fs, (∃ cause, (store path text).runOn fs = (.error cause, fs)) ∨
    ∃ fs', fs.writeText path text = .ok fs' ∧ (store path text).runOn fs = (.ok (), fs')

/-- The write that is refused only where there is no place for a file. -/
def Store.plain : Store := fun path text => do
  match (← get).writeText path text with
  | .ok fs' => set fs'
  | .error cause => throw cause

theorem Store.isWhole_plain : Store.plain.IsWhole := by
  intro path text fs
  cases h : fs.writeText path text with
  | ok fs' => exact .inr ⟨fs', rfl, by simp [plain, h]⟩
  | error cause => exact .inl ⟨cause, by simp [plain, h]⟩

/-- `Config.write` step by step: it looks whether there is a file, makes the text and stores it. -/
def Config.writing (store : Store) (path : String) (c : Config) (force : Bool) :
    FileProgram ConfigError Unit := do
  if (← get).has path && !force then throw (.alreadyThere path)
  match c.toText? with
  | none => throw .unwritable
  | some text => ExceptT.adapt ConfigError.file (store path text)

namespace Config

theorem runOn_writing (store : Store) (fs : FileSystem) (path : String) (c : Config)
    (force : Bool) :
    (writing store path c force).runOn fs =
      if fs.has path = true ∧ force = false then (.error (.alreadyThere path), fs)
      else
        match c.toText? with
        | none => (.error .unwritable, fs)
        | some text =>
          (((store path text).runOn fs).1.mapError .file, ((store path text).runOn fs).2) := by
  by_cases h : fs.has path = true ∧ force = false
  · simp [writing, h]
  · cases htext : c.toText? with
    | none => simp [writing, h, htext]
    | some text => simp [writing, h, htext]

/-- All that a write can do: it stops at a file that is there, at a configuration without a text, or
at a refusal, and else it stores the text. -/
inductive Attempt (store : Store) (fs : FileSystem) (path : String) (c : Config) (force : Bool) :
    Except ConfigError Unit × FileSystem → Prop
  | there (h : fs.has path = true ∧ force = false) :
      Attempt store fs path c force (.error (.alreadyThere path), fs)
  | unwritable (h : ¬ (fs.has path = true ∧ force = false)) (htext : c.toText? = none) :
      Attempt store fs path c force (.error .unwritable, fs)
  | refused (h : ¬ (fs.has path = true ∧ force = false)) {text : String} {cause : FileError}
      (htext : c.toText? = some text) (hstore : (store path text).runOn fs = (.error cause, fs)) :
      Attempt store fs path c force (.error (.file cause), fs)
  | stored (h : ¬ (fs.has path = true ∧ force = false)) {text : String} {fs' : FileSystem}
      (htext : c.toText? = some text) (hwrite : fs.writeText path text = .ok fs')
      (hstore : (store path text).runOn fs = (.ok (), fs')) :
      Attempt store fs path c force (.ok (), fs')

theorem attempt_writing {store : Store} (hstore : store.IsWhole) (fs : FileSystem) (path : String)
    (c : Config) (force : Bool) :
    Attempt store fs path c force ((writing store path c force).runOn fs) := by
  rw [runOn_writing]
  by_cases h : fs.has path = true ∧ force = false
  · rw [if_pos h]
    exact .there h
  · rw [if_neg h]
    cases htext : c.toText? with
    | none => exact .unwritable h htext
    | some text =>
      rcases hstore path text fs with ⟨cause, hrefused⟩ | ⟨fs', hwrite, hstored⟩
      · simp only [hrefused]
        exact .refused h htext hrefused
      · simp only [hstored]
        exact .stored h htext hwrite hstored

/-- `Config.write` is the program with plain writes, taken as a whole. -/
theorem runOn_writing_plain (fs : FileSystem) (path : String) (c : Config) (force : Bool) :
    (writing .plain path c force).runOn fs =
      match write fs path c force with
      | .ok fs' => (.ok (), fs')
      | .error e => (.error e, fs) := by
  rw [runOn_writing]
  by_cases h : fs.has path = true ∧ force = false
  · simp [write, h]
  · cases htext : c.toText? with
    | none => simp [write, h, htext]
    | some text =>
      cases hwrite : fs.writeText path text with
      | ok fs' => simp [write, h, htext, Store.plain, hwrite, Except.mapError]
      | error cause => simp [write, h, htext, Store.plain, hwrite, Except.mapError]

theorem load_writeText {fs fs' : FileSystem} {path text : String} {c : Config}
    (h : fs.writeText path text = .ok fs') (htext : c.toText? = some text) :
    load fs' path = .ok (some c) := by
  rw [load, FileSystem.has_writeText h, FileSystem.readText_writeText h]
  simp [ofText?_of_toText? htext]

end Config

/-- **Writing a configuration is all or nothing, and it is read back exactly.** For any files,
working directory, path, configuration and choice of force, and any way to write a file as a whole
or to refuse it: if the write fails, all files are as they were. If it goes through, the path leads
to the one place that has changed, and loading it gives the configuration. It fails whenever there
is a file and no force; apart from that it goes through just if the configuration has a text and the
text is stored. The configurations without a text are those with a number of jobs that has no place
in 64 bits with a sign. If texts are stored wherever there is a place for them, this is
`Config.write`. -/
theorem config_write_all_or_nothing (store : Store) (hstore : store.IsWhole) (fs : FileSystem)
    (path : String) (c : Config) (force : Bool) :
    (∀ e fs', (Config.writing store path c force).runOn fs = (.error e, fs') → fs' = fs) ∧
    (∀ fs', (Config.writing store path c force).runOn fs = (.ok (), fs') →
      fs'.here = fs.here ∧
      (∃ place, fs'.resolve path = .ok place ∧
        ∀ other, other ≠ place → fs'.root.glance? other = fs.root.glance? other) ∧
      Config.load fs' path = .ok (some c)) ∧
    (fs.has path = true → force = false →
      (Config.writing store path c force).runOn fs = (.error (.alreadyThere path), fs)) ∧
    (((Config.writing store path c force).runOn fs).1 = .ok () ↔
      ¬ (fs.has path = true ∧ force = false) ∧
        ∃ text, c.toText? = some text ∧ ((store path text).runOn fs).1 = .ok ()) ∧
    (c.toText?.isSome = true ↔ ∀ n ∈ c.jobs, n < signedBound) ∧
    (Config.writing .plain path c force).runOn fs =
      match Config.write fs path c force with
      | .ok fs' => (.ok (), fs')
      | .error e => (.error e, fs) := by
  have hattempt := Config.attempt_writing hstore fs path c force
  refine ⟨?_, ?_, ?_, ?_, ?_, Config.runOn_writing_plain fs path c force⟩
  · intro e fs' h
    rw [h] at hattempt
    cases hattempt <;> rfl
  · intro fs' h
    rw [h] at hattempt
    cases hattempt with
    | stored _ htext hwrite _ =>
      obtain ⟨hhere, hplace⟩ := FileSystem.resolve_writeText hwrite
      exact ⟨hhere, hplace, Config.load_writeText hwrite htext⟩
  · intro hhas hforce
    rw [Config.runOn_writing, if_pos ⟨hhas, hforce⟩]
  · generalize (Config.writing store path c force).runOn fs = result at hattempt
    cases hattempt with
    | there h => simp [h]
    | unwritable _ htext => simp [htext]
    | refused _ htext hrefused => simp [htext, hrefused]
    | stored h htext _ hstored =>
      simp only [htext, Option.some.injEq, exists_eq_left', hstored]
      exact ⟨fun _ => ⟨h, trivial⟩, fun _ => trivial⟩
  · rw [Option.isSome_iff_exists]
    constructor
    · rintro ⟨text, htext⟩
      exact (Config.toText?_eq_some_iff.mp htext).1
    · intro h
      exact ⟨_, Config.toText?_eq_some_iff.mpr ⟨h, String.toList_ofList⟩⟩

/-- A configuration with marks, line ends and control characters in its strings, the largest number
that can be written, and a setting left out. -/
def Config.hostile : Config where
  language := some "\"it's\\ \"\"\"\"\n\x7f"
  jobs := some 0x7fffffffffffffff
  exclude := ["", "'''", "\"\"\"\n\n\\", "a\tb\r\n\x00", "# é€😀 = []"]

/-- A working directory with a configuration, and an empty one beside it. -/
def FileSystem.configured : FileSystem where
  root := .directory [
    ("work", .directory [("declscope.toml", .file "jobs = 3\n".toUTF8), ("a.py", .file .empty)]),
    ("etc", .directory [])]
  here := ["work"]

/-- The configuration that is there is refused by either of its paths, one that has no text changes
nothing, and one is written beside the working directory and read back from there. -/
theorem config_write_all_or_nothing_hostile :
    (Config.writing .plain Config.defaultPath .hostile false).runOn .configured =
      (.error (.alreadyThere Config.defaultPath), .configured) ∧
    (Config.writing .plain "/work/declscope.toml" .hostile false).runOn .configured =
      (.error (.alreadyThere "/work/declscope.toml"), .configured) ∧
    (∀ e fs', (Config.writing .plain "/etc/declscope.toml" { jobs := some signedBound } true).runOn
      .configured = (.error e, fs') → fs' = .configured) ∧
    ∃ fs', (Config.writing .plain "/etc/declscope.toml" .hostile false).runOn .configured =
        (.ok (), fs') ∧
      Config.load fs' "/etc/declscope.toml" = .ok (some .hostile) := by
  have hhas : [Config.defaultPath, "/work/declscope.toml", "/etc/declscope.toml"].map
      FileSystem.configured.has = [true, true, false] := by decide +kernel
  have htarget : FileSystem.configured.target "/etc/declscope.toml" =
      .ok ["etc", "declscope.toml"] := by decide +kernel
  simp only [List.map_cons, List.map_nil, List.cons.injEq, and_true] at hhas
  obtain ⟨-, -, hrelative, -⟩ := config_write_all_or_nothing .plain Store.isWhole_plain .configured
    Config.defaultPath .hostile false
  obtain ⟨-, -, habsolute, -⟩ := config_write_all_or_nothing .plain Store.isWhole_plain .configured
    "/work/declscope.toml" .hostile false
  obtain ⟨hfails, -⟩ := config_write_all_or_nothing .plain Store.isWhole_plain .configured
    "/etc/declscope.toml" { jobs := some signedBound } true
  obtain ⟨-, hloads, -, hsucceeds, htext, -⟩ := config_write_all_or_nothing .plain
    Store.isWhole_plain .configured "/etc/declscope.toml" .hostile false
  obtain ⟨text, htext⟩ := Option.isSome_iff_exists.mp
    (htext.mpr (by simp [Config.hostile, signedBound]))
  have hstored : ((Store.plain "/etc/declscope.toml" text).runOn .configured).1 = .ok () := by
    simp [Store.plain, FileSystem.writeText, htarget]
  have hok := hsucceeds.mpr ⟨by simp [hhas.2.2], text, htext, hstored⟩
  exact ⟨hrelative hhas.1 rfl, habsolute hhas.2.1 rfl, hfails, _, Prod.ext hok rfl,
    (hloads _ (Prod.ext hok rfl)).2.2⟩

end Outline
