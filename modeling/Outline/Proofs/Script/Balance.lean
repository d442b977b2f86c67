import Outline.Proofs.Script.Moves
import Outline.Proofs.Walk.Scopes

/-!
# Every imbalance is found

A script may push and pop behind the back of its scopes. A scope may then be left when another
frame is innermost, or when only the root is left, or when an equal frame that is not its own has
taken the place. What finishing reports is a matter of counting: the stack is as deep as frames were
put on it and not taken off, and it has as many faults as scopes were left that did not find their
frame. Nothing lowers that number, so a fault is not made good by what comes later.

* `tallied_apply`, `tallied_after`: root, depth and faults after one move and after many.
* `tally_eq_zero_iff`: a count over a run is zero if no move of the run counts.
* `finish_finds_imbalance`: every state on the way, and what finishing reports at the end.
-/
namespace Outline

/-! ## Counting -/

namespace ScriptMove

/-- How many of some moves satisfy `q` in the state in which they are made. -/
def tally (q : ScopeStack → ScriptMove ScopeAction → Bool) :
    List (ScriptMove ScopeAction) → ScopeStack → Nat
  | [], _ => 0
  | m :: ms, k => (if q k m then 1 else 0) + tally q ms (m.apply ScopeAction.perform k)

theorem tally_eq_zero_iff {q : ScopeStack → ScriptMove ScopeAction → Bool}
    {ms : List (ScriptMove ScopeAction)} {k : ScopeStack} :
    tally q ms k = 0 ↔
      ∀ p m, p ++ [m] <+: ms → q (after ScopeAction.perform p k) m = false := by
  induction ms generalizing k with
  | nil => simp [tally]
  | cons n ms ih =>
    rw [tally, Nat.add_eq_zero_iff, ih]
    constructor
    · rintro ⟨hn, hms⟩ p m hp
      rcases snoc_prefix_cons.mp hp with ⟨rfl, rfl⟩ | ⟨p', rfl, hp'⟩
      · cases hm : q k m with
        | false => exact hm
        | true => simp [hm] at hn
      · exact hms p' m hp'
    · intro h
      have hn : q k n = false := h [] n (snoc_prefix_cons.mpr (Or.inl ⟨rfl, rfl⟩))
      exact ⟨by simp [hn], fun p m hp => h (n :: p) m (snoc_prefix_cons.mpr (Or.inr ⟨p, rfl, hp⟩))⟩

/-- A push, or the entering of a scope. -/
def adds (_ : ScopeStack) : ScriptMove ScopeAction → Bool
  | .act (.push _) => true
  | .enter _ => true
  | _ => false

/-- A pop that is not refused, or the leaving of a scope that takes a frame off the stack. -/
def removes (k : ScopeStack) : ScriptMove ScopeAction → Bool
  | .act .pop => k.pop?.isSome
  | .leave _ => k.pop?.isSome
  | _ => false

/-- The leaving of a scope that finds another frame, or only the root. -/
def misses (k : ScopeStack) : ScriptMove ScopeAction → Bool
  | .leave f => k.pop?.map (·.1) != some f
  | _ => false

theorem tally_misses_eq_zero_iff {ms : List (ScriptMove ScopeAction)} {k : ScopeStack} :
    tally misses ms k = 0 ↔ ∀ p f, p ++ [.leave f] <+: ms →
      (after ScopeAction.perform p k).pop?.map (·.1) = some f := by
  rw [tally_eq_zero_iff]
  constructor
  · intro h p f hp
    simpa [misses] using h p (.leave f) hp
  · intro h p m hp
    cases m with
    | act a => rfl
    | enter f => rfl
    | leave f => simpa [misses] using h p f hp

/-- What moves can do to a stack. -/
structure Tallied (ms : List (ScriptMove ScopeAction)) (k l : ScopeStack) : Prop where
  root : l.root = k.root
  depth : l.depth + tally removes ms k = k.depth + tally adds ms k
  faults : l.faults = k.faults + tally misses ms k

theorem tallied_apply (m : ScriptMove ScopeAction) (k : ScopeStack) :
    Tallied [m] k (m.apply ScopeAction.perform k) := by
  obtain ⟨root, inner, faults⟩ := k
  cases m with
  | act a =>
    cases a with
    | push f => exact ⟨rfl, rfl, rfl⟩
    | idle => exact ⟨rfl, rfl, rfl⟩
    | pop => cases inner <;> exact ⟨rfl, rfl, rfl⟩
  | enter f => exact ⟨rfl, rfl, rfl⟩
  | leave f =>
    cases inner with
    | nil => exact ⟨rfl, rfl, rfl⟩
    | cons g fs =>
      have hleave : (leave f).apply ScopeAction.perform ⟨root, g :: fs, faults⟩ =
          (⟨root, fs, faults + if g = f then 0 else 1⟩ : ScopeStack) := by
        change ScopeStack.release ⟨root, g :: fs, faults⟩ f = _
        simp only [ScopeStack.release, ScopeStack.pop?]
        split <;> rfl
      have hmisses : tally misses [leave f] ⟨root, g :: fs, faults⟩ = if g = f then 0 else 1 := by
        simp [tally, misses, ScopeStack.pop?]
      rw [hleave]
      exact ⟨rfl, rfl, by rw [hmisses]⟩

theorem Tallied.cons {m : ScriptMove ScopeAction} {ms : List (ScriptMove ScopeAction)}
    {k l : ScopeStack} (hm : Tallied [m] k (m.apply ScopeAction.perform k))
    (hms : Tallied ms (m.apply ScopeAction.perform k) l) : Tallied (m :: ms) k l where
  root := hms.root.trans hm.root
  depth := by
    have h1 := hm.depth
    have h2 := hms.depth
    simp only [tally] at h1 h2 ⊢
    omega
  faults := by
    have h1 := hm.faults
    have h2 := hms.faults
    simp only [tally] at h1 h2 ⊢
    omega

theorem tallied_after (ms : List (ScriptMove ScopeAction)) (k : ScopeStack) :
    Tallied ms k (after ScopeAction.perform ms k) := by
  induction ms generalizing k with
  | nil => exact ⟨rfl, rfl, rfl⟩
  | cons m ms ih => exact (tallied_apply m k).cons (ih _)

end ScriptMove

/-! ## Refused pops and finishing -/

namespace ScopeStack

theorem getLast?_frames (k : ScopeStack) : k.frames.getLast? = some k.peek := by
  rw [frames, List.getLast?_cons, List.getLast?_reverse]
  rfl

theorem depth_eq_one_iff {k : ScopeStack} : k.depth = 1 ↔ k.inner = [] := by
  rw [depth, Nat.add_eq_right, List.length_eq_zero_iff]

/-- A stack whose lowest frame is `root`, which no pop takes off. -/
structure Intact (root : Frame) (k : ScopeStack) : Prop where
  bottom : k.frames.head? = some root
  top : k.frames.getLast? = some k.peek
  length : k.frames.length = k.depth
  occupied : 1 ≤ k.depth
  /-- A pop is refused, and changes nothing, if there is no frame but the root. -/
  refused : k.depth = 1 → ScopeAction.perform .pop k = (.refused .popAtRoot, k)
  /-- Any other pop takes off the innermost frame. -/
  popped : k.depth ≠ 1 → ∃ l, ScopeAction.perform .pop k = (.frame k.peek, l) ∧ l.push k.peek = k

theorem intact (k : ScopeStack) : k.Intact k.root where
  bottom := rfl
  top := k.getLast?_frames
  length := k.length_frames
  occupied := Nat.le_add_left 1 _
  refused h := by
    obtain ⟨root, inner, faults⟩ := k
    obtain rfl : inner = [] := depth_eq_one_iff.mp h
    rfl
  popped h := by
    obtain ⟨root, inner, faults⟩ := k
    cases inner with
    | nil => exact absurd rfl h
    | cons f fs => exact ⟨⟨root, fs, faults⟩, rfl, rfl⟩

theorem finish_eq (k : ScopeStack) : k.finish =
    if 0 < k.faults then .error (.outOfOrder k.faults)
    else if k.depth = 1 then .ok k.root
    else .error (.leftOver (k.depth - 1)) := by
  obtain ⟨root, inner, faults⟩ := k
  cases inner <;> rfl

end ScopeStack

/-- **Every imbalance is found.** A script of any kind is run on a stack that holds `root` alone. In
every state on the way, those between two events included, the lowest frame is `root`, a pop is
refused only when it is the only one, and the depth is one more than the frames put on the stack
less those taken off. Finishing answers `root` if and only if the stack is down to it and every
scope that was left found its own frame. It reports the number of scopes that did not, if there are
any; otherwise the number of frames that are left over. -/
theorem finish_finds_imbalance (root : Frame) (steps : List (Script ScopeAction)) :
    let begun : ScopeStack := { root }
    let r := begun.runScript steps
    let ms := Script.movesAll ScopeAction.perform steps begun
    let missed := ScriptMove.tally ScriptMove.misses ms begun
    (∀ p, p <+: ms →
      (ScriptMove.after ScopeAction.perform p begun).Intact root ∧
      (ScriptMove.after ScopeAction.perform p begun).depth +
          ScriptMove.tally ScriptMove.removes p begun =
        1 + ScriptMove.tally ScriptMove.adds p begun) ∧
    (∀ e ∈ r.events, ∃ p, p <+: ms ∧ e.state = ScriptMove.after ScopeAction.perform p begun) ∧
    r.state = ScriptMove.after ScopeAction.perform ms begun ∧
    (r.state.finish = .ok root ↔ r.state.depth = 1 ∧
      ∀ p f, p ++ [.leave f] <+: ms →
        (ScriptMove.after ScopeAction.perform p begun).pop?.map (·.1) = some f) ∧
    (1 ≤ missed → r.state.finish = .error (.outOfOrder missed)) ∧
    (missed = 0 → r.state.depth ≠ 1 →
      r.state.finish = .error (.leftOver (r.state.depth - 1))) := by
  intro begun r ms missed
  have hmakes : r.Makes ScopeAction.perform begun ms := Script.runAll_makes steps begun
  have htally := ScriptMove.tallied_after ms begun
  rw [← hmakes.ends] at htally
  have hfaults : r.state.faults = missed := htally.faults.trans (Nat.zero_add _)
  have hroot : r.state.root = root := htally.root
  have hfinish := r.state.finish_eq
  rw [hfaults, hroot] at hfinish
  refine ⟨fun p _ => ?_, hmakes.shows, hmakes.ends, ?_, fun h => ?_, fun h hdepth => ?_⟩
  · have hp := ScriptMove.tallied_after p begun
    have hintact := (ScriptMove.after ScopeAction.perform p begun).intact
    rw [hp.root] at hintact
    exact ⟨hintact, hp.depth⟩
  · rw [← ScriptMove.tally_misses_eq_zero_iff, hfinish]
    constructor
    · intro h
      split at h
      · cases h
      · split at h
        · exact ⟨by assumption, by omega⟩
        · cases h
    · rintro ⟨hdepth, hmissed⟩
      have hnone : ¬ 0 < missed := by omega
      rw [if_neg hnone, if_pos hdepth]
  · rw [hfinish, if_pos (by omega)]
  · rw [hfinish, if_neg (by omega), if_neg hdepth]

/-- The frame of a scope is popped before the scope is left, which then finds only the root. Another
is cut short and takes an equal frame for its own, and the frames left over are popped one by one,
until a pop is refused. -/
def Script.strayed : List (Script ScopeAction) :=
  let outer : Frame := ⟨"f/class:1", .classLike⟩
  let method : Frame := ⟨"f/function:2", .function⟩
  [.enter outer [.act .pop], .act (.push outer),
    .attempt [.enter method [.act (.push method), .bail, .act .pop]],
    .act .pop, .act .pop, .act .pop]

theorem finish_finds_imbalance_strayed :
    let root : Frame := ⟨"f", .file⟩
    let begun : ScopeStack := { root }
    let ms := Script.movesAll ScopeAction.perform Script.strayed begun
    ms.length = 10 ∧ ScriptMove.tally ScriptMove.misses ms begun = 1 ∧
    ScriptMove.tally ScriptMove.adds ms begun = 4 ∧
    ScriptMove.tally ScriptMove.removes ms begun = 4 ∧
    (ScriptMove.after ScopeAction.perform ms begun).Intact root ∧
    (begun.runScript Script.strayed).state.depth = 1 ∧
    (begun.runScript Script.strayed).state.finish = .error (.outOfOrder 1) := by
  intro root begun ms
  have hall := finish_finds_imbalance root Script.strayed
  have hmissed : ScriptMove.tally ScriptMove.misses ms begun = 1 := by decide +kernel
  have hfinish := hall.2.2.2.2.1 (by rw [hmissed])
  rw [hmissed] at hfinish
  exact ⟨by decide +kernel, hmissed, by decide +kernel, by decide +kernel,
    (hall.1 ms List.prefix_rfl).1, by decide +kernel, hfinish⟩

end Outline
