import Mathlib.Logic.Function.Basic
import AlloyStack.Library.ProtectionKeys
import AlloyStack.Library.Rust
import AlloyStack.Library.Transition
import AlloyStack.AsStd.LibosSwitch

/-! Protection keys for user functions. `PKEY_COUNTER` is advanced by an atomic `fetch_add`
and the previous value, which each caller then inspects on its own, becomes the key. Keys 1
to 13 are meant for functions, 14 for `DataBuffer` and 15 for the LibOS. -/
namespace AlloyStack.Visor
open Rust Transition ProtectionKeys

/-- `x as i32` for a `usize`. -/
def asI32 (x : Nat) : Int := (BitVec.ofNat 32 x).toInt

/-- `PKEY_COUNTER.fetch_add(1, SeqCst)`: the counter wraps in every build. -/
def fetchAdd (counter : Nat) : Nat := (counter + 1) % word

/-- The rest of `must_pkey_alloc` after the `fetch_add`; `none` is the panic. -/
def finishPkeyAlloc (b : Build) (previousPkey : Nat) : Option Int :=
  if previousPkey = 13 then none else (b.add previousPkey 1).map asI32

/-- `must_pkey_alloc` run by one caller, with and without feature `pkey_per_func`. -/
def mustPkeyAlloc (b : Build) (perFunc : Bool) (counter : Nat) : Option Int × Nat :=
  if perFunc then (finishPkeyAlloc b counter, fetchAdd counter) else (some 1, counter)

def grantFuncPerm (pkru : BitVec 32) (pkey : Int) : Outcome (BitVec 32) :=
  if 0 ≤ pkey ∧ pkey < 16 then .ok (allow pkru pkey.toNat) else .err s!"Invalid pkey: {pkey}"

inductive AllocPhase where
  | start
  | fetched (previousPkey : Nat)
  | returned (pkey : Int)
  | panicked
  deriving DecidableEq, Repr

/-- The counter and the progress of every call, from whichever thread or isolation. -/
structure Allocs (τ : Type) where
  counter : Nat := 0
  phase : τ → AllocPhase := fun _ => .start

inductive AllocEvent (τ : Type) where
  | fetch (call : τ)
  | finish (call : τ)

variable {τ : Type} [DecidableEq τ]

def AllocPhase.settle (b : Build) (previousPkey : Nat) : AllocPhase :=
  match finishPkeyAlloc b previousPkey with
  | some pkey => .returned pkey
  | none => .panicked

inductive AllocStep (b : Build) : Allocs τ → AllocEvent τ → Allocs τ → Prop where
  | fetch (idle : s.phase call = .start) :
      AllocStep b s (.fetch call)
        ⟨fetchAdd s.counter, Function.update s.phase call (.fetched s.counter)⟩
  | finish (held : s.phase call = .fetched previousPkey) :
      AllocStep b s (.finish call)
        ⟨s.counter, Function.update s.phase call (.settle b previousPkey)⟩

/-- The returned keys lie in the range of user functions, no two calls share one, and the
PKRU value computed for a function with such a key denies the LibOS key. -/
structure KeysSeparate (s : Allocs τ) : Prop where
  range : ∀ call pkey, s.phase call = .returned pkey → 1 ≤ pkey ∧ pkey ≤ 13
  distinct : ∀ call other pkey, s.phase call = .returned pkey → s.phase other = .returned pkey →
    call = other
  denied : ∀ call pkey, s.phase call = .returned pkey →
    ∃ pkru, grantFuncPerm 0xCFFFFFFC#32 pkey = .ok pkru ∧ keyBits pkru AsStd.LIBOS_PKEY = 0b11#32

/-- The counter has not passed the last call that is answered as intended: the thirteen
keys, and the one call that panics. -/
def InStock (s : Allocs τ) (event : AllocEvent τ) (_ : Allocs τ) : Prop :=
  match event with
  | .fetch _ => s.counter ≤ 13
  | .finish _ => True

/-- No call is between its `fetch_add` and its end. -/
def Settled (s : Allocs τ) : Prop := ∀ call previousPkey, s.phase call ≠ .fetched previousPkey

def AllocPhase.pkey : AllocPhase → Option Int
  | .start | .panicked => none
  | .fetched previousPkey => some (previousPkey + 1)
  | .returned pkey => some pkey

/-- While in stock, a call that has passed its `fetch_add` is known by its own number. -/
structure Allocs.Sound (s : Allocs τ) : Prop where
  counter : s.counter ≤ 14
  range : ∀ call pkey, (s.phase call).pkey = some pkey → 1 ≤ pkey ∧ pkey ≤ s.counter
  distinct : ∀ call other pkey, (s.phase call).pkey = some pkey → (s.phase other).pkey = some pkey →
    call = other
  answered : ∀ call, s.phase call ≠ .returned 14

omit [DecidableEq τ] in
theorem allocs_sound_initial : Allocs.Sound ({} : Allocs τ) where
  counter := Nat.zero_le _
  range := by simp [AllocPhase.pkey]
  distinct := by simp [AllocPhase.pkey]
  answered := by simp

theorem grantFuncPerm_denied (low : 1 ≤ pkey) (high : pkey ≤ 13) :
    ∃ pkru, grantFuncPerm 0xCFFFFFFC#32 pkey = .ok pkru ∧
      keyBits pkru AsStd.LIBOS_PKEY = 0b11#32 := by
  have inside : 0 ≤ pkey ∧ pkey < 16 := by omega
  refine ⟨allow 0xCFFFFFFC#32 pkey.toNat, by simp [grantFuncPerm, inside], ?_⟩
  have other : AsStd.LIBOS_PKEY ≠ pkey.toNat := by
    unfold AsStd.LIBOS_PKEY
    omega
  rw [keyBits_allow, if_neg other]
  decide

theorem asI32_small : ∀ n < 14, asI32 ((n + 1) % word) = n + 1 := by decide

theorem settle_small (b : Build) (small : previousPkey ≤ 13) :
    AllocPhase.settle b previousPkey = .panicked ∧ previousPkey = 13 ∨
    AllocPhase.settle b previousPkey = .returned (previousPkey + 1) ∧ previousPkey < 13 := by
  by_cases last : previousPkey = 13
  · exact .inl ⟨by simp [AllocPhase.settle, finishPkeyAlloc, last], last⟩
  · have fits : ¬ (b.overflowChecks = true ∧ word ≤ previousPkey + 1) := by
      unfold word
      omega
    have cast := asI32_small previousPkey (by omega)
    refine .inr ⟨?_, by omega⟩
    simp only [AllocPhase.settle, finishPkeyAlloc, last, if_false, Build.add, fits, Option.map_some,
      cast]

namespace Allocs.Sound
variable {b : Build} {s t : Allocs τ}

omit [DecidableEq τ] in
theorem keys (sound : s.Sound) : KeysSeparate s := by
  have range : ∀ call pkey, s.phase call = .returned pkey → 1 ≤ pkey ∧ pkey ≤ 13 := by
    intro call pkey returned
    have bound := sound.range call pkey (by simp [returned, AllocPhase.pkey])
    have spare : pkey ≠ 14 := by
      rintro rfl
      exact sound.answered call returned
    have counter := sound.counter
    omega
  refine ⟨range, ?_, fun call pkey returned => ?_⟩
  · intro call other pkey first second
    exact sound.distinct call other pkey (by simp [first, AllocPhase.pkey])
      (by simp [second, AllocPhase.pkey])
  · obtain ⟨low, high⟩ := range call pkey returned
    exact grantFuncPerm_denied low high

theorem fetch (sound : s.Sound) (stock : s.counter ≤ 13) :
    Allocs.Sound ⟨fetchAdd s.counter, Function.update s.phase call (.fetched s.counter)⟩ := by
  have next : fetchAdd s.counter = s.counter + 1 := by
    unfold fetchAdd word
    omega
  rw [next]
  constructor
  case counter => exact Nat.succ_le_succ stock
  case range =>
    intro other pkey known
    by_cases same : other = call
    · subst same
      simp only [Function.update_self, AllocPhase.pkey, Option.some.injEq] at known
      push_cast
      omega
    · have bound := sound.range other pkey (by simpa [same] using known)
      push_cast
      omega
  case distinct =>
    -- The counter exceeds the number of every earlier call.
    have fresh : ∀ other pkey, (s.phase other).pkey = some pkey → pkey ≠ s.counter + 1 := by
      intro other pkey known
      have bound := sound.range other pkey known
      omega
    intro first second pkey known known'
    by_cases own : first = call <;> by_cases own' : second = call
    · exact own.trans own'.symm
    · have number : (s.counter : Int) + 1 = pkey := by simpa [own, AllocPhase.pkey] using known
      exact absurd number.symm (fresh second pkey (by simpa [own'] using known'))
    · have number : (s.counter : Int) + 1 = pkey := by simpa [own', AllocPhase.pkey] using known'
      exact absurd number.symm (fresh first pkey (by simpa [own] using known))
    · exact sound.distinct first second pkey (by simpa [own] using known)
        (by simpa [own'] using known')
  case answered =>
    intro other returned
    by_cases same : other = call
    · simp [same] at returned
    · exact sound.answered other (by simpa [same] using returned)

theorem finish (sound : s.Sound) (held : s.phase call = .fetched previousPkey) :
    Allocs.Sound ⟨s.counter, Function.update s.phase call (.settle b previousPkey)⟩ := by
  have number : (s.phase call).pkey = some ((previousPkey : Int) + 1) := by
    simp [held, AllocPhase.pkey]
  have small : previousPkey ≤ 13 := by
    have bound := sound.range call _ number
    have counter := sound.counter
    omega
  have settled := settle_small b small
  -- Settling a call keeps its number or, at the panic, withdraws it.
  have kept : ∀ other pkey,
      (Function.update s.phase call (.settle b previousPkey) other).pkey = some pkey →
      (s.phase other).pkey = some pkey := by
    intro other pkey known
    by_cases same : other = call
    · subst same
      rcases settled with ⟨panicked, _⟩ | ⟨returned, _⟩
      · simp [panicked, AllocPhase.pkey] at known
      · rw [number]
        simpa [returned, AllocPhase.pkey] using known
    · simpa [same] using known
  refine ⟨sound.counter, fun other pkey known => sound.range other pkey (kept other pkey known),
    fun first second pkey known known' =>
      sound.distinct first second pkey (kept _ _ known) (kept _ _ known'),
    fun other returned => ?_⟩
  by_cases same : other = call
  · subst same
    rcases settled with ⟨panicked, _⟩ | ⟨answer, bound⟩
    · simp [panicked] at returned
    · simp only [Function.update_self, answer, AllocPhase.returned.injEq] at returned
      omega
  · exact sound.answered other (by simpa [same] using returned)

theorem step (sound : s.Sound) (stepped : Where (AllocStep b) InStock s event t) : t.Sound := by
  obtain ⟨stepped, stock⟩ := stepped
  cases stepped with
  | fetch idle => exact sound.fetch stock
  | finish held => exact sound.finish held

end Allocs.Sound

/-- The call has fetched the given number and ends, or has ended, in the way it decides. -/
def Allocs.Holds (b : Build) (call : τ) (previousPkey : Nat) (s : Allocs τ) : Prop :=
  s.phase call = .fetched previousPkey ∨ s.phase call = .settle b previousPkey

variable {b : Build} {s t : Allocs τ}

omit [DecidableEq τ] in
theorem Allocs.Holds.started (holds : s.Holds b call previousPkey) : s.phase call ≠ .start := by
  rcases holds with held | held
  · simp [held]
  · rw [held]
    unfold AllocPhase.settle
    split <;> simp

theorem holds_step (holds : s.Holds b call previousPkey) (stepped : AllocStep b s event t) :
    t.Holds b call previousPkey := by
  cases stepped with
  | @fetch other idle =>
    have differs : call ≠ other := by
      rintro rfl
      exact holds.started idle
    simpa [Allocs.Holds, differs] using holds
  | @finish other number pending =>
    by_cases same : call = other
    · subst same
      rcases holds with held | held
      · cases pending.symm.trans held
        simp [Allocs.Holds]
      · rw [pending] at held
        unfold AllocPhase.settle at held
        split at held <;> cases held
    · simpa [Allocs.Holds, same] using holds

/-- The call that finds the counter at 14 returns 15, the key of the LibOS. -/
theorem settle_libos (b : Build) : AllocPhase.settle b 14 = .returned AsStd.LIBOS_PKEY := by
  cases b with
  | mk checks => cases checks <;> rfl

theorem stock_of_separate (sound : s.Sound) (path : Run (AllocStep b) s events t)
    (settled : Settled t) (separate : KeysSeparate t) :
    Run (Where (AllocStep b) InStock) s events t := by
  induction path with
  | nil => exact .nil _
  | @cons s event next events t head rest ih =>
    have stock : InStock s event next := by
      cases head with
      | finish held => trivial
      | @fetch call idle =>
        by_contra exhausted
        have counter := sound.counter
        simp only [InStock, not_le] at exhausted
        have number : s.counter = 14 := by omega
        rw [number] at rest
        have ended : t.Holds b call 14 := rest.stable holds_step (.inl (by simp))
        rcases ended with pending | answered
        · exact settled call 14 pending
        · have bound := separate.range call _ (answered.trans (settle_libos b))
          simp only [AsStd.LIBOS_PKEY] at bound
          omega
    exact .cons ⟨head, stock⟩ (ih (sound.step ⟨head, stock⟩) settled separate)

/-- While no call starts with the counter past 13, the keys returned are separate in every
state; and a run that has come to rest with separate keys never went past it. -/
theorem pkeys_separate_iff (b : Build) (events : List (AllocEvent τ)) (s : Allocs τ) :
    (Run (Where (AllocStep b) InStock) {} events s → KeysSeparate s) ∧
    (Run (AllocStep b) {} events s → Settled s → KeysSeparate s →
      Run (Where (AllocStep b) InStock) {} events s) := by
  constructor
  · intro path
    have sound :=
      path.stable (fun sound stepped => Allocs.Sound.step sound stepped) allocs_sound_initial
    exact sound.keys
  · intro path settled separate
    exact stock_of_separate allocs_sound_initial path settled separate

theorem pkeys_separate_first :
    ∃ s : Allocs Nat,
      Run (Where (AllocStep release) InStock) {} [.fetch 0, .fetch 1, .finish 1, .finish 0] s ∧
      s.phase 0 = .returned 1 ∧ s.phase 1 = .returned 2 ∧ KeysSeparate s := by
  have path : Run (Where (AllocStep release) InStock) ({} : Allocs Nat)
      [.fetch 0, .fetch 1, .finish 1, .finish 0] _ :=
    .cons ⟨.fetch rfl, Nat.zero_le _⟩ (.cons ⟨.fetch rfl, show 1 ≤ 13 by decide⟩
      (.cons ⟨.finish rfl, trivial⟩ (.cons ⟨.finish rfl, trivial⟩ (.nil _))))
  exact ⟨_, path, rfl, rfl, (pkeys_separate_iff release _ _).1 path⟩

/-- Calls numbered from 0, each run to its end before the next starts. -/
def allocRun : Nat → List (AllocEvent Nat)
  | 0 => []
  | n + 1 => allocRun n ++ [.fetch n, .finish n]

theorem allocRun_reaches (b : Build) (n : Nat) (small : n < word) :
    ∃ s, Run (AllocStep b) {} (allocRun n) s ∧ s.counter = n ∧
      (∀ call < n, s.phase call = .settle b call) ∧ ∀ call, n ≤ call → s.phase call = .start := by
  induction n with
  | zero => exact ⟨{}, .nil _, rfl, by simp, fun _ _ => rfl⟩
  | succ n ih =>
    obtain ⟨s, path, counter, ended, idle⟩ := ih (by omega)
    have held : Function.update s.phase n (.fetched s.counter) n = .fetched s.counter := by simp
    have steps := (path.snoc (.fetch (idle n (Nat.le_refl n)))).snoc (.finish held)
    refine ⟨_, by simpa [allocRun] using steps, ?_, ?_, ?_⟩
    · simp only [fetchAdd, counter]
      exact Nat.mod_eq_of_lt small
    · intro call earlier
      by_cases last : call = n
      · simp [last, counter]
      · simpa [last] using ended call (by omega)
    · intro call later
      have differs : call ≠ n := by omega
      simpa [differs] using idle call (by omega)

/-- Fifteen calls: the fourteenth panics and the fifteenth returns the key of the LibOS,
with which a user function would run with that key enabled. -/
theorem pkeys_exhausted :
    ∃ s : Allocs Nat, Run (AllocStep release) {} (allocRun 15) s ∧ s.phase 13 = .panicked ∧
      s.phase 14 = .returned AsStd.LIBOS_PKEY ∧
      (∃ pkru, grantFuncPerm 0xCFFFFFFC#32 AsStd.LIBOS_PKEY = .ok pkru ∧
        keyBits pkru AsStd.LIBOS_PKEY = 0b00#32) ∧ ¬ KeysSeparate s := by
  obtain ⟨s, path, _, ended, _⟩ := allocRun_reaches release 15 (by decide)
  have returned := (ended 14 (by decide)).trans (settle_libos release)
  refine ⟨s, path, ended 13 (by decide), returned, ⟨_, rfl, by decide⟩, fun separate => ?_⟩
  have bound := (separate.range 14 _ returned).2
  exact absurd bound (by decide)

end AlloyStack.Visor
