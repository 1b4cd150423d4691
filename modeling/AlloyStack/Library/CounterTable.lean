import Mathlib.Data.List.Basic
import Mathlib.Data.Nat.ModEq
import Mathlib.Logic.Function.Basic
import AlloyStack.Library.Transition

/-! Tables whose keys are drawn from a 32-bit counter that is never compared with the table. The
first three keys are reserved. -/
namespace CounterTable
open Transition
variable {α σ : Type}

structure Keyed (α : Type) where
  table : UInt32 → Option α
  next : UInt32

inductive Event where
  | opened (key : UInt32)
  | closed (key : UInt32)
  deriving DecidableEq, Repr

def Event.isOpen : Event → Bool
  | .opened _ => true
  | .closed _ => false

def opens (es : List Event) : Nat := es.countP Event.isOpen

/-- A new key is not reserved and replaces no entry. -/
def Fresh (view : σ → Keyed α) (s : σ) (e : Event) (_ : σ) : Prop :=
  ∀ key, e = .opened key → 3 ≤ key.toNat ∧ (view s).table key = none

/-- The entries of `t` are entries of `s`, reserved ones, or one of the given key. -/
def Keyed.Within (t s : Keyed α) (key : UInt32) : Prop :=
  ∀ other, t.table other ≠ none → other.toNat < 3 ∨ other = key ∨ s.table other ≠ none

/-- An update at the key of a table that has only reserved entries more. -/
theorem Keyed.within_update {s : Keyed α} {table : UInt32 → Option α}
    (older : ∀ other, table other ≠ none → other.toNat < 3 ∨ s.table other ≠ none)
    (key next : UInt32) (value : Option α) :
    Keyed.Within ⟨Function.update table key value, next⟩ s key := by
  intro other found
  by_cases same : other = key
  · exact .inr (.inl same)
  · have kept : table other ≠ none := by simpa [Function.update_of_ne same] using found
    exact (older other kept).imp_right .inr

/-- A system whose opens draw from the counter and whose closes remove their key. The first call
may insert the reserved entries. -/
structure Draws (step : σ → Event → σ → Prop) (view : σ → Keyed α) : Prop where
  opened : ∀ {s key t}, step s (.opened key) t →
    key = (view s).next ∧ (view t).next = (view s).next + 1 ∧ (view t).Within (view s) key
  closed : ∀ {s key t}, step s (.closed key) t →
    (view t).next = (view s).next ∧ (view t).table key = none ∧ (view t).Within (view s) key

/-- After `k` allocations that were fresh. -/
structure Keyed.Sound (t : Keyed α) (k : Nat) : Prop where
  bound : k ≤ 2 ^ 32 - 3
  next : t.next.toNat = (3 + k) % 2 ^ 32
  below : ∀ key, t.table key ≠ none → key.toNat < 3 + k

namespace Keyed.Sound
variable {s t : Keyed α}

theorem initial (three : t.next = 3) (empty : ∀ key, t.table key = none) : t.Sound 0 where
  bound := by omega
  next := by
    rw [three]
    rfl
  below key found := absurd (empty key) found

theorem opened (sound : s.Sound k) (room : k < 2 ^ 32 - 3) (next : t.next = s.next + 1)
    (within : t.Within s s.next) :
    t.Sound (k + 1) where
  bound := room
  next := by
    have before := sound.next
    simp only [next, UInt32.toNat_add, before, UInt32.reduceToNat]
    omega
  below key found := by
    have before := sound.next
    rcases within key found with reserved | rfl | old
    · omega
    · rw [before]
      omega
    · have bound := sound.below key old
      omega

theorem closed (sound : s.Sound k) (next : t.next = s.next) (gone : t.table key = none)
    (within : t.Within s key) :
    t.Sound k where
  bound := sound.bound
  next := by
    rw [next]
    exact sound.next
  below other found := by
    rcases within other found with reserved | rfl | old
    · omega
    · exact absurd gone found
    · exact sound.below other old

/-- The next key is fresh until the counter has come round. -/
theorem fresh_iff (sound : t.Sound k) :
    (3 ≤ t.next.toNat ∧ t.table t.next = none) ↔ k < 2 ^ 32 - 3 := by
  have next := sound.next
  have bound := sound.bound
  constructor
  · rintro ⟨reserved, _⟩
    omega
  · intro room
    have value : t.next.toNat = 3 + k := by omega
    constructor
    · omega
    · by_contra found
      have below := sound.below t.next found
      omega

end Keyed.Sound

theorem opens_opened (key : UInt32) (es : List Event) : opens (.opened key :: es) = opens es + 1 :=
  List.countP_cons_of_pos rfl

theorem opens_closed (key : UInt32) (es : List Event) : opens (.closed key :: es) = opens es :=
  List.countP_cons_of_neg (by simp [Event.isOpen])

section Runs
variable {step : σ → Event → σ → Prop} {view : σ → Keyed α}

/-- By induction on the run: every fresh key is one allocation more. -/
theorem opens_of_fresh (draws : Draws step view) (run : Run (Where step (Fresh view)) s es t)
    (sound : (view s).Sound k) : k + opens es ≤ 2 ^ 32 - 3 := by
  induction run generalizing k with
  | nil => simpa [opens] using sound.bound
  | @cons s e m es u first rest ih =>
    obtain ⟨stepped, fresh⟩ := first
    cases e with
    | opened key =>
      obtain ⟨rfl, next, within⟩ := draws.opened stepped
      have room := sound.fresh_iff.mp (fresh _ rfl)
      have bound := ih (sound.opened room next within)
      rw [opens_opened]
      omega
    | closed key =>
      obtain ⟨next, gone, within⟩ := draws.closed stepped
      rw [opens_closed]
      exact ih (sound.closed next gone within)

theorem fresh_of_opens (draws : Draws step view) (run : Run step s es t) (sound : (view s).Sound k)
    (enough : k + opens es ≤ 2 ^ 32 - 3) : Run (Where step (Fresh view)) s es t := by
  induction run generalizing k with
  | nil => exact .nil _
  | @cons s e m es u first rest ih =>
    cases e with
    | opened key =>
      obtain ⟨rfl, next, within⟩ := draws.opened first
      rw [opens_opened] at enough
      have room : k < 2 ^ 32 - 3 := by omega
      refine .cons ⟨first, ?_⟩ (ih (sound.opened room next within) (by omega))
      rintro key same
      cases same
      exact sound.fresh_iff.mpr room
    | closed key =>
      obtain ⟨next, gone, within⟩ := draws.closed first
      rw [opens_closed] at enough
      refine .cons ⟨first, ?_⟩ (ih (sound.closed next gone within) enough)
      rintro key same
      cases same

/-- All keys of a run are fresh exactly when there are no more allocations than keys. -/
theorem fresh_run_iff (draws : Draws step view) (run : Run step s es t) (sound : (view s).Sound 0) :
    Run (Where step (Fresh view)) s es t ↔ opens es ≤ 2 ^ 32 - 3 := by
  constructor
  · intro fresh
    have bound := opens_of_fresh draws fresh sound
    omega
  · intro enough
    exact fresh_of_opens draws run sound (by omega)

/-- A system that can always open has runs of any number of opens. -/
theorem opens_reached {live : σ → Prop}
    (next : ∀ s, live s → ∃ key t, step s (.opened key) t ∧ live t) (n : Nat) (holds : live s) :
    ∃ es t, Run step s es t ∧ opens es = n := by
  induction n generalizing s with
  | zero => exact ⟨[], s, .nil s, rfl⟩
  | succ n ih =>
    obtain ⟨key, m, first, later⟩ := next s holds
    obtain ⟨es, t, rest, count⟩ := ih later
    refine ⟨.opened key :: es, t, .cons first rest, ?_⟩
    rw [opens_opened, count]

end Runs

end CounterTable
