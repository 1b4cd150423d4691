import Mathlib.Data.Finset.Max
import Mathlib.Data.Finset.Insert
import Mathlib.Order.Nat
import AlloyStack.Library.LockPhases

/-! Threads that wait for locks in the order of a rank, which may depend on the state. -/
namespace LockPhases
variable {T P L : Type} {holds : P → L → Bool} {wants : P → Option L} {threads : T → P}

/-- A thread waits only for locks of a higher rank than all that it holds. -/
def Ranked (holds : P → L → Bool) (wants : P → Option L) (threads : T → P) (rank : L → Nat) :
    Prop :=
  ∀ i l k, wants (threads i) = some l → holds (threads i) k = true → rank k < rank l

/-- No finite set of waiting threads is deadlocked: one of them waits for a lock that none of them
holds. -/
theorem Ranked.unblocked {rank : L → Nat} (ranked : Ranked holds wants threads rank)
    {stuck : Finset T} (nonempty : stuck.Nonempty)
    (waiting : ∀ i ∈ stuck, ∃ l, wants (threads i) = some l) :
    ∃ i ∈ stuck, ∃ l, wants (threads i) = some l ∧ ∀ j ∈ stuck, holds (threads j) l = false := by
  obtain ⟨i, member, highest⟩ :=
    stuck.exists_max_image (fun i => ((wants (threads i)).map rank).getD 0) nonempty
  obtain ⟨l, waits⟩ := waiting i member
  refine ⟨i, member, l, waits, fun j other => ?_⟩
  by_contra held
  obtain ⟨k, next⟩ := waiting j other
  have above := ranked j k l next (by simpa using held)
  have below := highest j other
  simp only [next, waits, Option.map_some, Option.getD_some] at below
  omega

/-- Where every thread outside the set holds nothing, the lock is free. -/
theorem Ranked.free {rank : L → Nat} (ranked : Ranked holds wants threads rank)
    {busy : Finset T} (nonempty : busy.Nonempty)
    (waiting : ∀ i ∈ busy, ∃ l, wants (threads i) = some l)
    (outside : ∀ i, i ∉ busy → ∀ l, holds (threads i) l = false) :
    ∃ i ∈ busy, ∃ l, wants (threads i) = some l ∧ Unheld holds threads l := by
  obtain ⟨i, member, l, waits, unheld⟩ := ranked.unblocked nonempty waiting
  refine ⟨i, member, l, waits, fun j => ?_⟩
  by_cases inside : j ∈ busy
  · exact unheld j inside
  · exact outside j inside l

end LockPhases
