import Mathlib.Logic.Function.Basic

/-! Threads that take locks, where the place in the program of a thread determines the locks that
it holds. -/
namespace LockPhases
variable {T P L : Type} {holds : P → L → Bool} {threads : T → P}

/-- No thread holds the lock. -/
def Unheld (holds : P → L → Bool) (threads : T → P) (l : L) : Prop :=
  ∀ i, holds (threads i) l = false

/-- A lock has at most one holder. -/
def Exclusive (holds : P → L → Bool) (threads : T → P) : Prop :=
  ∀ i j l, holds (threads i) l = true → holds (threads j) l = true → i = j

theorem Exclusive.initial (none : ∀ l, Unheld holds threads l) : Exclusive holds threads := by
  intro i j l first _
  rw [none l i] at first
  cases first

/-- A thread that moves to a place where it holds more has taken locks that were free. -/
theorem Exclusive.update [DecidableEq T] (exclusive : Exclusive holds threads) {i : T} {place : P}
    (taken : ∀ l, holds place l = true → holds (threads i) l = true ∨ Unheld holds threads l) :
    Exclusive holds (Function.update threads i place) := by
  have other {j : T} {l : L} (mine : holds place l = true)
      (theirs : holds (threads j) l = true) : i = j := by
    rcases taken l mine with before | free
    · exact exclusive i j l before theirs
    · rw [free j] at theirs
      cases theirs
  intro j k l first second
  by_cases mine : j = i
  · subst mine
    rw [Function.update_self] at first
    by_cases same : k = j
    · exact same.symm
    · rw [Function.update_of_ne same] at second
      exact other first second
  · rw [Function.update_of_ne mine] at first
    by_cases same : k = i
    · subst same
      rw [Function.update_self] at second
      exact (other second first).symm
    · rw [Function.update_of_ne same] at second
      exact exclusive j k l first second

end LockPhases
