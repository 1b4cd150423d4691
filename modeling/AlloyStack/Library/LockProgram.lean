import Mathlib.Data.List.Basic

/-! Sequential programs that take locks which are not re-entrant. A program runs with the locks
that its thread holds already; taking one of these never returns. A guard lives as long as the
body that it is given to. -/
namespace LockProgram
variable {L S α β : Type}

inductive Ran (S α : Type) where
  | done (value : α) (state : S)
  | panic
  | deadlock

/-- The value and the state of a program that ran to its end. -/
def Ran.outcome : Ran S α → Option (α × S)
  | .done value state => some (value, state)
  | .panic => none
  | .deadlock => none

theorem Ran.outcome_eq_some {ran : Ran S α} :
    ran.outcome = some (value, s) ↔ ran = .done value s := by
  cases ran <;> simp [outcome]

def Prog (L S α : Type) := List L → S → Ran S α

def Prog.pure (value : α) : Prog L S α := fun _ s => .done value s

def Prog.bind (first : Prog L S α) (next : α → Prog L S β) : Prog L S β := fun held s =>
  match first held s with
  | .done value s => next value held s
  | .panic => .panic
  | .deadlock => .deadlock

instance : Monad (Prog L S) where
  pure := Prog.pure
  bind := Prog.bind

def state : Prog L S S := fun _ s => .done s s

def put (s : S) : Prog L S Unit := fun _ _ => .done () s

def fail : Prog L S α := fun _ _ => .panic

/-- The lock is held while the body runs, and released after it. -/
def withLock [DecidableEq L] (l : L) (body : Prog L S α) : Prog L S α := fun held s =>
  if l ∈ held then .deadlock else body (l :: held) s

def times (n : Nat) (body : Prog L S Unit) : Prog L S Unit :=
  match n with
  | 0 => pure ()
  | n + 1 => do
    body
    times n body

/-- From no state does the program take a lock that its thread holds. -/
def Free (held : List L) (program : Prog L S α) : Prop := ∀ s, program held s ≠ .deadlock

namespace Free
variable {held : List L} {program first : Prog L S α} {next : α → Prog L S β}

theorem pure (value : α) : Free held (Pure.pure value : Prog L S α) := by
  intro s stuck
  cases stuck

theorem bind (before : Free held first) (after : ∀ value, Free held (next value)) :
    Free held (first >>= next) := by
  intro s stuck
  change Prog.bind first next held s = .deadlock at stuck
  unfold Prog.bind at stuck
  split at stuck
  · exact after _ _ stuck
  · cases stuck
  · rename_i taken
    exact before s taken

theorem state : Free held (state : Prog L S S) := by
  intro s stuck
  cases stuck

theorem put (s : S) : Free held (put s : Prog L S Unit) := by
  intro s stuck
  cases stuck

theorem fail : Free held (fail : Prog L S α) := by
  intro s stuck
  cases stuck

theorem withLock [DecidableEq L] {l : L} (absent : l ∉ held) (body : Free (l :: held) program) :
    Free held (withLock l program) := by
  intro s
  rw [LockProgram.withLock, if_neg absent]
  exact body s

theorem times {body : Prog L S Unit} (free : Free held body) (n : Nat) :
    Free held (times n body) := by
  induction n with
  | zero => exact Free.pure ()
  | succ n ih => exact Free.bind free fun _ => ih

end Free

theorem bind_eq (first : Prog L S α) (next : α → Prog L S β) (held : List L) (s : S) :
    (first >>= next) held s = match first held s with
      | .done value s => next value held s
      | .panic => .panic
      | .deadlock => .deadlock := rfl

theorem withLock_held [DecidableEq L] {l : L} {held : List L} (taken : l ∈ held)
    (body : Prog L S α) (s : S) :
    withLock l body held s = .deadlock := by
  rw [withLock, if_pos taken]

theorem withLock_eq [DecidableEq L] {l : L} {held : List L} (absent : l ∉ held)
    (body : Prog L S α) (s : S) :
    withLock l body held s = body (l :: held) s := by
  rw [withLock, if_neg absent]

end LockProgram
