import Mathlib.Data.Nat.ModEq

/-! The part of Rust's execution model that the modelled code leans on: fallible calls that
may also panic, and 64-bit machine words in builds with and without overflow checks. -/
namespace Rust

/-- The three ways a call of type `Result<α, E>` ends. -/
inductive Outcome (α : Type) where
  | ok (value : α)
  | err (message : String)
  | panic
  deriving DecidableEq, Repr

namespace Outcome

def bind (x : Outcome α) (f : α → Outcome β) : Outcome β :=
  match x with
  | .ok value => f value
  | .err message => .err message
  | .panic => .panic

/-- `Result::map_err`: the message is rewritten, a panic passes through. -/
def mapErr (x : Outcome α) (f : String → String) : Outcome α :=
  match x with
  | .ok value => .ok value
  | .err message => .err (f message)
  | .panic => .panic

/-- `Option::ok_or`. -/
def okOr (x : Option α) (message : String) : Outcome α :=
  match x with
  | some value => .ok value
  | none => .err message

/-- `Option::unwrap`, and operations whose `none` is a panic. -/
def orPanic : Option α → Outcome α
  | some value => .ok value
  | none => .panic

theorem bind_eq_ok {x : Outcome α} {f : α → Outcome β} :
    x.bind f = .ok value ↔ ∃ middle, x = .ok middle ∧ f middle = .ok value := by
  cases x <;> simp [bind]

theorem mapErr_eq_ok {x : Outcome α} {f : String → String} :
    x.mapErr f = .ok value ↔ x = .ok value := by
  cases x <;> simp [mapErr]

end Outcome

theorem mapError_eq_ok {x : Except ε α} {f : ε → ε'} :
    x.mapError f = .ok value ↔ x = .ok value := by
  cases x <;> simp [Except.mapError]

/-- The two cargo profiles differ in what an overflowing `usize` or `u64` operation does. -/
structure Build where
  overflowChecks : Bool
  deriving DecidableEq, Repr

def debug : Build := ⟨true⟩
def release : Build := ⟨false⟩

/-- Number of values of `usize` and `u64`. -/
def word : Nat := 2 ^ 64

/-- `x + y` on 64-bit words: `none` is the panic of a build with overflow checks. -/
def Build.add (b : Build) (x y : Nat) : Option Nat :=
  if b.overflowChecks ∧ word ≤ x + y then none else some ((x + y) % word)

/-- `x + y` on `u32`. -/
def Build.add32 (b : Build) (x y : Nat) : Option Nat :=
  if b.overflowChecks ∧ 2 ^ 32 ≤ x + y then none else some ((x + y) % 2 ^ 32)

/-- `x * y` on 64-bit words. -/
def Build.mul (b : Build) (x y : Nat) : Option Nat :=
  if b.overflowChecks ∧ word ≤ x * y then none else some ((x * y) % word)

/-- `x - y` on 64-bit words. -/
def Build.sub (b : Build) (x y : Nat) : Option Nat :=
  if b.overflowChecks ∧ x < y then none else some ((x + word - y) % word)

theorem Build.add_eq_some {b : Build} (sum : b.add x y = some z) : z = (x + y) % word := by
  unfold Build.add at sum
  split at sum
  · cases sum
  · exact (Option.some.inj sum).symm

theorem Build.add_eq (b : Build) (small : x + y < word) : b.add x y = some (x + y) := by
  rw [Build.add, if_neg (by omega), Nat.mod_eq_of_lt small]

theorem Build.mul_eq (b : Build) (small : x * y < word) : b.mul x y = some (x * y) := by
  rw [Build.mul, if_neg (by omega), Nat.mod_eq_of_lt small]

theorem Build.add32_eq (b : Build) (small : x + y < 2 ^ 32) : b.add32 x y = some (x + y) := by
  rw [Build.add32, if_neg (by omega), Nat.mod_eq_of_lt small]

theorem release_sub (x y : Nat) : release.sub x y = some ((x + word - y) % word) := by
  simp [Build.sub, release]

theorem Build.sub_eq (b : Build) (enough : y ≤ x) (small : x < word) :
    b.sub x y = some (x - y) := by
  have shifted : x + word - y = x - y + word := by omega
  rw [Build.sub, if_neg (by omega), shifted, Nat.add_mod_right, Nat.mod_eq_of_lt (by omega)]

end Rust
