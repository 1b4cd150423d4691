import Mathlib.Algebra.Ring.Int.Defs
import Mathlib.Data.Nat.ModEq

/-! The `int` of C with 32 bits. A result that does not fit is undefined, so it is left open what
the compiled code and the library make of it. -/
namespace C

def IsInt (n : Int) : Prop := -2 ^ 31 ≤ n ∧ n < 2 ^ 31

instance (n : Int) : Decidable (IsInt n) := inferInstanceAs (Decidable (_ ∧ _))

/-- What an `int` holds after a computation or a conversion. -/
structure Ints where
  result : Int → Int
  exact : ∀ n, IsInt n → result n = n

/-- Two's complement, as the instructions of most machines have it. -/
def wrapping : Ints where
  result n := n.bmod (2 ^ 32)
  exact n fits := by
    obtain ⟨low, high⟩ := fits
    rw [Int.bmod_def]
    omega

end C
