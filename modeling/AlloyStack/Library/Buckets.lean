import Mathlib.Data.List.Perm.Basic
import Mathlib.Data.List.Range
import Mathlib.Order.Nat

/-! Lists that are cut into buckets by a key. -/
namespace Buckets
variable {α : Type} {key : α → Nat}

/-- The elements with one key, in order. -/
def bucket (key : α → Nat) (l : List α) (i : Nat) : List α := l.filter fun a => key a = i

theorem bucket_flatten (ls : List (List α)) (i : Nat) :
    bucket key ls.flatten i = (ls.map fun l => bucket key l i).flatten := by
  simp only [bucket, List.filter_flatten]

end Buckets
