import Mathlib.Logic.Equiv.Basic
import Mathlib.Order.Lattice
import Mathlib.Order.Nat

/-! The order of a binary heap on the keys of its positions, and what sifting down does to it. -/
namespace BinaryHeap

/-- Position `c` is a child of position `p`. -/
def IsChild (c p : Nat) : Prop := c = 2 * p + 1 ∨ c = 2 * p + 2

theorem IsChild.lt {c p : Nat} (child : IsChild c p) : p < c := by
  unfold IsChild at child
  omega

theorem IsChild.unique {c p q : Nat} (left : IsChild c p) (right : IsChild c q) : p = q := by
  unfold IsChild at left right
  omega

theorem isChild_parent {c : Nat} (positive : 0 < c) : IsChild c ((c - 1) / 2) := by
  unfold IsChild
  omega

variable {β : Type*} [LinearOrder β] {key : Nat → β} {size start hole c : Nat}

/-- No position from `start` on has a child below it among the first `size` positions. -/
def Ordered (key : Nat → β) (size start : Nat) : Prop :=
  ∀ p c, start ≤ p → IsChild c p → c < size → key p ≤ key c

/-- All is in order except for the hole, whose key may be too large for its place. -/
structure Sinking (key : Nat → β) (size start hole : Nat) : Prop where
  except : ∀ p c, start ≤ p → p ≠ hole → IsChild c p → c < size → key p ≤ key c
  grand : ∀ p c, start ≤ p → IsChild hole p → IsChild c hole → c < size → key p ≤ key c

/-- Leaves are in order. -/
theorem ordered_leaves (key : Nat → β) (half : size ≤ 2 * start + 1) : Ordered key size start := by
  intro p c from_start child inside
  unfold IsChild at child
  omega

theorem Ordered.shrink {smaller : Nat} (ordered : Ordered key size start) (le : smaller ≤ size) :
    Ordered key smaller start :=
  fun p c from_start child inside => ordered p c from_start child (inside.trans_le le)

/-- The root has the smallest key. -/
theorem Ordered.root_le (ordered : Ordered key size 0) {i : Nat} (inside : i < size) :
    key 0 ≤ key i := by
  induction i using Nat.strongRecOn with
  | ind i ih =>
    rcases Nat.eq_zero_or_pos i with rfl | positive
    · exact le_refl _
    · have child := isChild_parent positive
      exact (ih _ child.lt (child.lt.trans inside)).trans (ordered _ i (Nat.zero_le _) child inside)

/-- One more position in front of those in order. -/
theorem Ordered.sinking (ordered : Ordered key size (start + 1)) :
    Sinking key size start start where
  except p c from_start off child inside := ordered p c (by omega) child inside
  grand p c from_start child := absurd child.lt (Nat.not_lt.mpr from_start)

/-- The key at the root is replaced. -/
theorem Ordered.replace_root {key' : Nat → β} (ordered : Ordered key size 0)
    (same : ∀ i, 0 < i → i < size → key' i = key i) :
    Sinking key' size 0 0 where
  except p c _ off child inside := by
    have positive := Nat.pos_of_ne_zero off
    rw [same p positive (child.lt.trans inside), same c (positive.trans child.lt) inside]
    exact ordered p c (Nat.zero_le _) child inside
  grand p c _ child := absurd child.lt (Nat.not_lt_zero _)

/-- The hole's key fits where it is. -/
theorem Sinking.ordered (sinking : Sinking key size start hole)
    (fits : ∀ c, IsChild c hole → c < size → key hole ≤ key c) : Ordered key size start := by
  intro p c from_start child inside
  by_cases at_hole : p = hole
  · subst at_hole
    exact fits c child inside
  · exact sinking.except p c from_start at_hole child inside

/-- The hole moves to its smallest child. -/
theorem Sinking.swap (sinking : Sinking key size start hole) (started : start ≤ hole)
    (child : IsChild c hole) (inside : c < size) (smaller : key c < key hole)
    (smallest : ∀ d, IsChild d hole → d < size → key c ≤ key d) :
    Sinking (key ∘ Equiv.swap hole c) size start c where
  except p d from_start off descends lt := by
    have apart : p ≠ d := descends.lt.ne
    simp only [Function.comp_apply]
    rw [Equiv.swap_apply_def, if_neg off]
    split
    next at_hole =>
      subst at_hole
      rw [Equiv.swap_apply_def, if_neg (Ne.symm apart)]
      split
      · exact smaller.le
      · exact smallest d descends lt
    next off_hole =>
      rw [Equiv.swap_apply_def]
      split
      next below =>
        subst below
        exact sinking.grand p c from_start descends child inside
      · -- The child's only parent is the hole.
        rw [if_neg fun eq => off_hole ((eq ▸ descends).unique child)]
        exact sinking.except p d from_start off_hole descends lt
  grand p d from_start above descends lt := by
    obtain rfl := above.unique child
    have deep := child.lt.trans descends.lt
    simp only [Function.comp_apply]
    rw [Equiv.swap_apply_left, Equiv.swap_apply_of_ne_of_ne deep.ne' descends.lt.ne']
    exact sinking.except c d (started.trans child.lt.le) child.lt.ne' descends lt

end BinaryHeap
