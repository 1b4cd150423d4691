import Mathlib.Data.List.Basic
import Mathlib.Data.Nat.Find
import Mathlib.Logic.Function.Basic
import Mathlib.Order.Bounds.Basic

/-! Tables of optional entries in a growing vector, where a new entry takes the first free
slot. -/
namespace SlotTable
variable {α : Type}

/-- The entry in a slot; slots beyond the end are free. -/
def slot (l : List (Option α)) (i : Nat) : Option α := l[i]?.join

def insert (x : α) : List (Option α) → Nat × List (Option α)
  | [] => (0, [some x])
  | none :: rest => (0, some x :: rest)
  | some y :: rest => ((insert x rest).1 + 1, some y :: (insert x rest).2)

def used (l : List (Option α)) : Nat := l.countP Option.isSome

@[simp] theorem slot_nil (i : Nat) : slot ([] : List (Option α)) i = none := rfl

@[simp] theorem slot_cons_zero (x : Option α) (rest : List (Option α)) : slot (x :: rest) 0 = x :=
  rfl

@[simp] theorem slot_cons_succ (x : Option α) (rest : List (Option α)) (i : Nat) :
    slot (x :: rest) (i + 1) = slot rest i := rfl

theorem slot_insert (x : α) (l : List (Option α)) :
    slot (insert x l).2 = Function.update (slot l) (insert x l).1 (some x) := by
  funext i
  induction l generalizing i with
  | nil => cases i <;> simp [insert]
  | cons head rest ih =>
    cases head with
    | none => cases i <;> simp [insert]
    | some y =>
      cases i with
      | zero => simp [insert]
      | succ i => simp [insert, ih, Function.update_apply]

theorem insert_free (x : α) (l : List (Option α)) : slot l (insert x l).1 = none := by
  induction l with
  | nil => rfl
  | cons head rest ih =>
    cases head with
    | none => rfl
    | some y => exact ih

theorem insert_first (x : α) (l : List (Option α)) (less : i < (insert x l).1) :
    slot l i ≠ none := by
  induction l generalizing i with
  | nil => simp [insert] at less
  | cons head rest ih =>
    cases head with
    | none => simp [insert] at less
    | some y =>
      cases i with
      | zero => simp
      | succ i => exact ih (Nat.lt_of_succ_lt_succ less)

theorem insert_least (x : α) (l : List (Option α)) :
    IsLeast {i | slot l i = none} (insert x l).1 := by
  refine ⟨insert_free x l, fun i free => ?_⟩
  by_contra less
  exact insert_first x l (Nat.lt_of_not_le less) free

theorem insert_le_used (x : α) (l : List (Option α)) : (insert x l).1 ≤ used l := by
  induction l with
  | nil => exact Nat.zero_le _
  | cons head rest ih =>
    cases head with
    | none => exact Nat.zero_le _
    | some y => simpa [insert, used] using ih

theorem used_insert (x : α) (l : List (Option α)) : used (insert x l).2 = used l + 1 := by
  induction l with
  | nil => rfl
  | cons head rest ih =>
    cases head with
    | none => simp [insert, used]
    | some y => simpa [insert, used] using ih

theorem length_insert_le (x : α) (l : List (Option α)) : (insert x l).2.length ≤ l.length + 1 := by
  induction l with
  | nil => exact Nat.le_refl _
  | cons head rest ih =>
    cases head with
    | none => exact Nat.le_succ _
    | some y => exact Nat.succ_le_succ ih

theorem slot_set {l : List (Option α)} (less : i < l.length) (v : Option α) :
    slot (l.set i v) = Function.update (slot l) i v := by
  funext j
  by_cases same : j = i
  · subst same
    simp [slot, less]
  · rw [Function.update_of_ne same, slot, slot, List.getElem?_set_ne (Ne.symm same)]

theorem used_set {l : List (Option α)} {v : Option α} (less : i < l.length)
    (same : v.isSome = (slot l i).isSome) : used (l.set i v) = used l := by
  induction l generalizing i with
  | nil => nomatch less
  | cons head rest ih =>
    cases i with
    | zero => simp_all [used, List.countP_cons]
    | succ i => simpa [used, List.countP_cons] using ih (Nat.lt_of_succ_lt_succ less) same

theorem slot_of_length_le {l : List (Option α)} (beyond : l.length ≤ i) : slot l i = none := by
  rw [slot, List.getElem?_eq_none beyond, Option.join_none]

theorem lt_length_of_slot {l : List (Option α)} (found : slot l i ≠ none) : i < l.length := by
  by_contra beyond
  exact found (slot_of_length_le (Nat.le_of_not_lt beyond))

theorem slot_snoc (l : List (Option α)) (v : Option α) :
    slot (l ++ [v]) = Function.update (slot l) l.length v := by
  funext i
  by_cases same : i = l.length
  · subst same
    simp [slot]
  · rw [Function.update_of_ne same]
    by_cases less : i < l.length
    · rw [slot, slot, List.getElem?_append_left less]
    · rw [slot_of_length_le (by simp; omega), slot_of_length_le (by omega)]

end SlotTable
