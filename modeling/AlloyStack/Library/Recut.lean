import Mathlib.Data.List.Basic

/-! Sequences of non-empty words with the same text. Where two of them differ, one word is a proper
beginning of the other, and what is left of the longer one is spelled by the words that follow the
shorter one. -/
namespace Recut
variable {α : Type} {xs ys : List (List α)}

/-- Both sequences are used up together, word against word; a word that is longer than its
counterpart leaves its rest in front of its sequence. -/
inductive Spells : List (List α) → List (List α) → Prop where
  | nil : Spells [] []
  | same (w : List α) (xs ys : List (List α)) : Spells xs ys → Spells (w :: xs) (w :: ys)
  | left (w rest : List α) (xs ys : List (List α)) : rest ≠ [] → Spells (rest :: xs) ys →
      Spells ((w ++ rest) :: xs) (w :: ys)
  | right (w rest : List α) (xs ys : List (List α)) : rest ≠ [] → Spells xs (rest :: ys) →
      Spells (w :: xs) ((w ++ rest) :: ys)

/-- The same text, cut at different places from the first words that differ on. -/
inductive Differs : List (List α) → List (List α) → Prop where
  | same (w : List α) (xs ys : List (List α)) : Differs xs ys → Differs (w :: xs) (w :: ys)
  | left (w rest : List α) (xs ys : List (List α)) : rest ≠ [] → Spells (rest :: xs) ys →
      Differs ((w ++ rest) :: xs) (w :: ys)
  | right (w rest : List α) (xs ys : List (List α)) : rest ≠ [] → Spells xs (rest :: ys) →
      Differs (w :: xs) ((w ++ rest) :: ys)

theorem Spells.flatten_eq (spells : Spells xs ys) : xs.flatten = ys.flatten := by
  induction spells with
  | nil => rfl
  | same w xs ys _ ih => rw [List.flatten_cons, List.flatten_cons, ih]
  | left w rest xs ys _ _ ih => simpa [List.append_assoc] using congrArg (w ++ ·) ih
  | right w rest xs ys _ _ ih => simpa [List.append_assoc] using congrArg (w ++ ·) ih

theorem eq_nil_of_flatten (filled : [] ∉ xs) (empty : xs.flatten = []) : xs = [] := by
  cases xs with
  | nil => rfl
  | cons x xs =>
    obtain ⟨blank, _⟩ := List.append_eq_nil_iff.mp empty
    exact absurd (blank ▸ List.mem_cons_self) filled

/-- By induction on the length of the text: every case uses up a word. -/
theorem spells_of_flatten (fillXs : [] ∉ xs) (fillYs : [] ∉ ys) (same : xs.flatten = ys.flatten) :
    Spells xs ys := by
  induction size : xs.flatten.length using Nat.strongRecOn generalizing xs ys with
  | _ n ih =>
    subst size
    cases xs with
    | nil =>
      rw [eq_nil_of_flatten fillYs same.symm]
      exact .nil
    | cons x xs =>
      cases ys with
      | nil =>
        rw [eq_nil_of_flatten fillXs same]
        exact .nil
      | cons y ys =>
        have sizeX := List.length_pos_iff.mpr (List.ne_of_not_mem_cons fillXs).symm
        have sizeY := List.length_pos_iff.mpr (List.ne_of_not_mem_cons fillYs).symm
        replace fillXs := List.not_mem_of_not_mem_cons fillXs
        replace fillYs := List.not_mem_of_not_mem_cons fillYs
        have lengths := congrArg List.length same
        rw [List.flatten_cons, List.flatten_cons] at same
        simp only [List.flatten_cons, List.length_append] at lengths ih
        rcases List.append_eq_append_iff.mp same with ⟨rest, rfl, tail⟩ | ⟨rest, rfl, tail⟩
        · by_cases blank : rest = []
          · subst blank
            rw [List.append_nil]
            exact .same _ _ _ (ih _ (by omega) fillXs fillYs (by simpa using tail) rfl)
          · refine .right _ _ _ _ blank (ih _ (by omega) fillXs ?_ (by simpa using tail) rfl)
            exact List.not_mem_cons_of_ne_of_not_mem (Ne.symm blank) fillYs
        · by_cases blank : rest = []
          · subst blank
            rw [List.append_nil]
            exact .same _ _ _ (ih _ (by omega) fillXs fillYs (by simpa using tail.symm) rfl)
          · refine .left _ _ _ _ blank (ih _ ?_ ?_ fillYs (by simpa using tail.symm) rfl)
            · simp only [List.flatten_cons, List.length_append]
              omega
            · exact List.not_mem_cons_of_ne_of_not_mem (Ne.symm blank) fillXs

theorem differs_of_spells (spells : Spells xs ys) (differ : xs ≠ ys) : Differs xs ys := by
  induction spells with
  | nil => exact absurd rfl differ
  | same w xs ys _ ih => exact .same w xs ys (ih fun same => differ (by rw [same]))
  | left w rest xs ys filled tail _ => exact .left w rest xs ys filled tail
  | right w rest xs ys filled tail _ => exact .right w rest xs ys filled tail

theorem Differs.spells (differs : Differs xs ys) : Spells xs ys := by
  induction differs with
  | same w xs ys _ ih => exact .same w xs ys ih
  | left w rest xs ys filled tail => exact .left w rest xs ys filled tail
  | right w rest xs ys filled tail => exact .right w rest xs ys filled tail

theorem Differs.ne (differs : Differs xs ys) : xs ≠ ys := by
  induction differs with
  | same w xs ys _ ih => exact fun same => ih (List.cons.inj same).2
  | left w rest xs ys filled _ => exact fun same => filled (by simpa using (List.cons.inj same).1)
  | right w rest xs ys filled _ => exact fun same => filled (by simpa using (List.cons.inj same).1)

/-- Two different sequences of non-empty words have one text exactly when it is cut differently. -/
theorem differs_iff (fillXs : [] ∉ xs) (fillYs : [] ∉ ys) :
    Differs xs ys ↔ xs.flatten = ys.flatten ∧ xs ≠ ys :=
  ⟨fun differs => ⟨differs.spells.flatten_eq, differs.ne⟩,
    fun ⟨same, differ⟩ => differs_of_spells (spells_of_flatten fillXs fillYs same) differ⟩

end Recut
