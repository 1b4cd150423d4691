import Mathlib.Data.List.Basic

/-! Positions in growing sequences. -/
namespace Sequence

theorem getElem?_snoc_iff {l : List α} {i : Nat} :
    (l ++ [a])[i]? = some x ↔ l[i]? = some x ∨ i = l.length ∧ a = x := by
  rcases Nat.lt_trichotomy i l.length with old | last | beyond
  · rw [List.getElem?_append_left old]
    simp [Nat.ne_of_lt old]
  · subst last
    simp
  · rw [List.getElem?_eq_none (by simp; omega), List.getElem?_eq_none (by omega)]
    simp [Nat.ne_of_gt beyond]

theorem getElem?_of_prefix {l m : List α} {i : Nat} (grown : l <+: m) (entry : l[i]? = some x) :
    m[i]? = some x := by
  obtain ⟨tail, rfl⟩ := grown
  rwa [List.getElem?_append_left (List.getElem?_eq_some_iff.mp entry).1]

/-- Where an element of a list with one more element at its end stands. -/
theorem snoc_eq_append_cons {es past later : List α} (same : es ++ [e] = past ++ x :: later) :
    (∃ rest, later = rest ++ [e] ∧ es = past ++ x :: rest) ∨ e = x ∧ es = past := by
  rcases List.eq_nil_or_concat later with rfl | ⟨rest, last, rfl⟩
  · obtain ⟨rfl, rfl⟩ := List.append_inj' same rfl |>.imp id List.singleton_inj.mp
    exact .inr ⟨rfl, rfl⟩
  · rw [List.concat_eq_append, ← List.cons_append, ← List.append_assoc] at same
    obtain ⟨rfl, rfl⟩ := List.append_inj' same rfl |>.imp id List.singleton_inj.mp
    exact .inl ⟨rest, List.concat_eq_append, rfl⟩

theorem mapM_eq_some_iff {f : α → Option β} {l : List α} {r : List β} :
    l.mapM f = some r ↔ l.map f = r.map some := by
  induction l generalizing r with
  | nil => cases r <;> simp
  | cons a l ih =>
    cases head : f a with
    | none => cases r <;> simp [head]
    | some b =>
      cases r with
      | nil => simp [head, Option.bind_eq_some_iff]
      | cons c r => simp [head, ← ih, Option.bind_eq_some_iff, and_comm]

theorem mapM_isSome {f : α → Option β} {l : List α} (all : ∀ a ∈ l, (f a).isSome) :
    ∃ r, l.mapM f = some r := by
  induction l with
  | nil => exact ⟨[], rfl⟩
  | cons a l ih =>
    obtain ⟨b, head⟩ := Option.isSome_iff_exists.mp (all a (by simp))
    obtain ⟨r, rest⟩ := ih fun a member => all a (by simp [member])
    exact ⟨b :: r, by simp [head, rest]⟩

end Sequence
