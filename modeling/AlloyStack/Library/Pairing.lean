import Mathlib.Algebra.BigOperators.Fin
import Mathlib.Algebra.BigOperators.Ring.Finset
import Mathlib.Algebra.Order.BigOperators.Group.Finset
import Mathlib.Algebra.Order.Rearrangement
import Mathlib.Order.Preorder.Finite
import Mathlib.Tactic.Linarith
import Mathlib.Tactic.Ring

/-! Differences of two increasing sequences. The differences at equal positions determine the
pairing: no other pairing with pairwise different partners has the same differences, in any
order. -/
namespace Pairing
open Finset

variable {R : Type} [CommRing R] [LinearOrder R] [IsStrictOrderedRing R]
variable {starts ends : Nat → R} {partner : Nat → Nat} {m n : Nat}

/-- Among the sets of `n` positions the first `n` alone have the smallest sum. -/
theorem eq_range_of_sum {chosen : Finset Nat} (rises : StrictMonoOn starts {i | i < m})
    (inside : ∀ i ∈ chosen, i < m) (size : chosen.card = n)
    (sum : ∑ i ∈ chosen, starts i = ∑ i ∈ range n, starts i) : chosen = range n := by
  by_contra differs
  have sizes : (chosen \ range n).card = (range n \ chosen).card :=
    card_sdiff_comm (by rw [size, card_range])
  have missing : (range n \ chosen).Nonempty := by
    rw [nonempty_iff_ne_empty, Ne, sdiff_eq_empty_iff_subset]
    intro covered
    exact differs (eq_of_subset_of_card_le covered (by rw [size, card_range])).symm
  have extra : (chosen \ range n).Nonempty := by
    rw [← card_pos, sizes, card_pos]
    exact missing
  obtain ⟨high, outside⟩ := extra
  have above : n ≤ high := by simpa using (mem_sdiff.mp outside).2
  have bound : n < m := above.trans_lt (inside high (mem_sdiff.mp outside).1)
  have upper : (chosen \ range n).card • starts n ≤ ∑ i ∈ chosen \ range n, starts i := by
    refine card_nsmul_le_sum _ _ _ fun i member => ?_
    have later : n ≤ i := by simpa using (mem_sdiff.mp member).2
    exact rises.monotoneOn bound (inside i (mem_sdiff.mp member).1) later
  have lower : ∑ i ∈ range n \ chosen, starts i < (range n \ chosen).card • starts n := by
    rw [← sum_const]
    refine sum_lt_sum_of_nonempty missing fun i member => ?_
    have early : i < n := mem_range.mp (mem_sdiff.mp member).1
    exact rises (early.trans bound) bound early
  have left := sum_inter_add_sum_sdiff chosen (range n) starts
  have right := sum_inter_add_sum_sdiff (range n) chosen starts
  rw [inter_comm] at right
  rw [sizes] at upper
  linarith

/-- A permutation with the same products pairs like positions. -/
theorem perm_eq_refl {first second : Fin n → R} (rises : StrictMono first)
    (climbs : StrictMono second) (σ : Equiv.Perm (Fin n))
    (products : ∑ i, first i * second (σ i) = ∑ i, first i * second i) :
    σ = Equiv.refl _ := by
  have together : Monovary first second := rises.monotone.monovary climbs.monotone
  have varies := together.sum_mul_comp_perm_eq_sum_mul_iff.mp products
  have keeps : Monotone σ := by
    intro i j ordered
    by_contra swapped
    have below : (second ∘ σ) j < (second ∘ σ) i := climbs (not_le.mp swapped)
    have back : j ≤ i := rises.le_iff_le.mp (varies below)
    exact absurd (ordered.antisymm back) (fun same => by simp [same] at swapped)
  have strict : StrictMono σ := keeps.strictMono_of_injective σ.injective
  exact Equiv.ext fun i => congrFun strict.eq_id i

/-- Partners with the same sum are the first positions. -/
theorem partner_lt (rises : StrictMonoOn starts {i | i < m})
    (distinct : Set.InjOn partner (range n)) (inside : ∀ k < n, partner k < m)
    (sum : ∑ k ∈ range n, starts (partner k) = ∑ k ∈ range n, starts k) :
    ∀ k < n, partner k < n := by
  have size : ((range n).image partner).card = n := by rw [card_image_of_injOn distinct, card_range]
  have below : ∀ i ∈ (range n).image partner, i < m := by
    intro i member
    obtain ⟨k, known, rfl⟩ := mem_image.mp member
    exact inside k (mem_range.mp known)
  have image := eq_range_of_sum rises below size (by rw [sum_image distinct, sum])
  intro k known
  rw [← mem_range, ← image]
  exact mem_image_of_mem partner (mem_range.mpr known)

omit [LinearOrder R] [IsStrictOrderedRing R] in
theorem sum_sq_sub (first second : Fin n → R) : ∑ k, (first k - second k) ^ 2 =
    ∑ k, first k ^ 2 - 2 * ∑ k, first k * second k + ∑ k, second k ^ 2 := by
  rw [mul_sum, ← sum_sub_distrib, ← sum_add_distrib]
  exact sum_congr rfl fun k _ => by ring

/-- Equal differences, in any order, leave only the pairing of equal positions. -/
theorem partner_eq (fits : n ≤ m) (rises : StrictMonoOn starts {i | i < m})
    (climbs : StrictMonoOn ends {k | k < n}) (distinct : Set.InjOn partner (range n))
    (inside : ∀ k < n, partner k < m)
    (same : (Multiset.range n).map (fun k => ends k - starts k) =
      (Multiset.range n).map (fun k => ends k - starts (partner k))) : ∀ k < n, partner k = k := by
  have sums : ∑ k ∈ range n, (ends k - starts k) = ∑ k ∈ range n, (ends k - starts (partner k)) :=
    congrArg Multiset.sum same
  have squares : ∑ k ∈ range n, (ends k - starts k) ^ 2 = ∑ k ∈ range n,
      (ends k - starts (partner k)) ^ 2 := by
    have mapped := congrArg (Multiset.map (· ^ 2)) same
    rw [Multiset.map_map, Multiset.map_map] at mapped
    exact congrArg Multiset.sum mapped
  have maps : ∀ k < n, partner k < n := by
    apply partner_lt rises distinct inside
    rw [sum_sub_distrib, sum_sub_distrib] at sums
    linarith
  have injective : Function.Injective fun k : Fin n => (⟨partner k, maps k k.isLt⟩ : Fin n) := by
    intro k l equal
    exact Fin.ext (distinct (mem_coe.mpr (mem_range.mpr k.isLt))
      (mem_coe.mpr (mem_range.mpr l.isLt))
      (congrArg Fin.val equal))
  let σ : Equiv.Perm (Fin n) := Equiv.ofBijective _ (Finite.injective_iff_bijective.mp injective)
  have starting : StrictMono fun i : Fin n => starts i :=
    fun i j less => rises (i.isLt.trans_le fits) (j.isLt.trans_le fits) less
  have ending : StrictMono fun k : Fin n => ends k := fun i j less => climbs i.isLt j.isLt less
  have products : ∑ k : Fin n, ends k * starts (σ k) = ∑ k : Fin n, ends k * starts k := by
    have permuted : ∑ k : Fin n, starts (σ k) ^ 2 = ∑ k : Fin n, starts k ^ 2 :=
      Equiv.sum_comp σ fun i => starts i ^ 2
    have plain := sum_sq_sub (fun k : Fin n => ends k) fun k => starts k
    have swapped := sum_sq_sub (fun k : Fin n => ends k) fun k => starts (σ k)
    rw [Finset.sum_range, Finset.sum_range] at squares
    change _ = ∑ k : Fin n, (ends k - starts (σ k)) ^ 2 at squares
    linarith
  intro k known
  exact congrArg Fin.val (Equiv.congr_fun (perm_eq_refl ending starting σ products) ⟨k, known⟩)

end Pairing
