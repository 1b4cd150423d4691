import Mathlib.Data.List.Chain
import AlloyStack.User.ParallelSort

/-! What each step of the parallel sort is for, said of the step alone: the pieces of
`split_numbers`, the result of `merge_partitions`, and the answer of the checker. -/
namespace AlloyStack.User.ParallelSort
open Rust

section Splitting

/-- One piece for each pivot and one more, which make up the numbers and lie between their
pivots. -/
structure SplitsRight (numbers pivots : List U32) : Prop where
  count : (splitNumbers numbers pivots).length = pivots.length + 1
  whole : (splitNumbers numbers pivots).flatten = numbers
  lower : ∀ (i : Nat) (piece : List U32) (pivot : U32),
    (splitNumbers numbers pivots)[i + 1]? = some piece →
    pivots[i]? = some pivot → ∀ num ∈ piece, pivot ≤ num
  upper : ∀ (i : Nat) (piece : List U32) (pivot : U32),
    (splitNumbers numbers pivots)[i]? = some piece →
    pivots[i]? = some pivot → ∀ num ∈ piece, num < pivot

theorem le_getLast {l : List U32} (ordered : l.Pairwise (· ≤ ·)) (last : l.getLast? = some top) :
    ∀ num ∈ l, num ≤ top := by
  obtain ⟨front, rfl⟩ := List.getLast?_eq_some_iff.mp last
  intro num member
  rcases List.mem_append.mp member with before | only
  · exact (List.pairwise_append.mp ordered).2.2 num before top (by simp)
  · rw [List.mem_singleton.mp only]

/-- The pieces are right exactly when no pivot is skipped: some number reaches the last pivot but
one, if there is such a pivot. -/
theorem splits_right_iff (numbers pivots : List U32) (sorted : numbers.Pairwise (· ≤ ·))
    (ordered : pivots.Pairwise (· ≤ ·)) :
    SplitsRight numbers pivots ↔ ∀ pivot, pivots.dropLast.getLast? = some pivot →
      ∃ num ∈ numbers, pivot ≤ num := by
  constructor
  · intro right pivot last
    rcases (splitNumbers_complete_iff sorted).mp right.count with short | ⟨num, member, above⟩
    · have none_left : pivots.dropLast = [] :=
        List.length_eq_zero_iff.mp (by rw [List.length_dropLast]; omega)
      simp [none_left] at last
    · exact ⟨num, member, above pivot (List.mem_of_getLast? last)⟩
  · intro reaches
    refine ⟨(splitNumbers_complete_iff sorted).mpr ?_, splitNumbers_flatten numbers pivots, ?_, ?_⟩
    · cases last : pivots.dropLast.getLast? with
      | none =>
        have none_left := congrArg List.length (List.getLast?_eq_none_iff.mp last)
        rw [List.length_dropLast, List.length_nil] at none_left
        exact .inl (by omega)
      | some top =>
        obtain ⟨num, member, above⟩ := reaches top last
        have front := ordered.sublist (List.dropLast_sublist pivots)
        exact .inr ⟨num, member,
          fun pivot inside => (le_getLast front last pivot inside).trans above⟩
    · intro i piece pivot located cut num member
      exact splitNumbers_ge sorted located member (Nat.lt_succ_self i) cut
    · intro i piece pivot located cut num member
      exact splitNumbers_lt located member cut

theorem twoPieces_right : SplitsRight [1, 3, 3, 5] [3] :=
  (splits_right_iff [1, 3, 3, 5] [3] (by decide) (by decide)).mpr (by simp)

/-- The only number lies below both pivots, and the third piece is missing. -/
theorem shortNumbers_lose_piece :
    ¬ ∀ numbers pivots : List U32, numbers.Pairwise (· ≤ ·) → pivots.Pairwise (· ≤ ·) →
    SplitsRight numbers pivots := by
  intro all
  have count := (all [1] [2, 3] (by decide) (by decide)).count
  exact absurd count (by decide)

end Splitting

section Merging

/-- `NumberArray`: with `pkey_per_func` a `heapless::Vec`, which takes so many numbers. -/
def numberArrayCapacity (pkeyPerFunc : Bool) : Option Nat :=
  if pkeyPerFunc then some (20 * 1024 * 1024) else none

def Fits (capacity : Option Nat) (length : Nat) : Prop := ∀ most ∈ capacity, length ≤ most

instance (capacity : Option Nat) (length : Nat) : Decidable (Fits capacity length) :=
  inferInstanceAs (Decidable (∀ most ∈ capacity, length ≤ most))

/-- The outer loop of `merge_partitions` with the `unwrap` of `push`. -/
def mergeLoopInto (capacity : Option Nat) (cursors : List Cursor) (dst : List U32) :
    Outcome (List U32) :=
  match _found : scan cursors 0 u32Max none with
  | (_, none) => .ok dst
  | (minValue, some i) =>
    if Fits capacity (dst.length + 1) then
      mergeLoopInto capacity (cursors.modify i Cursor.advance) (dst ++ [minValue])
    else .panic
termination_by (unmerged cursors).length
decreasing_by
  obtain ⟨⟨c, located, front⟩, -⟩ := scan_some _found
  rw [(unmerged_advance located front).length_eq, List.length_cons]
  exact Nat.lt_succ_self _

def mergePartitionsInto (pkeyPerFunc : Bool) (partitions : List (List U32)) : Outcome (List U32) :=
  mergeLoopInto (numberArrayCapacity pkeyPerFunc) (partitions.map (⟨·, 0⟩)) []

/-- The destination is a sorted permutation of the numbers of all partitions. -/
def MergesRight (pkeyPerFunc : Bool) (partitions : List (List U32)) : Prop :=
  ∃ dst, mergePartitionsInto pkeyPerFunc partitions = .ok dst ∧ dst.Pairwise (· ≤ ·) ∧
    dst.Perm partitions.flatten

theorem Fits.mono (fits : Fits capacity n) (le : k ≤ n) : Fits capacity k :=
  fun most given => le.trans (fits most given)

theorem length_le_mergeLoop (cursors : List Cursor) (dst : List U32) :
    dst.length ≤ (mergeLoop cursors dst).length := by
  induction cursors, dst using mergeLoop.induct with
  | case1 cursors dst value found => rw [mergeLoop_stop found]
  | case2 cursors dst value i found ih =>
    rw [List.length_append, List.length_singleton] at ih
    rw [mergeLoop_take found]
    omega

/-- The loop is the one without a capacity when its result fits, and panics otherwise. -/
theorem mergeLoopInto_eq (capacity : Option Nat) (cursors : List Cursor) (dst : List U32)
    (start : Fits capacity dst.length) :
    mergeLoopInto capacity cursors dst =
      if Fits capacity (mergeLoop cursors dst).length then .ok (mergeLoop cursors dst)
        else .panic := by
  induction cursors, dst using mergeLoop.induct with
  | case1 cursors dst value found =>
    rw [mergeLoop_stop found, if_pos start, mergeLoopInto]
    split
    · rfl
    next more => simp [found] at more
  | case2 cursors dst value i found ih =>
    have longer := length_le_mergeLoop (cursors.modify i Cursor.advance) (dst ++ [value])
    rw [List.length_append, List.length_singleton] at ih longer
    rw [mergeLoop_take found, mergeLoopInto]
    split
    next stops => simp [found] at stops
    next value' i' found' =>
      obtain ⟨rfl, rfl⟩ : value = value' ∧ i = i' := by simpa [found] using found'
      by_cases room : Fits capacity (dst.length + 1)
      · rw [if_pos room, ih room]
      · rw [if_neg room, if_neg fun fits => room (fits.mono longer)]

theorem mergePartitionsInto_eq (pkeyPerFunc : Bool) (partitions : List (List U32)) :
    mergePartitionsInto pkeyPerFunc partitions =
      if Fits (numberArrayCapacity pkeyPerFunc) (mergePartitions partitions).length then
        .ok (mergePartitions partitions)
      else .panic :=
  mergeLoopInto_eq _ _ [] fun _ _ => Nat.zero_le _

/-- The merge is right exactly when no partition has the initial minimum among its numbers and the
destination has room for all of them. -/
theorem merges_right_iff (pkeyPerFunc : Bool) (partitions : List (List U32))
    (sorted : ∀ p ∈ partitions, p.Pairwise (· ≤ ·)) :
    MergesRight pkeyPerFunc partitions ↔
      (∀ p ∈ partitions, u32Max ∉ p) ∧
        (pkeyPerFunc = true → partitions.flatten.length ≤ 20 * 1024 * 1024) := by
  obtain ⟨ordered, perm⟩ := mergePartitions_spec partitions sorted
  have absent : (∀ p ∈ partitions, u32Max ∉ p) ↔ u32Max ∉ partitions.flatten := by
    simp [List.mem_flatten]
  have room (n : Nat) : Fits (numberArrayCapacity pkeyPerFunc) n ↔
      (pkeyPerFunc = true → n ≤ 20 * 1024 * 1024) := by
    cases pkeyPerFunc <;> simp [Fits, numberArrayCapacity]
  rw [absent, ← room]
  unfold MergesRight
  rw [mergePartitionsInto_eq]
  constructor
  · rintro ⟨dst, merged, -, whole⟩
    split at merged
    next fits =>
      obtain rfl := Outcome.ok.inj merged
      rw [← whole.length_eq]
      exact ⟨(filter_perm_self_iff _).mp (perm.symm.trans whole), fits⟩
    · cases merged
  · rintro ⟨bounded, fits⟩
    have whole := perm.trans ((filter_perm_self_iff _).mpr bounded)
    rw [if_pos (whole.length_eq ▸ fits)]
    exact ⟨_, rfl, ordered, whole⟩

theorem threePartitions_merged : MergesRight true [[2, 7], [], [1, 7, 9]] :=
  (merges_right_iff true [[2, 7], [], [1, 7, 9]] (by decide)).mpr ⟨by decide, fun _ => by decide⟩

/-- A partition with the largest number only: nothing is below the initial minimum. -/
theorem largest_number_lost :
    ¬ ∀ pkeyPerFunc (partitions : List (List U32)), (∀ p ∈ partitions, p.Pairwise (· ≤ ·)) →
    MergesRight pkeyPerFunc partitions := by
  intro all
  obtain ⟨dst, merged, -, whole⟩ := all false [[u32Max]] (by simp)
  have empty : mergePartitionsInto false [[u32Max]] = .ok [] := by
    rw [mergePartitionsInto, mergeLoopInto]
    rfl
  obtain rfl := Outcome.ok.inj (empty.symm.trans merged)
  simp at whole

end Merging

section Checking
variable {mergerNum : U32} {id : Nat} {s : Slots Value} {ids : List Nat} {results : Nat → List U32}

/-- The loop of the checker over the merge results. Of an array that is accepted, the first number
is kept and not the last one. -/
def checkLoop :
    List Nat → (lastMax : U32) → (counter : Nat) → Slots Value → Outcome (Nat × Slots Value)
  | [], _, counter, s => .ok (counter, s)
  | idx :: idxs, lastMax, counter, s =>
    (takeArray (.mergeResult idx) s).bind fun (array, s) =>
    let counter := counter + array.length
    if ¬ array.IsChain (· ≤ ·) then .err "sort result is wrong"
    else
      match array.head? with
      | none => checkLoop idxs lastMax counter s
      | some first =>
        if first < lastMax then .err "sort result is wrong" else checkLoop idxs first counter s

/-- The checker, with the number of numbers that it reports. -/
def checker (mergerNum : U32) (s : Slots Value) : Outcome (Nat × Slots Value) :=
  checkLoop (List.range mergerNum) 0 0 s

/-- The slots of these mergers hold their results. -/
def HoldsResults (ids : List Nat) (results : Nat → List U32) (s : Slots Value) : Prop :=
  ∀ id ∈ ids, s (mergeResult id) = some (.array (results id))

/-- The checker returns `Ok` exactly when all results one after the other are sorted. -/
def ChecksRight (mergerNum : U32) (results : Nat → List U32) (s : Slots Value) : Prop :=
  (∃ counter t, checker mergerNum s = .ok (counter, t)) ↔
    ((List.range mergerNum).flatMap results).Pairwise (· ≤ ·)

/-- Every array is sorted, and the first numbers of the arrays do not descend. -/
structure FirstsAscend (arrays : List (List U32)) : Prop where
  sorted : ∀ array ∈ arrays, array.Pairwise (· ≤ ·)
  firsts : (arrays.filterMap List.head?).Pairwise (· ≤ ·)

/-- No array reaches past the first number of the next one that is not empty. -/
def Apart (arrays : List (List U32)) : Prop :=
  (arrays.filter (· ≠ [])).IsChain fun a b => ∀ last ∈ a.getLast?, ∀ first ∈ b.head?, last ≤ first

theorem takeArray_result (held : HoldsResults (id :: ids) results s) :
    takeArray (.mergeResult id) s = .ok (results id, s.clear (mergeResult id)) := by
  have stored : s (Name.mergeResult id).text = some (.array (results id)) := held id (by simp)
  rw [takeArray, stored]
  rfl

theorem HoldsResults.rest (held : HoldsResults (id :: ids) results s) (new : id ∉ ids) :
    HoldsResults ids results (s.clear (mergeResult id)) := by
  intro other member
  have apart : Name.mergeResult other ≠ .mergeResult id := by
    rintro same
    cases same
    exact new member
  have kept : (s.clear (Name.mergeResult id).text) (Name.mergeResult other).text =
      s (Name.mergeResult other).text := by
    rw [clear_text, if_neg apart]
  exact kept.trans (held other (by simp [member]))

theorem checkLoop_ok_iff (held : HoldsResults ids results s) (nodup : ids.Nodup) (lastMax : U32)
    (counter : Nat) :
    (∃ total t, checkLoop ids lastMax counter s = .ok (total, t)) ↔
      (∀ array ∈ ids.map results, array.Pairwise (· ≤ ·)) ∧
        (lastMax :: (ids.map results).filterMap List.head?).Pairwise (· ≤ ·) := by
  induction ids generalizing lastMax counter s with
  | nil => simp [checkLoop]
  | cons id ids ih =>
    obtain ⟨new, nodup⟩ := List.nodup_cons.mp nodup
    have rest := ih (held.rest new) nodup
    rw [checkLoop, takeArray_result held, Outcome.bind, List.map_cons, List.forall_mem_cons]
    dsimp only
    by_cases sorted : (results id).Pairwise (· ≤ ·)
    · rw [if_neg (not_not.mpr (List.isChain_iff_pairwise.mpr sorted))]
      cases front : (results id).head? with
      | none => simp only [List.filterMap_cons_none front, sorted, true_and, rest]
      | some first =>
        dsimp only
        rw [List.filterMap_cons_some front]
        by_cases below : first < lastMax
        · rw [if_pos below]
          refine iff_of_false (by simp) fun both => ?_
          exact absurd ((List.pairwise_cons.mp both.2).1 first (by simp)) (not_le.mpr below)
        · rw [if_neg below, rest]
          have start := not_lt.mp below
          constructor
          · rintro ⟨all, ordered⟩
            refine ⟨⟨sorted, all⟩, List.pairwise_cons.mpr ⟨?_, ordered⟩⟩
            intro num member
            rcases List.mem_cons.mp member with rfl | later
            · exact start
            · exact start.trans ((List.pairwise_cons.mp ordered).1 num later)
          · rintro ⟨⟨_, all⟩, ordered⟩
            exact ⟨all, (List.pairwise_cons.mp ordered).2⟩
    · rw [if_pos fun chain => sorted (List.isChain_iff_pairwise.mp chain)]
      exact iff_of_false (by simp) fun both => sorted both.1.1

theorem checker_ok_iff (held : HoldsResults (List.range mergerNum) results s) :
    (∃ total t, checker mergerNum s = .ok (total, t)) ↔
      FirstsAscend ((List.range mergerNum).map results) := by
  rw [checker, checkLoop_ok_iff held List.nodup_range, List.pairwise_cons]
  constructor
  · rintro ⟨sorted, -, firsts⟩
    exact ⟨sorted, firsts⟩
  · rintro ⟨sorted, firsts⟩
    exact ⟨sorted, fun num _ => Fin.zero_le num, firsts⟩

theorem flatten_sorted_iff (arrays : List (List U32)) :
    arrays.flatten.Pairwise (· ≤ ·) ↔ (∀ array ∈ arrays, array.Pairwise (· ≤ ·)) ∧
      Apart arrays := by
  have cut := List.isChain_flatten (R := (· ≤ ·)) (L := arrays.filter (· ≠ [])) (by simp)
  simp only [List.isChain_iff_pairwise (R := ((· ≤ ·) : U32 → U32 → Prop))] at cut
  rw [← List.flatten_filter_ne_nil, cut, Apart]
  refine and_congr_left fun _ => ?_
  constructor
  · intro sorted array member
    by_cases empty : array = []
    · rw [empty]
      exact .nil
    · exact sorted array (List.mem_filter.mpr ⟨member, by simpa using empty⟩)
  · intro sorted array member
    exact sorted array (List.mem_filter.mp member).1

theorem heads_sublist (arrays : List (List U32)) :
    (arrays.filterMap List.head?).Sublist arrays.flatten := by
  induction arrays with
  | nil => exact .slnil
  | cons array arrays ih =>
    cases array with
    | nil => exact ih
    | cons first array =>
      change (first :: arrays.filterMap List.head?).Sublist (first :: (array ++ arrays.flatten))
      exact (ih.trans (List.sublist_append_right array _)).cons_cons first

/-- The checker is right exactly when arrays that it accepts do not reach into each other. -/
theorem checks_right_iff (mergerNum : U32) (results : Nat → List U32) (s : Slots Value)
    (held : HoldsResults (List.range mergerNum) results s) :
    ChecksRight mergerNum results s ↔
      (FirstsAscend ((List.range mergerNum).map results) →
        Apart ((List.range mergerNum).map results)) := by
  have whole := flatten_sorted_iff ((List.range mergerNum).map results)
  rw [ChecksRight, checker_ok_iff held, List.flatMap_def]
  constructor
  · intro right ascend
    exact (whole.mp (right.mp ascend)).2
  · intro apart
    constructor
    · intro ascend
      exact whole.mpr ⟨ascend.sorted, apart ascend⟩
    · intro sorted
      exact ⟨(whole.mp sorted).1, sorted.sublist (heads_sublist _)⟩

/-- Slots with these results and nothing else. -/
def resultSlots (arrays : List (List U32)) : Slots Value :=
  arrays.zipIdx.foldl (fun s e => putArray s (.mergeResult e.2) e.1) fun _ => none

theorem resultSlots_hold (arrays : List (List U32)) :
    HoldsResults (List.range arrays.length) (fun id => arrays.getD id []) (resultSlots arrays) := by
  intro id member
  have located := List.getElem?_eq_getElem (List.mem_range.mp member)
  have found : arrays[id]? = some (arrays.getD id []) := by
    rw [List.getD_eq_getElem?_getD, located]; rfl
  refine Slots.foldl_put_mem (fun e : List U32 × Nat => (Name.mergeResult e.2).text)
    (fun e => Value.array e.1) _ _ ?_
    ⟨(_, id), List.mk_mem_zipIdx_iff_getElem?.mpr found, rfl⟩
  intro e inside same
  have names : Name.mergeResult e.2 = .mergeResult id := Name.text_injective same
  obtain rfl : e.2 = id := by
    cases names
    rfl
  have stored := List.mk_mem_zipIdx_iff_getElem?.mp inside
  exact congrArg Value.array (Option.some.inj (stored.symm.trans found))

theorem sortedResults_checked :
    ChecksRight 3 (fun id => [[1, 2], [], [2, 4]].getD id []) (resultSlots [[1, 2], [], [2, 4]]) :=
  (checks_right_iff 3 _ _ (resultSlots_hold [[1, 2], [], [2, 4]])).mpr fun _ => by
    have ids : List.range ((3 : U32) : Nat) = [0, 1, 2] := rfl
    rw [ids]
    simp [Apart]

/-- The second array begins above the first number of the first one and below its last one. -/
theorem overlap_accepted :
    ¬ ∀ (mergerNum : U32) results s, HoldsResults (List.range mergerNum) results s →
    ChecksRight mergerNum results s := by
  intro all
  have held : HoldsResults (List.range (2 : U32)) (fun id => [[1, 5], [2, 3]].getD id [])
      (resultSlots [[1, 5], [2, 3]]) :=
    resultSlots_hold [[1, 5], [2, 3]]
  have ids : List.range ((2 : U32) : Nat) = [0, 1] := rfl
  have right := all 2 _ _ held
  rw [ChecksRight, checker_ok_iff held, ids] at right
  have sorted := right.mp ⟨by decide, by decide⟩
  exact absurd sorted (by decide)

end Checking
end AlloyStack.User.ParallelSort
