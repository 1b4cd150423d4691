import Mathlib.Data.List.Sort
import Mathlib.Data.List.TakeWhile
import Mathlib.Data.Nat.ModEq
import Mathlib.Order.Fin.Basic

/-! The two algorithms of the parallel sort: `split_numbers` cuts a sorted part at the pivots, and
`merge_partitions` merges one piece of each part. -/
namespace AlloyStack.User.ParallelSort

abbrev U32 := Fin (2 ^ 32)

/-- `u32::MAX` -/
def u32Max : U32 := Fin.last _

theorem lt_u32Max_iff (num : U32) : num < u32Max ↔ num ≠ u32Max := Fin.lt_last_iff_ne_last

/-- `split_numbers`, with the numbers from `current_start` on. It stops when no number is left. -/
def splitNumbers (numbers : List U32) : List U32 → List (List U32)
  | [] => [numbers]
  | pivot :: pivots =>
    let currentPartition := numbers.takeWhile (· < pivot)
    let rest := numbers.drop currentPartition.length
    if rest = [] then [currentPartition, rest] else currentPartition :: splitNumbers rest pivots

theorem drop_takeWhile (numbers : List U32) (p : U32 → Bool) :
    numbers.drop (numbers.takeWhile p).length = numbers.dropWhile p := by
  induction numbers with
  | nil => rfl
  | cons num numbers ih =>
    rw [List.takeWhile_cons, List.dropWhile_cons]
    split
    · exact ih
    · rfl

theorem splitNumbers_cons (numbers : List U32) (pivot : U32) (pivots : List U32) :
    splitNumbers numbers (pivot :: pivots) =
      if numbers.dropWhile (· < pivot) = [] then [numbers.takeWhile (· < pivot), []]
      else numbers.takeWhile (· < pivot) :: splitNumbers
        (numbers.dropWhile (· < pivot)) pivots := by
  simp only [splitNumbers, drop_takeWhile]
  split
  next last => rw [last]
  · rfl

theorem splitNumbers_flatten (numbers pivots : List U32) :
    (splitNumbers numbers pivots).flatten = numbers := by
  induction pivots generalizing numbers with
  | nil => simp [splitNumbers]
  | cons pivot pivots ih =>
    have whole : numbers.takeWhile (· < pivot) ++ numbers.dropWhile (· < pivot) = numbers :=
      List.takeWhile_append_dropWhile
    rw [splitNumbers_cons]
    split
    next last => simpa [last] using whole
    · rw [List.flatten_cons, ih]
      exact whole

/-- From a sorted list, what is not below a pivot at the front is not below it anywhere. -/
theorem le_of_mem_dropWhile {numbers : List U32} (sorted : numbers.Pairwise (· ≤ ·)) {num : U32}
    (member : num ∈ numbers.dropWhile (· < pivot)) : pivot ≤ num := by
  induction numbers with
  | nil => simp at member
  | cons first numbers ih =>
    rw [List.dropWhile_cons] at member
    have rest := List.pairwise_cons.mp sorted
    split at member
    · exact ih rest.2 member
    next stops =>
      have first_ge : pivot ≤ first := by simpa using stops
      rcases List.mem_cons.mp member with rfl | later
      · exact first_ge
      · exact first_ge.trans (rest.1 num later)

variable {numbers pivots piece : List U32} {pivot num : U32} {j k : Nat}

theorem splitNumbers_lt (located : (splitNumbers numbers pivots)[j]? = some piece)
    (member : num ∈ piece) (cut : pivots[j]? = some pivot) : num < pivot := by
  induction pivots generalizing numbers j with
  | nil => simp at cut
  | cons first pivots ih =>
    rw [splitNumbers_cons] at located
    cases j with
    | zero =>
      obtain rfl : first = pivot := by simpa using cut
      obtain rfl : numbers.takeWhile (· < first) = piece := by
        split at located <;> simpa using located
      simpa using List.mem_takeWhile_imp member
    | succ j =>
      split at located
      · rcases j with _ | j
        · obtain rfl : [] = piece := by simpa using located
          simp at member
        · simp at located
      · exact ih (by simpa using located) (by simpa using cut)

theorem splitNumbers_ge (sorted : numbers.Pairwise (· ≤ ·))
    (located : (splitNumbers numbers pivots)[k]? = some piece) (member : num ∈ piece)
    (later : j < k) (cut : pivots[j]? = some pivot) : pivot ≤ num := by
  induction pivots generalizing numbers j k with
  | nil => simp at cut
  | cons first pivots ih =>
    rw [splitNumbers_cons] at located
    obtain ⟨k, rfl⟩ : ∃ k', k = k' + 1 := ⟨k - 1, by omega⟩
    split at located
    · rcases k with _ | k
      · obtain rfl : [] = piece := by simpa using located
        simp at member
      · simp at located
    · have rest : (splitNumbers (numbers.dropWhile (· < first)) pivots)[k]? = some piece := by
        simpa using located
      cases j with
      | zero =>
        obtain rfl : first = pivot := by simpa using cut
        refine le_of_mem_dropWhile sorted ?_
        rw [← splitNumbers_flatten (numbers.dropWhile _) pivots]
        exact List.mem_flatten.mpr ⟨piece, List.mem_of_getElem? rest, member⟩
      | succ j =>
        exact ih (j := j) (sorted.sublist (List.dropWhile_sublist _)) rest (by omega)
          (by simpa using cut)

theorem splitNumbers_length_le (numbers pivots : List U32) :
    (splitNumbers numbers pivots).length ≤ pivots.length + 1 := by
  induction pivots generalizing numbers with
  | nil => simp [splitNumbers]
  | cons pivot pivots ih =>
    rw [splitNumbers_cons]
    split
    · simp
    · simpa using ih _

theorem mem_dropWhile_iff (sorted : numbers.Pairwise (· ≤ ·)) :
    num ∈ numbers.dropWhile (· < pivot) ↔ num ∈ numbers ∧ pivot ≤ num := by
  constructor
  · intro member
    exact ⟨(List.dropWhile_sublist _).mem member, le_of_mem_dropWhile sorted member⟩
  · intro ⟨member, above⟩
    rw [← List.takeWhile_append_dropWhile (p := (· < pivot)) (l := numbers)] at member
    rcases List.mem_append.mp member with below | rest
    · have small : num < pivot := by simpa using List.mem_takeWhile_imp below
      exact absurd above (not_le.mpr small)
    · exact rest

/-- There is a piece for each pivot and one more exactly when some number reaches past all pivots
but the last one. -/
theorem splitNumbers_complete_iff (sorted : numbers.Pairwise (· ≤ ·)) :
    (splitNumbers numbers pivots).length = pivots.length + 1 ↔
      pivots.length ≤ 1 ∨ ∃ num ∈ numbers, ∀ pivot ∈ pivots.dropLast, pivot ≤ num := by
  induction pivots generalizing numbers with
  | nil => simp [splitNumbers]
  | cons pivot pivots ih =>
    have rest_iff (num : U32) : num ∈ numbers.dropWhile (· < pivot) ↔ num ∈ numbers ∧ pivot ≤ num :=
      mem_dropWhile_iff sorted
    rw [splitNumbers_cons]
    cases pivots with
    | nil => split <;> simp [splitNumbers]
    | cons second pivots =>
      split
      next last =>
        rw [last] at rest_iff
        simp only [List.length_cons, List.length_nil, List.dropLast_cons_cons, List.forall_mem_cons]
        refine iff_of_false (by omega) ?_
        rintro (short | ⟨num, member, above, -⟩)
        · omega
        · simpa using (rest_iff num).mpr ⟨member, above⟩
      next more =>
        have next := ih (sorted.sublist (List.dropWhile_sublist (· < pivot)))
        simp only [List.length_cons, Nat.add_right_cancel_iff, List.dropLast_cons_cons,
          List.forall_mem_cons] at next ⊢
        rw [next]
        constructor
        · rintro (short | ⟨num, member, above⟩)
          · obtain ⟨num, member⟩ := List.exists_mem_of_ne_nil _ more
            obtain rfl : pivots = [] := by simpa using short
            exact .inr ⟨num, ((rest_iff num).mp member).1, ((rest_iff num).mp member).2, by simp⟩
          · exact .inr ⟨num, ((rest_iff num).mp member).1, ((rest_iff num).mp member).2, above⟩
        · rintro (short | ⟨num, member, above, all⟩)
          · omega
          · exact .inr ⟨num, (rest_iff num).mpr ⟨member, above⟩, all⟩

/-- A partition with the index up to which it is merged. -/
structure Cursor where
  partition : List U32
  index : Nat

namespace Cursor

def remaining (c : Cursor) : List U32 := c.partition.drop c.index

def advance (c : Cursor) : Cursor := { c with index := c.index + 1 }

end Cursor

/-- The inner loop of `merge_partitions`, from partition `i` on. -/
def scan : List Cursor → Nat → U32 → Option Nat → U32 × Option Nat
  | [], _, minValue, minPartition => (minValue, minPartition)
  | c :: cursors, i, minValue, minPartition =>
    match c.partition[c.index]? with
    | none => scan cursors (i + 1) minValue minPartition
    | some value =>
      if value < minValue then scan cursors (i + 1) value (some i)
      else scan cursors (i + 1) minValue minPartition

/-- What `scan` has found when it ends: no partition has a smaller number in front, and the result
is what it began with or in front of the partition that it names. -/
structure Scanned (cursors : List Cursor) (i : Nat) (minValue : U32) (minPartition : Option Nat)
    (found : U32 × Option Nat) : Prop where
  least : ∀ c ∈ cursors, ∀ value, c.partition[c.index]? = some value → found.1 ≤ value
  le : found.1 ≤ minValue
  source : found = (minValue, minPartition) ∨ ∃ k c, cursors[k]? = some c ∧
    c.partition[c.index]? = some found.1 ∧
    found.1 < minValue ∧ found.2 = some (i + k)

namespace Scanned
variable {c : Cursor} {cursors : List Cursor} {i : Nat} {minValue : U32} {minPartition : Option Nat}
variable {found : U32 × Option Nat}

/-- The front of a partition is passed over. -/
theorem pass (rest : Scanned cursors (i + 1) minValue minPartition found)
    (high : ∀ value, c.partition[c.index]? = some value → minValue ≤ value) :
    Scanned (c :: cursors) i minValue minPartition found where
  least := by
    intro d member value front
    rcases List.mem_cons.mp member with rfl | member
    · exact rest.le.trans (high value front)
    · exact rest.least d member value front
  le := rest.le
  source := by
    rcases rest.source with start | ⟨k, d, located, front, below, names⟩
    · exact .inl start
    · exact .inr ⟨k + 1, d, by simpa using located, front, below,
        by rw [names, Nat.add_right_comm, Nat.add_assoc]⟩

/-- The front of a partition becomes the new minimum. -/
theorem take (rest : Scanned cursors (i + 1) value (some i) found)
    (front : c.partition[c.index]? = some value) (below : value < minValue) :
    Scanned (c :: cursors) i minValue minPartition found where
  least := by
    intro d member other other_front
    rcases List.mem_cons.mp member with rfl | member
    · obtain rfl : value = other := by simpa [front] using other_front
      exact rest.le
    · exact rest.least d member other other_front
  le := rest.le.trans below.le
  source := by
    refine .inr ?_
    rcases rest.source with rfl | ⟨k, d, located, front', below', names⟩
    · exact ⟨0, c, rfl, front, below, rfl⟩
    · exact ⟨k + 1, d, by simpa using located, front', below'.trans below,
        by rw [names, Nat.add_right_comm, Nat.add_assoc]⟩

end Scanned

theorem scan_spec (cursors : List Cursor) (i : Nat) (minValue : U32) (minPartition : Option Nat) :
    Scanned cursors i minValue minPartition (scan cursors i minValue minPartition) := by
  induction cursors generalizing i minValue minPartition with
  | nil => exact ⟨by simp, le_refl _, .inl rfl⟩
  | cons c cursors ih =>
    rw [scan]
    split
    next exhausted => exact (ih _ _ _).pass (by simp [exhausted])
    next value front =>
      split
      next below => exact (ih _ _ _).take front below
      next high => exact (ih _ _ _).pass (by simpa [front] using high)

theorem scan_some (found : scan cursors 0 u32Max none = (value, some i)) :
    (∃ c, cursors[i]? = some c ∧ c.partition[c.index]? = some value) ∧ value < u32Max := by
  have spec := scan_spec cursors 0 u32Max none
  rw [found] at spec
  rcases spec.source with start | ⟨k, c, located, front, below, names⟩
  · simp at start
  · obtain rfl : i = k := by simpa using names
    exact ⟨⟨c, located, front⟩, below⟩

theorem scan_none (found : scan cursors 0 u32Max none = (value, none)) : value = u32Max := by
  have spec := scan_spec cursors 0 u32Max none
  rw [found] at spec
  rcases spec.source with start | ⟨k, c, -, -, -, names⟩
  · simpa using start
  · simp at names

/-- The numbers that are not merged yet. -/
def unmerged (cursors : List Cursor) : List U32 := cursors.flatMap Cursor.remaining

namespace Cursor

theorem remaining_eq {c : Cursor} (front : c.partition[c.index]? = some value) :
    c.remaining = value :: c.advance.remaining := by
  obtain ⟨bound, rfl⟩ := List.getElem?_eq_some_iff.mp front
  exact List.drop_eq_getElem_cons bound

/-- A bound for the front of a sorted partition is a bound for all that is left of it. -/
theorem le_remaining {c : Cursor} (sorted : c.remaining.Pairwise (· ≤ ·))
    (least : ∀ value, c.partition[c.index]? = some value → bound ≤ value) :
    ∀ num ∈ c.remaining, bound ≤ num := by
  intro num member
  cases front : c.partition[c.index]? with
  | none =>
    have passed : c.partition.length ≤ c.index := List.getElem?_eq_none_iff.mp front
    simp [remaining, List.drop_eq_nil_of_le passed] at member
  | some value =>
    rw [remaining_eq front] at sorted member
    rcases List.mem_cons.mp member with rfl | later
    · exact least _ front
    · exact (least _ front).trans ((List.pairwise_cons.mp sorted).1 num later)

end Cursor

theorem unmerged_advance (located : cursors[i]? = some c)
    (front : c.partition[c.index]? = some value) :
    (unmerged cursors).Perm (value :: unmerged (cursors.modify i Cursor.advance)) := by
  induction cursors generalizing i with
  | nil => simp at located
  | cons d cursors ih =>
    cases i with
    | zero =>
      obtain rfl : d = c := by simpa using located
      simp [unmerged, Cursor.remaining_eq front]
    | succ i =>
      have rest := ih (by simpa using located)
      simp only [unmerged, List.flatMap_cons, List.modify_succ_cons] at rest ⊢
      exact (rest.append_left d.remaining).trans List.perm_middle

/-- The outer loop of `merge_partitions`. -/
def mergeLoop (cursors : List Cursor) (dst : List U32) : List U32 :=
  match _found : scan cursors 0 u32Max none with
  | (_, none) => dst
  | (minValue, some i) => mergeLoop (cursors.modify i Cursor.advance) (dst ++ [minValue])
termination_by (unmerged cursors).length
decreasing_by
  obtain ⟨⟨c, located, front⟩, -⟩ := scan_some _found
  rw [(unmerged_advance located front).length_eq, List.length_cons]
  exact Nat.lt_succ_self _

def mergePartitions (partitions : List (List U32)) : List U32 :=
  mergeLoop (partitions.map (⟨·, 0⟩)) []

theorem mergeLoop_stop {cursors : List Cursor} {value : U32}
    (found : scan cursors 0 u32Max none = (value, none)) (dst : List U32) :
    mergeLoop cursors dst = dst := by
  rw [mergeLoop]
  split
  · rfl
  next more => simp [found] at more

theorem mergeLoop_take {cursors : List Cursor} {value : U32} {i : Nat}
    (found : scan cursors 0 u32Max none = (value, some i)) (dst : List U32) :
    mergeLoop cursors dst = mergeLoop (cursors.modify i Cursor.advance) (dst ++ [value]) := by
  rw [mergeLoop]
  split
  next stops => simp [found] at stops
  next value' i' found' =>
    obtain ⟨rfl, rfl⟩ : value = value' ∧ i = i' := by simpa [found] using found'
    rfl

/-- Dropping the largest number makes no difference where it does not occur. -/
theorem filter_perm_self_iff (l : List U32) : (l.filter (· ≠ u32Max)).Perm l ↔ u32Max ∉ l := by
  constructor
  · intro perm top
    have kept := perm.mem_iff.mpr top
    simp at kept
  · intro absent
    have all : l.filter (· ≠ u32Max) = l := by
      refine List.filter_eq_self.mpr fun num member => ?_
      simp only [decide_eq_true_eq]
      rintro rfl
      exact absent member
    rw [all]

theorem advance_sorted {cursors : List Cursor} (i : Nat)
    (sorted : ∀ c ∈ cursors, c.remaining.Pairwise (· ≤ ·)) :
    ∀ c ∈ cursors.modify i Cursor.advance, c.remaining.Pairwise (· ≤ ·) := by
  intro d member
  obtain ⟨k, located⟩ := List.getElem?_of_mem member
  rw [List.getElem?_modify] at located
  obtain ⟨c, old, rfl⟩ := Option.map_eq_some_iff.mp located
  have kept := sorted c (List.mem_of_getElem? old)
  split
  · rw [Cursor.remaining, Cursor.advance, ← List.drop_drop]
    exact kept.sublist (List.drop_sublist _ _)
  · exact kept

/-- The loop appends the numbers that are not merged yet in order, but for those that equal the
initial minimum. -/
theorem mergeLoop_spec (cursors : List Cursor) (dst : List U32)
    (sorted : ∀ c ∈ cursors, c.remaining.Pairwise (· ≤ ·)) :
    ∃ merged, mergeLoop cursors dst = dst ++ merged ∧ merged.Pairwise (· ≤ ·) ∧
      merged.Perm ((unmerged cursors).filter (· ≠ u32Max)) := by
  have least := (scan_spec cursors 0 u32Max none).least
  induction cursors, dst using mergeLoop.induct with
  | case1 cursors dst value found =>
    refine ⟨[], ?_, .nil, ?_⟩
    · rw [mergeLoop_stop found, List.append_nil]
    · rw [found, scan_none found] at least
      suffices none_left : (unmerged cursors).filter (· ≠ u32Max) = [] by rw [none_left]
      rw [List.filter_eq_nil_iff]
      intro num member
      obtain ⟨c, cursor, member⟩ := List.mem_flatMap.mp member
      have top := c.le_remaining (sorted c cursor) (least c cursor) num member
      have max : num = u32Max := le_antisymm (Fin.le_last num) top
      simp [max]
  | case2 cursors dst value i found ih =>
    obtain ⟨⟨c, located, front⟩, below⟩ := scan_some found
    obtain ⟨merged, result, ordered, perm⟩ :=
      ih (advance_sorted i sorted) (scan_spec _ 0 u32Max none).least
    have order := unmerged_advance located front
    rw [found] at least
    refine ⟨value :: merged, ?_, ?_, ?_⟩
    · rw [mergeLoop_take found, result, List.append_assoc, List.singleton_append]
    · refine List.pairwise_cons.mpr ⟨fun num member => ?_, ordered⟩
      have left := (List.mem_filter.mp (perm.mem_iff.mp member)).1
      obtain ⟨d, cursor, member⟩ :=
        List.mem_flatMap.mp (order.mem_iff.mpr (List.mem_cons_of_mem _ left))
      exact d.le_remaining (sorted d cursor) (least d cursor) num member
    · refine .trans ?_ (order.filter _).symm
      rw [List.filter_cons_of_pos (by simpa using ((lt_u32Max_iff value).mp below))]
      exact perm.cons value

theorem mergePartitions_spec (partitions : List (List U32))
    (sorted : ∀ p ∈ partitions, p.Pairwise (· ≤ ·)) :
    (mergePartitions partitions).Pairwise (· ≤ ·) ∧
      (mergePartitions partitions).Perm (partitions.flatten.filter (· ≠ u32Max)) := by
  obtain ⟨merged, result, ordered, perm⟩ :=
    mergeLoop_spec (partitions.map (⟨·, 0⟩)) [] (by simpa [Cursor.remaining] using sorted)
  have all : unmerged (partitions.map (⟨·, 0⟩)) = partitions.flatten := by
    simp [unmerged, Cursor.remaining, List.flatMap_map, List.flatMap_id']
  rw [all] at perm
  rw [mergePartitions, result]
  exact ⟨ordered, perm⟩

end AlloyStack.User.ParallelSort
