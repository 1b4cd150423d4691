import AlloyStack.User.NumberText
import AlloyStack.User.Sorting

/-! The splitter of the C++ parallel sort, beside the one in Rust: it puts each number into the row
that belongs to the pivots at the front that are not above it. -/
namespace AlloyStack.User.WasmSort
open ParallelSort (U32 splitNumbers splitNumbers_cons le_of_mem_dropWhile)

/-- The inner loop over the pivots: the row of a number. -/
def rowOf (num : Int) : (pivots : List Int) → Nat
  | [] => 0
  | pivot :: pivots => if pivot ≤ num then rowOf num pivots + 1 else 0

/-- The loop over the numbers; `none` is a write outside the rows. -/
def splitLoop (pivots : List Int) : List Int → List (List Int) → Option (List (List Int))
  | [], rows => some rows
  | num :: numbers, rows =>
    (rows[rowOf num pivots]?).bind fun row =>
    if row.length < MAX_ARRAY_LENGTH then
      splitLoop pivots numbers (rows.set (rowOf num pivots) (row ++ [num]))
    else none

/-- The rows that the splitter builds, one for each merger. -/
def splitRows (mergerNum : Nat) (numbers pivots : List Int) : Option (List (List Int)) :=
  splitLoop pivots numbers (List.replicate mergerNum [])

/-- A non-negative number of an `int`, which is an `u32` as well. -/
abbrev Int31 := Fin (2 ^ 31)

def toInt (n : Int31) : Int := n.val

def toU32 (n : Int31) : U32 := n.castLE (by decide)

section Rows
variable {pivots numbers : List Int} {rows rows' : List (List Int)}

theorem rowOf_le (num : Int) (pivots : List Int) : rowOf num pivots ≤ pivots.length := by
  induction pivots with
  | nil => exact le_refl _
  | cons pivot pivots ih =>
    rw [rowOf, List.length_cons]
    split <;> omega

/-- Each row gets its numbers in order. -/
theorem splitLoop_rows (built : splitLoop pivots numbers rows = some rows') (i : Nat) :
    rows'[i]? = (rows[i]?).map (· ++ numbers.filter fun num => rowOf num pivots = i) := by
  induction numbers generalizing rows with
  | nil =>
    obtain rfl := Option.some.inj built
    simp
  | cons num numbers ih =>
    obtain ⟨row, located, rest⟩ := Option.bind_eq_some_iff.mp built
    split at rest
    · rw [ih rest, List.getElem?_set]
      by_cases own : rowOf num pivots = i
      · subst own
        have inside := (List.getElem?_eq_some_iff.mp located).1
        rw [if_pos rfl, if_pos inside, located, List.filter_cons_of_pos (by simp)]
        simp
      · rw [if_neg own, List.filter_cons_of_neg (by simpa using own)]
    · cases rest

/-- Rows for all mergers take as many numbers as the array that they come from. -/
theorem splitLoop_some (enough : pivots.length < rows.length)
    (room : ∀ row ∈ rows, row.length + numbers.length ≤ MAX_ARRAY_LENGTH) :
    ∃ rows', splitLoop pivots numbers rows = some rows' := by
  induction numbers generalizing rows with
  | nil => exact ⟨rows, rfl⟩
  | cons num numbers ih =>
    have inside : rowOf num pivots < rows.length := (rowOf_le num pivots).trans_lt enough
    have located : rows[rowOf num pivots]? = some rows[rowOf num pivots] :=
      List.getElem?_eq_getElem inside
    have fits := room _ (List.mem_of_getElem? located)
    rw [List.length_cons] at fits
    rw [splitLoop, located, Option.bind_some, if_pos (by omega)]
    refine ih (by simpa using enough) fun row member => ?_
    rcases List.mem_or_eq_of_mem_set member with old | rfl
    · have := room row old
      rw [List.length_cons] at this
      omega
    · rw [List.length_append, List.length_singleton]
      omega

end Rows

section Pieces
variable {numbers : List U32}

/-- The number of pivots at the front that are not above a number. -/
def pieceOf (pivots : List U32) (num : U32) : Nat := (pivots.takeWhile (· ≤ num)).length

/-- Each piece of `split_numbers` has its numbers in order. -/
theorem splitNumbers_getD (sorted : numbers.Pairwise (· ≤ ·)) (pivots : List U32) (i : Nat) :
    (splitNumbers numbers pivots).getD i [] = numbers.filter fun num => pieceOf pivots num = i := by
  induction pivots generalizing numbers i with
  | nil =>
    cases i with
    | zero => simp [splitNumbers, pieceOf]
    | succ i => simp [splitNumbers, pieceOf]
  | cons pivot pivots ih =>
    have below : ∀ num ∈ numbers.takeWhile (· < pivot), pieceOf (pivot :: pivots) num = 0 := by
      intro num member
      have small : num < pivot := by simpa using List.mem_takeWhile_imp member
      rw [pieceOf, List.takeWhile_cons_of_neg (by simpa using small), List.length_nil]
    have above : ∀ num ∈ numbers.dropWhile (· < pivot),
        pieceOf (pivot :: pivots) num = pieceOf pivots num + 1 := by
      intro num member
      have large : pivot ≤ num := le_of_mem_dropWhile sorted member
      rw [pieceOf, List.takeWhile_cons_of_pos (by simpa using large), List.length_cons, pieceOf]
    have parts : numbers.filter (fun num => pieceOf (pivot :: pivots) num = i) =
        (numbers.takeWhile (· < pivot)).filter (fun num => pieceOf (pivot :: pivots) num = i) ++
          (numbers.dropWhile (· < pivot)).filter fun num => pieceOf (pivot :: pivots) num = i := by
      rw [← List.filter_append, List.takeWhile_append_dropWhile]
    rw [parts, splitNumbers_cons]
    cases i with
    | zero =>
      have front : (numbers.takeWhile (· < pivot)).filter
          (fun num => pieceOf (pivot :: pivots) num = 0) =
          numbers.takeWhile (· < pivot) :=
            List.filter_eq_self.mpr fun num member => by simp [below num member]
      have rest : (numbers.dropWhile (· < pivot)).filter
          (fun num => pieceOf (pivot :: pivots) num = 0) = [] :=
        List.filter_eq_nil_iff.mpr fun num member => by simp [above num member]
      rw [front, rest, List.append_nil]
      split <;> rfl
    | succ i =>
      have front : (numbers.takeWhile (· < pivot)).filter
          (fun num => pieceOf (pivot :: pivots) num = i + 1) = [] :=
        List.filter_eq_nil_iff.mpr fun num member => by simp [below num member]
      have rest : (numbers.dropWhile (· < pivot)).filter
          (fun num => pieceOf (pivot :: pivots) num = i + 1) =
          (numbers.dropWhile (· < pivot)).filter fun num => pieceOf pivots num = i :=
        List.filter_congr fun num member => by simp [above num member]
      rw [front, rest, List.nil_append]
      split
      next none_left => cases i <;> simp [none_left]
      · exact ih (sorted.sublist (List.dropWhile_sublist _)) i

end Pieces

/-- Both splitters compare alike on the numbers that an `int` and an `u32` share. -/
theorem rowOf_eq_pieceOf (num : Int31) (pivots : List Int31) :
    rowOf (toInt num) (pivots.map toInt) = pieceOf (pivots.map toU32) (toU32 num) := by
  induction pivots with
  | nil => rfl
  | cons pivot pivots ih =>
    have same : toInt pivot ≤ toInt num ↔ toU32 pivot ≤ toU32 num := by
      rw [toInt, toInt, Int.ofNat_le, Fin.le_def]
      rfl
    rw [List.map_cons, rowOf, List.map_cons]
    by_cases above : toInt pivot ≤ toInt num
    · rw [if_pos above, ih, pieceOf, pieceOf,
        List.takeWhile_cons_of_pos (by simpa using same.mp above), List.length_cons]
    · rw [if_neg above, pieceOf, List.takeWhile_cons_of_neg (by simpa using mt same.mpr above),
        List.length_nil]

/-- Row by row the C++ splitter builds the partitions of `split_numbers`, one that is missing there
being empty, and it builds them from every array. -/
theorem splitters_agree (mergerNum : Nat) (numbers pivots : List Int31)
    (sorted : numbers.Pairwise (· ≤ ·)) (room : pivots.length < mergerNum) :
    (numbers.length ≤ MAX_ARRAY_LENGTH →
      ∃ rows, splitRows mergerNum (numbers.map toInt) (pivots.map toInt) = some rows) ∧
    ∀ rows, splitRows mergerNum (numbers.map toInt) (pivots.map toInt) = some rows → ∀ i,
      rows.getD i [] = ((splitNumbers (numbers.map toU32) (pivots.map toU32)).getD i []).map
        fun num => (num.val : Int) := by
  constructor
  · intro fits
    refine splitLoop_some (by simpa using room) fun row member => ?_
    obtain rfl := List.eq_of_mem_replicate member
    simpa using fits
  · intro rows built i
    have sorted' : (numbers.map toU32).Pairwise (· ≤ ·) := sorted.map toU32 fun _ _ le => le
    rw [splitNumbers_getD sorted', List.getD_eq_getElem?_getD, splitLoop_rows built]
    by_cases inside : i < mergerNum
    · rw [List.getElem?_replicate_of_lt inside, Option.map_some, Option.getD_some, List.nil_append,
        List.filter_map, List.filter_map, List.map_map]
      have same : ∀ num, decide (rowOf (toInt num) (pivots.map toInt) = i) =
          decide (pieceOf (pivots.map toU32) (toU32 num) = i) :=
        fun num => by rw [rowOf_eq_pieceOf]
      simp only [Function.comp_def, same]
      rfl
    · -- No number belongs behind the last row, since there is one row more than pivots.
      rw [List.getElem?_eq_none (by simpa using inside), Option.map_none, Option.getD_none, eq_comm,
        List.map_eq_nil_iff, List.filter_eq_nil_iff]
      intro num _
      have few : pieceOf (pivots.map toU32) num ≤ pivots.length := by
        simpa [pieceOf] using (List.takeWhile_sublist (· ≤ num) (l := pivots.map toU32)).length_le
      simp only [decide_eq_true_eq]
      omega

/-- Repeated pivots and a number equal to one. -/
theorem repeatedPivots_agree :
    ∃ rows, splitRows 4 [1, 5, 7] [5, 5, 9] = some rows ∧
    ∀ i, rows.getD i [] =
      ((splitNumbers [1, 5, 7] [5, 5, 9]).getD i []).map fun num => (num.val : Int) := by
  obtain ⟨rows, built⟩ :=
    (splitters_agree 4 [1, 5, 7] [5, 5, 9] (by decide) (by decide)).1 (by decide)
  exact ⟨rows, built, (splitters_agree 4 [1, 5, 7] [5, 5, 9] (by decide) (by decide)).2 rows built⟩

end AlloyStack.User.WasmSort
