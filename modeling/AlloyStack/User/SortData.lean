import AlloyStack.Library.CInts
import AlloyStack.User.CountText
import AlloyStack.User.ParallelSort

/-! The input of the sort: `gen_parallel_sort` writes numbers with a comma behind each and a final
1, the Rust sorter splits the text at commas, and the C++ sorter ends a number at a space or a
newline. -/
namespace AlloyStack.User.SortData
open Rust ParallelSort C
open WasmWordCount (Bytes)

/-- `','.join(str(n) for n in chunk) + ','` -/
def chunkText (chunk : List Nat) : List Char :=
  List.intercalate [','] (chunk.map (Nat.toDigits 10)) ++ [',']

/-- The ten numbers that a round of the generator draws. -/
def drawn (random : Nat → Nat) (round : Nat) : List Nat :=
  (List.range 10).map fun i => random (10 * round + i)

theorem chunkText_pos (chunk : List Nat) : 0 < (chunkText chunk).length := by
  simp [chunkText]

/-- The loop of `gen_parallel_sort` for one file, and the last write. -/
def genLoop (random : Nat → Nat) (oneSize : Nat) (round currentSize : Nat) : List Char :=
  if currentSize < oneSize then
    let text := chunkText (drawn random round)
    text ++ genLoop random oneSize (round + 1) (currentSize + text.length)
  else ['1']
termination_by oneSize - currentSize
decreasing_by
  have := chunkText_pos (drawn random round)
  omega

def genParallelSort (random : Nat → Nat) (oneSize : Nat) : List Char := genLoop random oneSize 0 0

/-- The format: numbers with commas, and a final 1. -/
def sortData (numbers : List Nat) : List Char :=
  numbers.flatMap (fun n => Nat.toDigits 10 n ++ [',']) ++ ['1']

/-- The bytes of an ASCII text. -/
def ascii (s : List Char) : Bytes := s.map fun c => UInt8.ofNat c.toNat

/-- `x * 10 + ch - '0'` -/
def shiftDigit (int : Ints) (x : Int) (ch : UInt8) : Int :=
  int.result (int.result (int.result (x * 10) + ch.toInt8.toInt) - 48)

/-- The loop of the C++ sorter over the characters of `nc`, and the last `push_back`. The byte 255
is `EOF` as a `char`. -/
def parseLoop (int : Ints) : (x : Int) → Bytes → List Int
  | x, [] => [x]
  | x, ch :: rest =>
    if ch = 255 then [x]
    else if ch = 32 ∨ ch = 10 then x :: parseLoop int 0 rest
    else parseLoop int (shiftDigit int x ch) rest

def cppParse (int : Ints) (file : Bytes) : List Int := parseLoop int 0 file

/-- Both sorters read these numbers and the final 1. -/
structure ReadsData (int : Ints) (numbers : List Nat) : Prop where
  rust : parseContent (sortData numbers) = .ok ((numbers ++ [1]).map fun n => Fin.ofNat (2 ^ 32) n)
  cpp : cppParse int (ascii (sortData numbers)) = (numbers ++ [1]).map Int.ofNat

section Generator

theorem chunkText_eq (chunk : List Nat) (nonempty : chunk ≠ []) :
    chunkText chunk = chunk.flatMap fun n => Nat.toDigits 10 n ++ [','] := by
  induction chunk with
  | nil => exact absurd rfl nonempty
  | cons n chunk ih =>
    cases chunk with
    | nil => simp [chunkText, List.intercalate]
    | cons k chunk =>
      have rest := ih (by simp)
      rw [List.flatMap_cons, ← rest]
      simp [chunkText, List.intercalate]

/-- What the generator writes is in the format, with ten numbers from each round. -/
theorem genLoop_format (random : Nat → Nat) (oneSize round currentSize : Nat) :
    ∃ rounds, genLoop random oneSize round currentSize =
      sortData ((List.range rounds).flatMap fun i => drawn random (round + i)) := by
  fun_induction genLoop random oneSize round currentSize with
  | case1 round currentSize more text ih =>
    obtain ⟨rounds, rest⟩ := ih
    refine ⟨rounds + 1, ?_⟩
    have chunk : text = (drawn random round).flatMap fun n => Nat.toDigits 10 n ++ [','] :=
      chunkText_eq _ (by simp [drawn])
    have later (i : Nat) : round + 1 + i = round + i.succ := by omega
    simp only [rest, List.range_succ_eq_map, List.flatMap_cons, List.flatMap_map, Nat.add_zero,
      sortData, List.flatMap_append, ← chunk, List.append_assoc, later]
  | case2 => exact ⟨0, rfl⟩

theorem genParallelSort_format (random : Nat → Nat) (bounded : ∀ i, random i ≤ 1000000)
    (oneSize : Nat) :
    ∃ numbers, genParallelSort random oneSize = sortData numbers ∧ ∀ n ∈ numbers, n ≤ 1000000 := by
  obtain ⟨rounds, text⟩ := genLoop_format random oneSize 0 0
  refine ⟨_, text, fun n member => ?_⟩
  simp only [drawn, List.mem_flatMap, List.mem_map] at member
  obtain ⟨_, _, i, _, rfl⟩ := member
  exact bounded _

end Generator

section Rust

theorem split_sortData (numbers : List Nat) :
    Text.split ',' (sortData numbers) = numbers.map (Nat.toDigits 10) ++ [Nat.toDigits 10 1] := by
  induction numbers with
  | nil => decide
  | cons n numbers ih =>
    have clean : ',' ∉ Nat.toDigits 10 n :=
      fun member => absurd (Text.mem_toDigits_isDigit member) (by decide)
    rw [Text.split] at ih ⊢
    rw [sortData, List.flatMap_cons, List.append_assoc, List.append_assoc, List.singleton_append,
      List.splitOn_append_cons_self_of_not_mem clean, ← sortData, ih]
    rfl

theorem parsePieces_digits (numbers : List Nat) (small : ∀ n ∈ numbers, n < 2 ^ 32) :
    parsePieces (numbers.map (Nat.toDigits 10)) =
      .ok (numbers.map fun n => Fin.ofNat (2 ^ 32) n) := by
  induction numbers with
  | nil => rfl
  | cons n numbers ih =>
    have own := small n (by simp)
    have value : Fin.ofNat (2 ^ 32) n = ⟨n, own⟩ := Fin.ext (Nat.mod_eq_of_lt own)
    rw [List.map_cons, parsePieces]
    simp only [Text.trim_toDigits, Nat.toDigits_ne_nil, if_false, Text.parseU32_toDigits own,
      ih fun k member => small k (by simp [member])]
    simp only [Outcome.bind, List.map_cons, value]

theorem rust_reads (numbers : List Nat) (small : ∀ n ∈ numbers, n ≤ 1000000) :
    parseContent (sortData numbers) = .ok ((numbers ++ [1]).map fun n => Fin.ofNat (2 ^ 32) n) := by
  have pieces : numbers.map (Nat.toDigits 10) ++ [Nat.toDigits 10 1] =
      (numbers ++ [1]).map (Nat.toDigits 10) := by
    simp
  rw [parseContent, split_sortData, pieces]
  refine parsePieces_digits _ fun n member => ?_
  rcases List.mem_append.mp member with inside | one
  · have := small n inside
    omega
  · rw [List.mem_singleton.mp one]
    decide

end Rust

section Cpp

/-- Without a space or a newline there is one number. -/
theorem parseLoop_single (int : Ints) (file : Bytes) (joined : ∀ ch ∈ file, ch ≠ 32 ∧ ch ≠ 10)
    (x : Int) :
    (parseLoop int x file).length = 1 := by
  induction file generalizing x with
  | nil => rfl
  | cons ch rest ih =>
    obtain ⟨space, newline⟩ := joined ch (by simp)
    have single := ih fun c member => joined c (by simp [member])
    rw [parseLoop]
    split
    · rfl
    · rw [if_neg (not_or.mpr ⟨space, newline⟩)]
      exact single _

theorem sortData_joined (numbers : List Nat) :
    ∀ ch ∈ ascii (sortData numbers), ch ≠ 32 ∧ ch ≠ 10 := by
  intro ch member
  obtain ⟨c, inside, rfl⟩ := List.mem_map.mp member
  have kind : c.isDigit = true ∨ c = ',' := by
    rcases List.mem_append.mp inside with front | one
    · obtain ⟨n, _, inside⟩ := List.mem_flatMap.mp front
      rcases List.mem_append.mp inside with digit | comma
      · exact .inl (Text.mem_toDigits_isDigit digit)
      · exact .inr (List.mem_singleton.mp comma)
    · rw [List.mem_singleton.mp one]
      exact .inl (by decide)
  rcases kind with digit | rfl
  · obtain ⟨low, high⟩ := WasmWordCount.digit_range digit
    have small : c.toNat % 2 ^ 8 = c.toNat := Nat.mod_eq_of_lt (by omega)
    constructor <;>
    · intro same
      have value := congrArg UInt8.toNat same
      rw [UInt8.toNat_ofNat', small] at value
      simp at value
      omega
  · decide

end Cpp

/-- Both sorters read the file exactly when it has no number but the final 1. -/
theorem reads_data_iff (int : Ints) (numbers : List Nat) (small : ∀ n ∈ numbers, n ≤ 1000000) :
    ReadsData int numbers ↔ numbers = [] := by
  constructor
  · intro reads
    have single := parseLoop_single int _ (sortData_joined numbers) 0
    have length := congrArg List.length reads.cpp
    rw [cppParse, single, List.length_map, List.length_append, List.length_singleton] at length
    exact List.length_eq_zero_iff.mp (by omega)
  · rintro rfl
    refine ⟨rust_reads [] small, ?_⟩
    have one : shiftDigit int 0 49 = 1 := by
      have zero : int.result (0 * 10) = 0 := int.exact 0 (by decide)
      have code : int.result (0 + 49) = 49 := int.exact 49 (by decide)
      have digit : int.result (49 - 48) = 1 := int.exact 1 (by decide)
      have char : (49 : UInt8).toInt8.toInt = 49 := by decide
      rw [shiftDigit, zero, char, code, digit]
    change [shiftDigit int 0 49] = [1]
    rw [one]

theorem final_one_read : ReadsData wrapping [] := (reads_data_iff wrapping [] (by simp)).mpr rfl

/-- One round of the generator: the C++ sorter makes one number of the eleven. -/
theorem commas_not_read :
    ¬ ∀ int numbers, (∀ n ∈ numbers, n ≤ 1000000) → ReadsData int numbers := by
  intro all
  let random : Nat → Nat := fun i => [3, 1, 4, 1, 5, 9, 2, 6, 5, 3].getD (i % 10) 0
  have bounded (i : Nat) : random i ≤ 1000000 := by
    have digits : ∀ k < 10, [3, 1, 4, 1, 5, 9, 2, 6, 5, 3].getD k 0 ≤ 1000000 := by decide
    exact digits _ (Nat.mod_lt _ (by decide))
  obtain ⟨numbers, written, small⟩ := genParallelSort_format random bounded 1
  have some_number : numbers ≠ [] := by
    rintro rfl
    have three : (chunkText (drawn random 0)).head? = some '3' := by decide
    rw [genParallelSort, genLoop, if_pos (by decide)] at written
    have first := congrArg List.head? written
    rw [List.head?_append, three] at first
    simp [sortData] at first
  have cpp := (all wrapping numbers small).cpp
  have single := parseLoop_single wrapping _ (sortData_joined numbers) 0
  have length := congrArg List.length cpp
  rw [cppParse, single, List.length_map, List.length_append, List.length_singleton] at length
  exact some_number (List.length_eq_zero_iff.mp (by omega))

end AlloyStack.User.SortData
