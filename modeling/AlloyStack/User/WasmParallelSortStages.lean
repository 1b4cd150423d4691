import AlloyStack.User.WasmParallelSort

/-! What each group of functions of the C++ parallel sort leaves in the slots, in whatever order its
functions run. -/
namespace AlloyStack.User.WasmSort
open Rust C
open WasmWordCount (Bytes)
open ParallelSort (Orders)

section Stages
variable (int : Ints) (mergerNum : Nat) (parts : List (List Int)) (ps : List Int)

/-- The numbers of one part that are for one merger. -/
def piece (part : List Int) (j : Nat) : List Int := Buckets.bucket (rowOf · ps) (sort part) j

/-- What merger `j` merges. -/
def column (j : Nat) : List (List Int) := parts.map fun part => piece ps part j

/-- The sorters that ran have left their parts, and the first one the pivots. -/
structure SortersRan (done : List Nat) (s : Slots Bytes) : Prop where
  sorted : ∀ i part, parts[i]? = some part → i ∈ done →
    Holds int MAX_ARRAY_LENGTH s (.sorter i) (sort part)
  cuts : 1 < mergerNum → 0 ∈ done → ∀ i < parts.length, Holds int 10 s (.pivot i) ps

/-- The splitters that ran have left their pieces, and the others still have their parts and
pivots. -/
structure SplittersRan (done : List Nat) (s : Slots Bytes) : Prop where
  sorted : ∀ i part, parts[i]? = some part → i ∉ done →
    Holds int MAX_ARRAY_LENGTH s (.sorter i) (sort part)
  cuts : 1 < mergerNum → ∀ i < parts.length, i ∉ done → Holds int 10 s (.pivot i) ps
  pieces : ∀ i part, parts[i]? = some part → i ∈ done → ∀ j < mergerNum,
    Holds int MAX_ARRAY_LENGTH s (.merger i j) (piece ps part j)

structure MergersRan (done : List Nat) (s : Slots Bytes) : Prop where
  pieces : ∀ i part, parts[i]? = some part → ∀ j < mergerNum, j ∉ done →
    Holds int MAX_ARRAY_LENGTH s (.merger i j) (piece ps part j)
  merged : ∀ j ∈ done, ∃ result, Holds int MAX_ARRAY_LENGTH s (.checker j) result ∧
    result.Pairwise (· ≤ ·) ∧ result.Perm (column parts ps j).flatten

variable {int mergerNum parts ps} {done : List Nat} {s : Slots Bytes} {part : List Int} {id : Nat}

theorem sort_perm (array : List Int) : (sort array).Perm array := List.perm_insertionSort _ array

theorem sort_sorted (array : List Int) : (sort array).Pairwise (· ≤ ·) :=
  List.pairwise_insertionSort _ array

theorem SortersRan.finish (ran : SortersRan int mergerNum parts ps done s)
    (all : ∀ i < parts.length, i ∈ done) :
    SplittersRan int mergerNum parts ps [] s where
  sorted i part located _ :=
    ran.sorted i part located (all i (List.getElem?_eq_some_iff.mp located).1)
  cuts several i bound _ := ran.cuts several (all 0 (by omega)) i bound
  pieces := by simp

theorem SplittersRan.finish (ran : SplittersRan int mergerNum parts ps done s)
    (all : ∀ i < parts.length, i ∈ done) :
    MergersRan int mergerNum parts ps [] s where
  pieces i part located j bound _ :=
    ran.pieces i part located (all i (List.getElem?_eq_some_iff.mp located).1) j bound
  merged := by simp

/-- What the sorters are started with, and the pivots of the first one. -/
structure Setup (int : Ints) (memory : String → Bytes) (files : List Bytes) (mergerNum : Nat)
    (ps : List Int) : Prop where
  size : ∀ name, (memory name).length = MAX_BUFFER_SIZE
  some_merger : 1 ≤ mergerNum
  few : mergerNum ≤ 11
  sendable : Sendable (files.flatMap (SortData.cppParse int))
  chosen : 1 < mergerNum → ∀ file, files[0]? = some file →
    pivotsOf int mergerNum (sort (SortData.cppParse int file)) = some ps
  pivots : Sendable ps
  count : ps.length = mergerNum - 1

variable {memory freed : String → Bytes} {files : List Bytes} {nodes : Nat → List HeapNode}

theorem parseLoop_ne_nil (int : Ints) (x : Int) (file : Bytes) :
    SortData.parseLoop int x file ≠ [] := by
  induction file generalizing x with
  | nil => simp [SortData.parseLoop]
  | cons ch rest ih =>
    rw [SortData.parseLoop]
    split
    · simp
    · split
      · simp
      · exact ih _

/-- Every file has a number, so the names of the slots are short. -/
theorem files_few (sendable : Sendable (files.flatMap (SortData.cppParse int))) :
    files.length ≤ MAX_ARRAY_LENGTH := by
  refine le_trans ?_ sendable.count
  clear sendable
  induction files with
  | nil => exact Nat.le_refl _
  | cons file files ih =>
    have positive := List.length_pos_iff.mpr (parseLoop_ne_nil int 0 file)
    rw [List.flatMap_cons, List.length_append, List.length_cons, SortData.cppParse]
    omega

theorem Setup.short (setup : Setup int memory files mergerNum ps) (bound : id < files.length) :
    id < 10 ^ 7 := by
  have few := files_few setup.sendable
  unfold MAX_ARRAY_LENGTH at few
  omega

theorem Setup.sendable_sort (setup : Setup int memory files mergerNum ps) {file : Bytes}
    (located : files[id]? = some file) : Sendable (sort (SortData.cppParse int file)) := by
  refine setup.sendable.subperm ((sort_perm _).subperm.trans ?_)
  obtain ⟨before, after, rfl⟩ := List.append_of_mem (List.mem_of_getElem? located)
  rw [List.flatMap_append, List.flatMap_cons]
  exact ((List.sublist_append_left _ _).trans (List.sublist_append_right _ _)).subperm

/-- The first sorter leaves its pivots for all splitters, if there are several mergers. -/
theorem Setup.pivots_registered (setup : Setup int memory files mergerNum ps) {file : Bytes}
    (located : files[0]? = some file) (several : 1 < mergerNum) :
    ∃ t, ((Outcome.orPanic (pivotsOf int mergerNum (sort (SortData.cppParse int file)))).bind
        fun pivots => registerPivots (pivotBuffer pivots) (List.range files.length) s) = .ok t ∧
      (∀ i < files.length, Holds int 10 t (.pivot i) ps) ∧
      ∀ slot : Slot, (∀ k, slot ≠ .pivot k) → t slot.text = s slot.text := by
  have count := setup.count
  have few := setup.few
  obtain ⟨buffer, made, length, decoded⟩ :=
    pivotBuffer_ok int setup.pivots (List.length_pos_iff.mp (by omega)) (by omega)
  obtain ⟨t, ran, stored, others⟩ := registerPivots_ok (s := s) buffer (List.range files.length)
    fun k member => setup.short (List.mem_range.mp member)
  refine ⟨t, ?_, ?_, others⟩
  · rw [setup.chosen several file located, Outcome.orPanic, Outcome.bind, made, ran]
  · intro i bound
    exact ⟨buffer, stored i (List.mem_range.mpr bound), length, decoded⟩

theorem SortersRan.add (ran : SortersRan int mergerNum parts ps done s)
    (located : parts[id]? = some part) (t : Slots Bytes)
    (own : Holds int MAX_ARRAY_LENGTH t (.sorter id) (sort part))
    (kept : ∀ i, i ≠ id → t (Slot.sorter i).text = s (Slot.sorter i).text)
    (cuts : 1 < mergerNum → 0 ∈ done ++ [id] → ∀ i < parts.length, Holds int 10 t (.pivot i) ps) :
    SortersRan int mergerNum parts ps (done ++ [id]) t where
  sorted i part' located' member := by
    by_cases last : i = id
    · subst last
      obtain rfl : part = part' := by simpa [located] using located'
      exact own
    · exact (ran.sorted i part' located' (by simpa [last] using member)).of_eq (kept i last)
  cuts := cuts

theorem SortersRan.step (setup : Setup int memory files mergerNum ps)
    (ran : SortersRan int mergerNum (files.map (SortData.cppParse int)) ps done s)
    (bound : id < files.length) :
    ∃ t, sorter int memory files files.length mergerNum id s = .ok t ∧
      SortersRan int mergerNum (files.map (SortData.cppParse int)) ps (done ++ [id]) t := by
  obtain ⟨file, located⟩ : ∃ file, files[id]? = some file := ⟨_, List.getElem?_eq_getElem bound⟩
  have entry : (files.map (SortData.cppParse int))[id]? = some (SortData.cppParse int file) := by
    rw [List.getElem?_map, located, Option.map_some]
  have small : (Slot.sorter id).Small := setup.short bound
  by_cases first : 1 < mergerNum ∧ id = 0
  · obtain ⟨several, rfl⟩ := first
    obtain ⟨u, cut, pivots, others⟩ := setup.pivots_registered (s := s) located several
    obtain ⟨t, registered, own, kept⟩ := bufferRegister_register (s := u) int
      (setup.sendable_sort located) (setup.size (Slot.sorter 0).text) small
    refine ⟨t, ?_, ran.add entry t own ?_ ?_⟩
    · simp only [sorter, located, several, and_self, if_true, cut]
      exact registered
    · intro i other
      rw [kept _ (by simpa using other), others _ (by simp)]
    · intro _ _ i inside
      exact (pivots i (by simpa using inside)).of_eq (kept _ (by simp))
  · obtain ⟨t, registered, own, kept⟩ := bufferRegister_register (s := s) int
      (setup.sendable_sort located) (setup.size (Slot.sorter id).text) small
    refine ⟨t, ?_, ran.add entry t own (fun i other => kept _ (by simpa using other)) ?_⟩
    · simp only [sorter, located, first, if_false, Outcome.bind, registered]
    · intro several member i inside
      have before : 0 ∈ done := by
        have other : 0 ≠ id := fun same => first ⟨several, same.symm⟩
        simpa [other] using member
      exact (ran.cuts several before i inside).of_eq (kept _ (by simp))

/-- The rows are the buckets of the array. -/
theorem splitRows_eq {numbers : List Int} (enough : ps.length < mergerNum)
    (room : numbers.length ≤ MAX_ARRAY_LENGTH) :
    splitRows mergerNum numbers ps =
      some ((List.range mergerNum).map (Buckets.bucket (rowOf · ps) numbers)) := by
  obtain ⟨rows, built⟩ : ∃ rows,
      splitLoop ps numbers (List.replicate mergerNum []) = some rows := by
    refine splitLoop_some (by simpa using enough) fun row member => ?_
    obtain rfl := List.eq_of_mem_replicate member
    simpa using room
  rw [splitRows, built]
  refine congrArg some (List.ext_getElem? fun j => ?_)
  rw [splitLoop_rows built, List.getElem?_replicate, List.getElem?_map]
  by_cases inside : j < mergerNum
  · rw [if_pos inside, List.getElem?_range inside]
    rfl
  · rw [if_neg inside, List.getElem?_eq_none (by simpa using inside)]
    rfl

theorem SplittersRan.readPivots (freed : String → Bytes)
    (setup : Setup int memory files mergerNum ps) (ran : SplittersRan int mergerNum parts ps done s)
    (sizes : files.length = parts.length)
    (bound : id < files.length) (new : id ∉ done) :
    ∃ t, readPivots int freed mergerNum id s = .ok (ps, t) ∧
      ∀ slot : Slot, slot ≠ .pivot id → t slot.text = s slot.text := by
  by_cases several : 1 < mergerNum
  · obtain ⟨buffer, accessed, decoded⟩ :=
      (ran.cuts several id (by omega) new).accessBuffer freed (setup.short bound)
    refine ⟨s.clear (Slot.pivot id).text, ?_, fun slot other => ?_⟩
    · simp only [WasmSort.readPivots, several, if_true, accessed, Outcome.bind, decoded,
        Outcome.orPanic]
    · rw [clear_text, if_neg other]
  · have none_chosen : ps = [] := by
      have count := setup.count
      exact List.eq_nil_of_length_eq_zero (by omega)
    refine ⟨s, ?_, fun _ _ => rfl⟩
    rw [WasmSort.readPivots, if_neg several, none_chosen]

theorem SplittersRan.step (setup : Setup int memory files mergerNum ps)
    (ran : SplittersRan int mergerNum (files.map (SortData.cppParse int)) ps done s)
    (bound : id < files.length) (new : id ∉ done) :
    ∃ t, splitter int memory freed mergerNum id s = .ok t ∧
      SplittersRan int mergerNum (files.map (SortData.cppParse int)) ps (done ++ [id]) t := by
  obtain ⟨file, located⟩ : ∃ file, files[id]? = some file := ⟨_, List.getElem?_eq_getElem bound⟩
  have entry : (files.map (SortData.cppParse int))[id]? = some (SortData.cppParse int file) := by
    rw [List.getElem?_map, located, Option.map_some]
  have small := setup.short bound
  have count := setup.count
  have some_merger := setup.some_merger
  have sendable := setup.sendable_sort located
  obtain ⟨u, cut, others⟩ := ran.readPivots freed setup (by simp) bound new
  have here := (ran.sorted id _ entry new).of_eq (others (.sorter id) (by simp))
  obtain ⟨buffer, accessed, decoded⟩ :=
    here.accessBuffer freed (show (Slot.sorter id).Small from small)
  obtain ⟨t, registered, own, kept⟩ := registerRows_ok int
    (s := u.clear (Slot.sorter id).text) setup.size small
    ((List.range mergerNum).map (piece ps (SortData.cppParse int file))) 0
    (by simpa using setup.few) (by
      intro row member
      obtain ⟨j, -, rfl⟩ := List.mem_map.mp member
      exact sendable.subperm (List.filter_sublist ..).subperm)
  have frame : ∀ slot : Slot, (∀ j, slot ≠ .merger id j) → slot ≠ .pivot id → slot ≠ .sorter id →
      t slot.text = s slot.text := by
    intro slot row pivot sorter
    rw [kept slot fun j _ => row j, clear_text, if_neg sorter, others slot pivot]
  refine ⟨t, ?_, ?_, ?_, ?_⟩
  · simp only [splitter, cut, Outcome.bind, accessed, decode, decoded, Outcome.orPanic,
      splitRows_eq (show ps.length < mergerNum by omega) sendable.count]
    exact registered
  · intro i part located' new'
    simp only [List.mem_append, List.mem_singleton, not_or] at new'
    exact (ran.sorted i part located' new'.1).of_eq
      (frame _ (by simp) (by simp) (by simpa using new'.2))
  · intro several i inside new'
    simp only [List.mem_append, List.mem_singleton, not_or] at new'
    exact (ran.cuts several i inside new'.1).of_eq
      (frame _ (by simp) (by simpa using new'.2) (by simp))
  · intro i part located' member j inside
    by_cases last : i = id
    · subst last
      obtain rfl : SortData.cppParse int file = part := by simpa [entry] using located'
      have row := own j (piece ps (SortData.cppParse int file) j) (by simp [inside])
      rwa [Nat.zero_add] at row
    · exact (ran.pieces i part located' (by simpa [last] using member) j inside).of_eq
        (frame _ (by simp [last]) (by simp) (by simp))

/-- The pieces for one merger are a bucket of all numbers. -/
theorem column_flatten (parts : List (List Int)) (ps : List Int) (j : Nat) :
    (column parts ps j).flatten = Buckets.bucket (rowOf · ps) (parts.map sort).flatten j := by
  rw [Buckets.bucket_flatten, List.map_map]
  rfl

theorem sorted_perm (parts : List (List Int)) : (parts.map sort).flatten.Perm parts.flatten := by
  have same : (parts.flatMap sort).Perm (parts.flatMap id) :=
    List.Perm.flatMap_left parts fun part _ => sort_perm part
  rwa [List.flatMap_def, List.flatMap_id] at same

theorem Setup.column_sendable (setup : Setup int memory files mergerNum ps) (j : Nat) :
    Sendable (column (files.map (SortData.cppParse int)) ps j).flatten := by
  have sendable := setup.sendable
  rw [List.flatMap_def] at sendable
  rw [column_flatten]
  exact sendable.subperm ((List.filter_sublist ..).subperm.trans (sorted_perm _).subperm)

theorem MergersRan.step (setup : Setup int memory files mergerNum ps)
    (heaps : ∀ id, (nodes id).length = files.length)
    (ran : MergersRan int mergerNum (files.map (SortData.cppParse int)) ps done s)
    (bound : id < mergerNum) (new : id ∉ done) :
    ∃ t, merger int freed nodes files.length id s = .ok t ∧
      MergersRan int mergerNum (files.map (SortData.cppParse int)) ps (done ++ [id]) t := by
  have few := setup.few
  have sendable := setup.column_sendable id
  obtain ⟨u, taken, others⟩ := readArrays_ok (s := s) int freed id (by omega)
    (fun i => piece ps ((files.map (SortData.cppParse int)).getD i []) id)
    (List.range files.length) List.nodup_range
    (fun i member => setup.short (List.mem_range.mp member)) (by
      intro i member
      have inside := List.mem_range.mp member
      refine ran.pieces i _ ?_ id bound new
      simp [inside])
  have columns : (List.range files.length).map
      (fun i => piece ps ((files.map (SortData.cppParse int)).getD i []) id) =
        column (files.map (SortData.cppParse int)) ps id := by
    refine List.ext_getElem (by simp [column]) fun i inside _ => ?_
    have inside : i < files.length := by simpa using inside
    simp [column, inside]
  have sorted : ∀ array ∈ column (files.map (SortData.cppParse int)) ps id,
      array.Pairwise (· ≤ ·) := by
    intro array member
    obtain ⟨part, -, rfl⟩ := List.mem_map.mp member
    exact (sort_sorted part).sublist (List.filter_sublist ..)
  obtain ⟨result, merged, order, same⟩ :=
    merge_sorts (nodes id) _ (by simp [column, heaps]) sorted sendable.count
  have fits : (Slot.checker id).Small := show id < 10 ^ 2 by omega
  obtain ⟨t, registered, own, kept⟩ := bufferRegister_register (s := u) int
    (sendable.subperm same.subperm) List.length_replicate fits
  refine ⟨t, ?_, ?_, ?_⟩
  · simp only [merger, taken, Outcome.bind, columns, merged, Outcome.orPanic]
    exact registered
  · intro i part located j inside new'
    simp only [List.mem_append, List.mem_singleton, not_or] at new'
    refine (ran.pieces i part located j inside new'.1).of_eq ?_
    rw [kept _ (by simp), others _ (by simp [new'.2])]
  · intro j member
    by_cases last : j = id
    · subst last
      exact ⟨result, own, order, same⟩
    · obtain ⟨result', holds, rest⟩ := ran.merged j (by simpa [last] using member)
      refine ⟨result', holds.of_eq ?_, rest⟩
      rw [kept _ (by simpa using last), others _ (by simp)]

end Stages

end AlloyStack.User.WasmSort
