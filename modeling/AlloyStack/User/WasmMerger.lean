import AlloyStack.User.NumberText
import AlloyStack.User.WasmHeap

/-! The merger of the C++ parallel sort. It fills a heap with the first number of each array, and
then writes the least number over and over and goes on to the next one of its array. -/
namespace AlloyStack.User.WasmSort
open BinaryHeap

/-- `for (int i = 0; i < sorter_num; i++)` over the arrays from `i` on, each with as many numbers as
`index[i]` says: the first number of each array that is not empty. -/
def fillLoop :
    (arrays : List (List Int)) → (i : Nat) → (minHeap : List HeapNode) → (heapSize : Nat) →
      Option (List HeapNode × Nat)
  | [], _, minHeap, heapSize => some (minHeap, heapSize)
  | [] :: arrays, i, minHeap, heapSize => fillLoop arrays (i + 1) minHeap heapSize
  | (value :: _) :: arrays, i, minHeap, heapSize =>
    if heapSize < minHeap.length then
      fillLoop arrays (i + 1) (minHeap.set heapSize ⟨value, i, 0⟩) (heapSize + 1)
    else none

/-- The next number of the array takes the place of the smallest one, or else the last node does. -/
def replaceTop (arrays : List (List Int)) (minHeap : List HeapNode) (heapSize : Nat)
    (minNode : HeapNode) :
    Option (List HeapNode × Nat) :=
  (arrays[minNode.arrayIndex]?).bind fun array =>
  if minNode.elementIndex + 1 < array.length then
    (array[minNode.elementIndex + 1]?).bind fun value =>
    some (minHeap.set 0 ⟨value, minNode.arrayIndex, minNode.elementIndex + 1⟩, heapSize)
  else (minHeap[heapSize - 1]?).bind fun last => some (minHeap.set 0 last, heapSize - 1)

/-- `while (heapSize > 0)`; `none` is an access outside the heap, the arrays or the result. -/
def mergeLoop (arrays : List (List Int)) (minHeap : List HeapNode) (heapSize : Nat)
    (result : List Int) : Option (List Int) :=
  if heapSize = 0 then some result
  else if _room : result.length < MAX_ARRAY_LENGTH then
    (minHeap[0]?).bind fun minNode =>
    (replaceTop arrays minHeap heapSize minNode).bind fun (heap, size) =>
    (heapifyDown heap size 0).bind fun sifted =>
      mergeLoop arrays sifted size (result ++ [minNode.value])
  else none
termination_by MAX_ARRAY_LENGTH - result.length
decreasing_by
  rw [List.length_append, List.length_singleton]
  omega

/-- The merge of the arrays; `minHeap` is the memory of `malloc`. -/
def merge (minHeap : List HeapNode) (arrays : List (List Int)) : Option (List Int) :=
  (fillLoop arrays 0 minHeap 0).bind fun (minHeap, heapSize) =>
  (buildHeap minHeap heapSize).bind fun minHeap => mergeLoop arrays minHeap heapSize []

/-- The numbers that a node stands for: its own and the rest of its array. -/
def remaining (arrays : List (List Int)) (node : HeapNode) : List Int :=
  ((arrays[node.arrayIndex]?).getD []).drop node.elementIndex

/-- The node has the number of its array that it points to. -/
def Located (arrays : List (List Int)) (node : HeapNode) : Prop :=
  ∃ array, arrays[node.arrayIndex]? = some array ∧ array[node.elementIndex]? = some node.value

/-- The nodes of the initial heap, for the arrays from `i` on. -/
def firstNodes : (arrays : List (List Int)) → (i : Nat) → List HeapNode
  | [], _ => []
  | [] :: arrays, i => firstNodes arrays (i + 1)
  | (value :: _) :: arrays, i => ⟨value, i, 0⟩ :: firstNodes arrays (i + 1)

section Filling
variable {arrays : List (List Int)} {minHeap : List HeapNode} {heapSize : Nat}

theorem fillLoop_some (i : Nat) (room : heapSize + arrays.length ≤ minHeap.length) :
    ∃ minHeap' heapSize', fillLoop arrays i minHeap heapSize = some (minHeap', heapSize') ∧
      minHeap'.take heapSize' = minHeap.take heapSize ++ firstNodes arrays i ∧
        heapSize' ≤ minHeap'.length := by
  induction arrays generalizing i minHeap heapSize with
  | nil => exact ⟨minHeap, heapSize, rfl, (List.append_nil _).symm, room⟩
  | cons array arrays ih =>
    rw [List.length_cons] at room
    cases array with
    | nil => exact ih (i + 1) (by omega)
    | cons value rest =>
      have free : heapSize < minHeap.length := by omega
      have grown : heapSize + 1 + arrays.length ≤ (minHeap.set heapSize ⟨value, i, 0⟩).length := by
        rw [List.length_set]
        omega
      obtain ⟨minHeap', heapSize', filled, nodes, inside⟩ := ih (i + 1) grown
      refine ⟨minHeap', heapSize', ?_, ?_, inside⟩
      · rw [fillLoop, if_pos free]
        exact filled
      · rw [nodes, List.take_add_one, List.getElem?_set_self free, List.take_set_of_le (le_refl _),
          firstNodes]
        simp

/-- Each node of the initial heap has the first number of its array. -/
theorem firstNodes_located (before arrays : List (List Int)) :
    ∀ node ∈ firstNodes arrays before.length, Located (before ++ arrays) node := by
  induction arrays generalizing before with
  | nil => simp [firstNodes]
  | cons array arrays ih =>
    have later := ih (before ++ [array])
    rw [List.length_append, List.length_singleton, List.append_assoc,
      List.singleton_append] at later
    cases array with
    | nil => exact later
    | cons value rest =>
      intro node member
      rcases List.mem_cons.mp member with rfl | member
      · exact ⟨value :: rest, by simp, rfl⟩
      · exact later node member

/-- The initial heap stands for all numbers. -/
theorem firstNodes_remaining (before arrays : List (List Int)) :
    (firstNodes arrays before.length).flatMap (remaining (before ++ arrays)) = arrays.flatten := by
  induction arrays generalizing before with
  | nil => rfl
  | cons array arrays ih =>
    have later := ih (before ++ [array])
    rw [List.length_append, List.length_singleton, List.append_assoc,
      List.singleton_append] at later
    cases array with
    | nil => exact later
    | cons value rest =>
      rw [firstNodes, List.flatMap_cons, later, List.flatten_cons]
      simp [remaining]

end Filling

/-- The numbers written so far are sorted and not above those to come, and the nodes stand for the
ones that are missing. -/
structure Pending (arrays : List (List Int)) (nodes : List HeapNode) (result : List Int) :
    Prop where
  located : ∀ node ∈ nodes, Located arrays node
  sorted : result.Pairwise (· ≤ ·)
  below : ∀ num ∈ result, ∀ node ∈ nodes, num ≤ node.value
  numbers : (result ++ nodes.flatMap (remaining arrays)).Perm arrays.flatten

section Nodes
variable {arrays : List (List Int)} {array result : List Int} {nodes nodes' : List HeapNode}
  {top : HeapNode} {value : Int}

theorem remaining_located (array_at : arrays[top.arrayIndex]? = some array)
    (value_at : array[top.elementIndex]? = some top.value) :
    remaining arrays top = top.value :: array.drop (top.elementIndex + 1) := by
  obtain ⟨inside, value⟩ := List.getElem?_eq_some_iff.mp value_at
  rw [remaining, array_at, Option.getD_some, List.drop_eq_getElem_cons inside, value]

/-- Every node stands for at least one number. -/
theorem length_le_remaining (located : ∀ node ∈ nodes, Located arrays node) :
    nodes.length ≤ (nodes.flatMap (remaining arrays)).length := by
  induction nodes with
  | nil => exact le_refl _
  | cons node nodes ih =>
    obtain ⟨array, array_at, value_at⟩ := located node List.mem_cons_self
    have rest := ih fun other member => located other (List.mem_cons_of_mem _ member)
    rw [List.flatMap_cons, remaining_located array_at value_at, List.length_append,
      List.length_cons, List.length_cons]
    omega

theorem Pending.length_le (pending : Pending arrays nodes result) :
    result.length + nodes.length ≤ arrays.flatten.length := by
  have all := pending.numbers.length_eq
  have least := length_le_remaining pending.located
  rw [List.length_append] at all
  omega

theorem Pending.perm (pending : Pending arrays nodes result) (same : nodes'.Perm nodes) :
    Pending arrays nodes' result where
  located node member := pending.located node (same.mem_iff.mp member)
  sorted := pending.sorted
  below num written node member := pending.below num written node (same.mem_iff.mp member)
  numbers := ((same.flatMap_right _).append_left _).trans pending.numbers

/-- A least number is written after the others. -/
theorem Pending.sorted_append (pending : Pending arrays (top :: nodes) result) :
    (result ++ [top.value]).Pairwise (· ≤ ·) := by
  refine List.pairwise_append.mpr ⟨pending.sorted, List.pairwise_singleton _ _, ?_⟩
  intro num written other last
  obtain rfl := List.mem_singleton.mp last
  exact pending.below num written top List.mem_cons_self

/-- The array of the least node is used up. -/
theorem Pending.remove (pending : Pending arrays (top :: nodes) result)
    (least : ∀ node ∈ nodes, top.value ≤ node.value)
    (array_at : arrays[top.arrayIndex]? = some array)
    (value_at : array[top.elementIndex]? = some top.value)
    (used_up : array.length ≤ top.elementIndex + 1) :
    Pending arrays nodes (result ++ [top.value]) where
  located node member := pending.located node (List.mem_cons_of_mem _ member)
  sorted := pending.sorted_append
  below num written node member := by
    rcases List.mem_append.mp written with earlier | last
    · exact pending.below num earlier node (List.mem_cons_of_mem _ member)
    · obtain rfl := List.mem_singleton.mp last
      exact least node member
  numbers := by
    have numbers := pending.numbers
    rw [List.flatMap_cons, remaining_located array_at value_at,
      List.drop_eq_nil_of_le used_up] at numbers
    simpa using numbers

/-- The least node goes on to the next number of its array. -/
theorem Pending.replace (pending : Pending arrays (top :: nodes) result)
    (least : ∀ node ∈ nodes, top.value ≤ node.value)
    (array_at : arrays[top.arrayIndex]? = some array)
    (value_at : array[top.elementIndex]? = some top.value)
    (next : array[top.elementIndex + 1]? = some value) (rises : top.value ≤ value) :
    Pending arrays (⟨value, top.arrayIndex, top.elementIndex + 1⟩ :: nodes)
      (result ++ [top.value]) where
  located node member := by
    rcases List.mem_cons.mp member with rfl | member
    · exact ⟨array, array_at, next⟩
    · exact pending.located node (List.mem_cons_of_mem _ member)
  sorted := pending.sorted_append
  below num written node member := by
    have le_top : num ≤ top.value := by
      rcases List.mem_append.mp written with earlier | last
      · exact pending.below num earlier top List.mem_cons_self
      · exact (List.mem_singleton.mp last).le
    rcases List.mem_cons.mp member with rfl | member
    · exact le_top.trans rises
    · exact le_top.trans (least node member)
  numbers := by
    have numbers := pending.numbers
    rw [List.flatMap_cons, remaining_located array_at value_at] at numbers
    rw [List.flatMap_cons, remaining, array_at, Option.getD_some]
    simpa using numbers

/-- There are no more nodes than numbers, so that the positions of the heap fit an `int`. -/
theorem Pending.small {minHeap : List HeapNode} {size : Nat}
    (pending : Pending arrays (minHeap.take size) result) (inside : size ≤ minHeap.length)
    (room : arrays.flatten.length ≤ MAX_ARRAY_LENGTH) : 2 * size + 2 < 2 ^ 31 := by
  have few := pending.length_le
  rw [List.length_take, Nat.min_eq_left inside] at few
  unfold MAX_ARRAY_LENGTH at room
  omega

end Nodes

/-- The state of the merge: a heap of the nodes. -/
structure Merging (arrays : List (List Int)) (minHeap : List HeapNode) (heapSize : Nat)
    (result : List Int) : Prop where
  inside : heapSize ≤ minHeap.length
  ordered : Ordered (keyOf minHeap) heapSize 0
  pending : Pending arrays (minHeap.take heapSize) result

section Draining
variable {arrays : List (List Int)} {result : List Int} {minHeap tail : List HeapNode}
  {heapSize : Nat} {top : HeapNode}

theorem Merging.least (merging : Merging arrays (top :: tail) (heapSize + 1) result) :
    ∀ node ∈ tail.take heapSize, top.value ≤ node.value := by
  intro node member
  obtain ⟨i, inside, rfl⟩ := List.mem_take_iff_getElem.mp member
  have located : (top :: tail)[i + 1]? = some tail[i] := by
    rw [List.getElem?_cons_succ]
    exact List.getElem?_eq_getElem _
  have first : (top :: tail)[0]? = some top := rfl
  rw [← keyOf_node first, ← keyOf_node located]
  apply merging.ordered.root_le
  omega

/-- The last node moves to the root. -/
theorem take_last {last : HeapNode} (located : (top :: tail)[heapSize]? = some last) :
    ((last :: tail).take heapSize).Perm (tail.take heapSize) := by
  cases heapSize with
  | zero => exact List.Perm.refl _
  | succ n =>
    rw [List.getElem?_cons_succ] at located
    rw [List.take_succ_cons, List.take_add_one, located]
    exact (List.perm_append_singleton _ _).symm

/-- One round up to the sifting: only the root may be out of order. -/
theorem Merging.replaceTop (merging : Merging arrays (top :: tail) (heapSize + 1) result)
    (sorted : ∀ array ∈ arrays, array.Pairwise (· ≤ ·)) :
    ∃ minHeap size, replaceTop arrays (top :: tail) (heapSize + 1) top = some (minHeap, size) ∧
      size ≤ minHeap.length ∧
      Sinking (keyOf minHeap) size 0 0 ∧
        Pending arrays (minHeap.take size) (result ++ [top.value]) := by
  have inside : heapSize ≤ tail.length := Nat.le_of_succ_le_succ merging.inside
  obtain ⟨array, array_at, value_at⟩ := merging.pending.located top List.mem_cons_self
  rw [WasmSort.replaceTop, array_at, Option.bind_some]
  have others : ∀ node i, 0 < i → keyOf (node :: tail) i = keyOf (top :: tail) i := by
    intro node i positive
    obtain ⟨j, rfl⟩ := Nat.exists_eq_add_of_lt positive
    rfl
  by_cases more : top.elementIndex + 1 < array.length
  · have next : array[top.elementIndex + 1]? = some array[top.elementIndex + 1] :=
      List.getElem?_eq_getElem more
    have rises : top.value ≤ array[top.elementIndex + 1] := by
      obtain ⟨before, value⟩ := List.getElem?_eq_some_iff.mp value_at
      rw [← value]
      exact List.pairwise_iff_getElem.mp
        (sorted array (List.mem_of_getElem? array_at)) _ _ before more (Nat.lt_succ_self _)
    rw [if_pos more, next, Option.bind_some]
    refine ⟨_, _, rfl, merging.inside, ?_, ?_⟩
    · exact merging.ordered.replace_root fun i positive _ => others _ i positive
    · exact merging.pending.replace merging.least array_at value_at next rises
  · obtain ⟨last, last_at⟩ : ∃ last, (top :: tail)[heapSize]? = some last :=
      ⟨_, List.getElem?_eq_getElem merging.inside⟩
    rw [if_neg more, Nat.add_sub_cancel, last_at, Option.bind_some]
    refine ⟨_, _, rfl, inside.trans (by simp), ?_, ?_⟩
    · apply (merging.ordered.shrink (Nat.le_succ _)).replace_root
      intro i positive _
      exact others _ i positive
    · exact (merging.pending.remove merging.least array_at value_at (not_lt.mp more)).perm
        (take_last last_at)

/-- The loop ends with all numbers sorted. -/
theorem mergeLoop_sorts (merging : Merging arrays minHeap heapSize result)
    (sorted : ∀ array ∈ arrays, array.Pairwise (· ≤ ·))
    (room : arrays.flatten.length ≤ MAX_ARRAY_LENGTH) :
    ∃ merged, mergeLoop arrays minHeap heapSize result = some merged ∧ merged.Pairwise (· ≤ ·) ∧
      merged.Perm arrays.flatten := by
  induction left : arrays.flatten.length - result.length using Nat.strongRecOn generalizing minHeap
    heapSize result with
  | ind left ih =>
    cases heapSize with
    | zero =>
      rw [mergeLoop, if_pos rfl]
      exact ⟨result, rfl, merging.pending.sorted, by simpa using merging.pending.numbers⟩
    | succ n =>
      cases minHeap with
      | nil => exact absurd merging.inside (Nat.not_succ_le_zero n)
      | cons top tail =>
        have written : result.length < arrays.flatten.length := by
          have := merging.pending.length_le
          rw [List.take_succ_cons, List.length_cons] at this
          omega
        obtain ⟨replaced, size, round, inside, sinking, pending⟩ := merging.replaceTop sorted
        obtain ⟨sifted, sunk, sifts⟩ :=
          heapifyDown_sifts inside (pending.small inside room) (Nat.zero_le _) (le_refl 0) sinking
        rw [mergeLoop, if_neg (Nat.succ_ne_zero n), dif_pos (written.trans_le room),
          List.getElem?_cons_zero, Option.bind_some, round, Option.bind_some]
        dsimp only
        rw [sunk, Option.bind_some]
        refine ih _ ?_ ⟨inside.trans sifts.memory.ge, sifts.ordered, pending.perm sifts.nodes⟩ rfl
        rw [List.length_append, List.length_singleton]
        omega

/-- The heap starts with all numbers to come. -/
theorem firstNodes_pending (arrays : List (List Int)) :
    Pending arrays (firstNodes arrays 0) [] where
  located := firstNodes_located [] arrays
  sorted := List.Pairwise.nil
  below num written := absurd written List.not_mem_nil
  numbers := by
    have all := firstNodes_remaining [] arrays
    rw [List.length_nil, List.nil_append] at all
    rw [List.nil_append, all]

/-- The merge ends, stays inside the heap, the arrays and the result, and sorts all numbers,
whatever the memory of the heap holds at first. -/
theorem merge_sorts (minHeap : List HeapNode) (arrays : List (List Int))
    (memory : minHeap.length = arrays.length) (sorted : ∀ array ∈ arrays, array.Pairwise (· ≤ ·))
    (room : arrays.flatten.length ≤ MAX_ARRAY_LENGTH) :
    ∃ result, merge minHeap arrays = some result ∧ result.Pairwise (· ≤ ·) ∧
      result.Perm arrays.flatten := by
  obtain ⟨filled, heapSize, fills, nodes, inside⟩ :=
    fillLoop_some 0 (by omega : 0 + arrays.length ≤ minHeap.length)
  rw [List.take_zero, List.nil_append] at nodes
  have pending : Pending arrays (filled.take heapSize) [] := nodes ▸ firstNodes_pending arrays
  obtain ⟨built, builds, sifts⟩ := buildHeap_sifts inside (pending.small inside room)
  rw [merge, fills, Option.bind_some]
  dsimp only
  rw [builds, Option.bind_some]
  exact mergeLoop_sorts
    ⟨inside.trans sifts.memory.ge, sifts.ordered, pending.perm sifts.nodes⟩ sorted room

end Draining

/-- Three arrays, one of them empty, with the heap in memory of other nodes. -/
theorem threeArrays_merged :
    ∃ result, merge [⟨9, 7, 5⟩, ⟨0, 0, 0⟩, ⟨-1, 2, 3⟩] [[1, 4, 4], [], [-3, 4]] = some result ∧
    result.Pairwise (· ≤ ·) ∧ result.Perm [1, 4, 4, -3, 4] :=
  merge_sorts _ _ rfl (by decide) (by decide)

end AlloyStack.User.WasmSort
