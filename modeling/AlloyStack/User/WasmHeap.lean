import AlloyStack.Library.BinaryHeap
import Mathlib.Data.Int.Order.Basic
import Mathlib.Data.Nat.ModEq

/-! The heap of the C++ merger: nodes with the next number of an array each, in the memory of
`malloc`. -/
namespace AlloyStack.User.WasmSort
open BinaryHeap

structure HeapNode where
  value : Int
  arrayIndex : Nat
  elementIndex : Nat
deriving DecidableEq, Repr

/-- One comparison of `heapifyDown`; `none` is an access outside the heap. -/
def smallerOf (minHeap : List HeapNode) (heapSize child smallest : Nat) : Option Nat :=
  if child < heapSize then
    (minHeap[child]?).bind fun node =>
    (minHeap[smallest]?).bind fun least =>
      some (if node.value < least.value then child else smallest)
  else some smallest

/-- The two comparisons. An `int` has to hold the number of the right child. -/
def smallestOf (minHeap : List HeapNode) (heapSize index : Nat) : Option Nat :=
  if 2 * index + 2 < 2 ^ 31 then
    (smallerOf minHeap heapSize (2 * index + 1) index).bind fun smallest =>
    smallerOf minHeap heapSize (2 * index + 2) smallest
  else none

theorem smallerOf_eq (compared : smallerOf minHeap heapSize child least = some smallest) :
    smallest = least ∨ smallest = child ∧ child < heapSize := by
  unfold smallerOf at compared
  split at compared
  next inside =>
    obtain ⟨node, _, rest⟩ := Option.bind_eq_some_iff.mp compared
    obtain ⟨other, _, chosen⟩ := Option.bind_eq_some_iff.mp rest
    split at chosen
    · exact .inr ⟨(Option.some.inj chosen).symm, inside⟩
    · exact .inl (Option.some.inj chosen).symm
  · exact .inl (Option.some.inj compared).symm

/-- The smallest one is the node itself or a child in the heap. -/
theorem smallestOf_eq {index : Nat} (compared : smallestOf minHeap heapSize index = some smallest) :
    smallest = index ∨ IsChild smallest index ∧ smallest < heapSize := by
  unfold smallestOf at compared
  split at compared
  · obtain ⟨least, left, right⟩ := Option.bind_eq_some_iff.mp compared
    rcases smallerOf_eq right with rfl | ⟨rfl, inside⟩
    · rcases smallerOf_eq left with rfl | ⟨rfl, inside⟩
      · exact .inl rfl
      · exact .inr ⟨.inl rfl, inside⟩
    · exact .inr ⟨.inr rfl, inside⟩
  · cases compared

/-- A node sinks until no child is smaller. -/
def heapifyDown (minHeap : List HeapNode) (heapSize index : Nat) : Option (List HeapNode) :=
  match _compared : smallestOf minHeap heapSize index with
  | none => none
  | some smallest =>
    if _changed : smallest ≠ index then
      (minHeap[index]?).bind fun temp =>
      (minHeap[smallest]?).bind fun child =>
      heapifyDown ((minHeap.set index child).set smallest temp) heapSize smallest
    else some minHeap
termination_by heapSize - index
decreasing_by
  rcases smallestOf_eq _compared with same | ⟨child, inside⟩
  · exact absurd same _changed
  · have := child.lt
    omega

/-- The nodes before `i`, from the last one to the first. -/
def buildLoop (heapSize : Nat) : (i : Nat) → (minHeap : List HeapNode) → Option (List HeapNode)
  | 0, minHeap => some minHeap
  | i + 1, minHeap => (heapifyDown minHeap heapSize i).bind (buildLoop heapSize i)

/-- `for (int i = (heapSize - 2) / 2; i >= 0; i--)`, where the division rounds towards zero. -/
def buildHeap (minHeap : List HeapNode) (heapSize : Nat) : Option (List HeapNode) :=
  buildLoop heapSize (((heapSize : Int) - 2).tdiv 2 + 1).toNat minHeap

/-- The key of a position, and some key for the ones outside the memory. -/
def keyOf (minHeap : List HeapNode) (i : Nat) : Int := ((minHeap[i]?).map HeapNode.value).getD 0

section Sifting
variable {minHeap minHeap' : List HeapNode} {heapSize start index child least i j : Nat}
  {node temp : HeapNode}

theorem keyOf_node (located : minHeap[i]? = some node) : keyOf minHeap i = node.value := by
  rw [keyOf, located]
  rfl

theorem keyOf_swap (first : minHeap[i]? = some temp) (second : minHeap[j]? = some node) :
    keyOf ((minHeap.set i node).set j temp) = keyOf minHeap ∘ Equiv.swap i j := by
  have inside_i := (List.getElem?_eq_some_iff.mp first).1
  have inside_j := (List.getElem?_eq_some_iff.mp second).1
  funext k
  rw [Function.comp_apply, Equiv.swap_apply_def]
  by_cases at_i : k = i
  · subst at_i
    rw [if_pos rfl, keyOf_node second]
    by_cases same : j = k
    · subst same
      obtain rfl := Option.some.inj (first.symm.trans second)
      apply keyOf_node
      simp [inside_i]
    · apply keyOf_node
      rw [List.getElem?_set_ne same, List.getElem?_set_self inside_i]
  by_cases at_j : k = j
  · subst at_j
    rw [if_neg at_i, if_pos rfl, keyOf_node first]
    apply keyOf_node
    rw [List.getElem?_set_self (by simpa using inside_j)]
  · rw [if_neg at_i, if_neg at_j, keyOf, List.getElem?_set_ne (Ne.symm at_j),
      List.getElem?_set_ne (Ne.symm at_i), keyOf]

/-- Two nodes of the heap change places. -/
theorem swap_perm (first : minHeap[i]? = some temp) (second : minHeap[j]? = some node)
    (lt_i : i < heapSize) (lt_j : j < heapSize) :
    (((minHeap.set i node).set j temp).take heapSize).Perm (minHeap.take heapSize) := by
  obtain ⟨inside_i, rfl⟩ := List.getElem?_eq_some_iff.mp first
  obtain ⟨inside_j, rfl⟩ := List.getElem?_eq_some_iff.mp second
  have live_i : i < (minHeap.take heapSize).length := by
    rw [List.length_take]
    omega
  have live_j : j < (minHeap.take heapSize).length := by
    rw [List.length_take]
    omega
  rw [List.take_set, List.take_set]
  simpa only [List.getElem_take] using List.set_set_perm live_i live_j

/-- A comparison stays inside the heap and yields the position with the smaller key. -/
theorem smallerOf_some (inside : heapSize ≤ minHeap.length) (before : least < child) :
    ∃ smallest, smallerOf minHeap heapSize child least = some smallest ∧
      (child < heapSize → keyOf minHeap smallest ≤ keyOf minHeap child) ∧
      (smallest = least ∨ keyOf minHeap smallest < keyOf minHeap least) := by
  by_cases live : child < heapSize
  · have child_some : minHeap[child]? = some minHeap[child] :=
      List.getElem?_eq_getElem (live.trans_le inside)
    have least_some : minHeap[least]? = some minHeap[least] :=
      List.getElem?_eq_getElem (before.trans (live.trans_le inside))
    rw [smallerOf, if_pos live, child_some, Option.bind_some, least_some, Option.bind_some]
    split
    next smaller =>
      rw [← keyOf_node child_some, ← keyOf_node least_some] at smaller
      exact ⟨child, rfl, fun _ => le_refl _, .inr smaller⟩
    next smaller =>
      rw [← keyOf_node child_some, ← keyOf_node least_some] at smaller
      exact ⟨least, rfl, fun _ => not_lt.mp smaller, .inl rfl⟩
  · rw [smallerOf, if_neg live]
    exact ⟨least, rfl, fun lt => absurd lt live, .inl rfl⟩

/-- No child in the heap has a smaller key than the smallest one of the three. -/
theorem smallestOf_some (inside : heapSize ≤ minHeap.length) (small : 2 * index + 2 < 2 ^ 31) :
    ∃ smallest, smallestOf minHeap heapSize index = some smallest ∧
      (∀ c, IsChild c index → c < heapSize → keyOf minHeap smallest ≤ keyOf minHeap c) ∧
      (smallest ≠ index → keyOf minHeap smallest < keyOf minHeap index) := by
  obtain ⟨least, left, below_left, below_index⟩ :=
    smallerOf_some inside (by omega : index < 2 * index + 1)
  have before : least < 2 * index + 2 := by
    rcases smallerOf_eq left with rfl | ⟨rfl, _⟩ <;> omega
  obtain ⟨smallest, right, below_right, below_least⟩ := smallerOf_some inside before
  have le_least : keyOf minHeap smallest ≤ keyOf minHeap least := by
    rcases below_least with rfl | lt
    · exact le_refl _
    · exact lt.le
  refine ⟨smallest, ?_, ?_, ?_⟩
  · rw [smallestOf, if_pos small, left, Option.bind_some, right]
  · rintro c (rfl | rfl) live
    · exact le_least.trans (below_left live)
    · exact below_right live
  · intro changed
    rcases below_index with rfl | lt
    · exact below_least.resolve_left changed
    · exact le_least.trans_lt lt

/-- What sifting leaves: the same nodes in the heap, in order from a position on. -/
structure Sifted (minHeap minHeap' : List HeapNode) (heapSize start : Nat) : Prop where
  ordered : Ordered (keyOf minHeap') heapSize start
  nodes : (minHeap'.take heapSize).Perm (minHeap.take heapSize)
  memory : minHeap'.length = minHeap.length

theorem heapifyDown_sifts (inside : heapSize ≤ minHeap.length) (small : 2 * heapSize + 2 < 2 ^ 31)
    (bound : index ≤ heapSize) (started : start ≤ index)
    (sinking : Sinking (keyOf minHeap) heapSize start index) :
    ∃ minHeap', heapifyDown minHeap heapSize index = some minHeap' ∧
      Sifted minHeap minHeap' heapSize start := by
  induction remaining : heapSize - index using Nat.strongRecOn generalizing minHeap index with
  | ind remaining ih =>
    obtain ⟨smallest, compared, below, changes⟩ :=
      smallestOf_some inside (by omega : 2 * index + 2 < 2 ^ 31)
    rw [heapifyDown]
    split
    next failed => cases compared.symm.trans failed
    next smallest' compared' =>
      obtain rfl := Option.some.inj (compared.symm.trans compared')
      rcases smallestOf_eq compared with rfl | ⟨child, live⟩
      · rw [dif_neg (by simp)]
        exact ⟨minHeap, rfl, sinking.ordered below, List.Perm.refl _, rfl⟩
      · have deeper := child.lt
        have first : minHeap[index]? = some minHeap[index] := List.getElem?_eq_getElem (by omega)
        have second : minHeap[smallest]? = some minHeap[smallest] :=
          List.getElem?_eq_getElem (by omega)
        rw [dif_pos deeper.ne', first, Option.bind_some, second, Option.bind_some]
        have swapped := sinking.swap started child live (changes deeper.ne') below
        rw [← keyOf_swap first second] at swapped
        obtain ⟨minHeap', result, sifted⟩ :=
          ih (heapSize - smallest) (by omega) (by simpa using inside) live.le
          (started.trans deeper.le) swapped rfl
        refine ⟨minHeap', result, sifted.ordered, ?_, ?_⟩
        · exact sifted.nodes.trans (swap_perm first second (deeper.trans live) live)
        · simpa using sifted.memory

theorem buildLoop_sifts (inside : heapSize ≤ minHeap.length) (small : 2 * heapSize + 2 < 2 ^ 31)
    (bound : i ≤ heapSize) (ordered : Ordered (keyOf minHeap) heapSize i) :
    ∃ minHeap', buildLoop heapSize i minHeap = some minHeap' ∧
      Sifted minHeap minHeap' heapSize 0 := by
  induction i generalizing minHeap with
  | zero => exact ⟨minHeap, rfl, ordered, List.Perm.refl _, rfl⟩
  | succ i ih =>
    obtain ⟨middle, sunk, first⟩ :=
      heapifyDown_sifts inside small (Nat.le_of_succ_le bound) (le_refl i) ordered.sinking
    obtain ⟨minHeap', built, rest⟩ :=
      ih (inside.trans first.memory.ge) (Nat.le_of_succ_le bound) first.ordered
    rw [buildLoop, sunk, Option.bind_some]
    exact ⟨minHeap', built, rest.ordered, rest.nodes.trans first.nodes,
      rest.memory.trans first.memory⟩

/-- The whole heap is in order after the initial loop, which starts at the last node with a
child. -/
theorem buildHeap_sifts (inside : heapSize ≤ minHeap.length) (small : 2 * heapSize + 2 < 2 ^ 31) :
    ∃ minHeap', buildHeap minHeap heapSize = some minHeap' ∧
      Sifted minHeap minHeap' heapSize 0 := by
  have rounds : (((heapSize : Int) - 2).tdiv 2 + 1).toNat ≤ heapSize ∧
      heapSize ≤ 2 * (((heapSize : Int) - 2).tdiv 2 + 1).toNat + 1 := by
    match heapSize with
    | 0 => decide
    | 1 => decide
    | n + 2 =>
      rw [Int.tdiv_eq_ediv_of_nonneg (by omega)]
      omega
  exact buildLoop_sifts inside small rounds.1 (ordered_leaves _ rounds.2)

end Sifting

end AlloyStack.User.WasmSort
