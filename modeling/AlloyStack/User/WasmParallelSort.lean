import Mathlib.Data.List.Flatten
import Mathlib.Data.List.Sort
import AlloyStack.Library.Buckets
import AlloyStack.Library.Sequence
import AlloyStack.User.ParallelSort
import AlloyStack.User.SortData
import AlloyStack.User.WasmMerger
import AlloyStack.User.WasmSplitter

/-! The C++ parallel sort from end to end. The sorters, splitters and mergers hand texts of numbers
on through named slots. Allocations succeed, with memory that holds anything. A sorter or splitter
does not free the texts that it has registered, and its memory stays when it returns. A merger frees
its text right after it has registered it; the slot has the text as it was registered. -/
namespace AlloyStack.User.WasmSort
open Rust C
open WasmWordCount (Bytes digits intText)
open ParallelSort (Orders)

inductive Slot where
  | pivot (k : Nat)
  | sorter (id : Nat)
  | merger (id i : Nat)
  | checker (id : Nat)
  deriving DecidableEq, Repr

def Slot.text : Slot → String
  | .pivot k => s!"pivot_{k}"
  | .sorter id => s!"sorter_{id}"
  | .merger id i => s!"merger_{id}_{i}"
  | .checker id => s!"checker_{id}"

/-- `sprintf` into `char slot_name[20]`; `none` is a write behind its end. -/
def Slot.sprintf (slot : Slot) : Option String :=
  if slot.text.toList.length + 1 ≤ 20 then some slot.text else none

/-- `access_buffer` of the host, for a buffer of `MAX_BUFFER_SIZE` bytes. For a missing slot it
registers a data buffer with the empty name, and reads the vector behind that one when this vector
has been freed. -/
def accessBuffer (freed : String → Bytes) (slot : Slot) (s : Slots Bytes) :
    Outcome (Bytes × Slots Bytes) :=
  (Outcome.orPanic slot.sprintf).bind fun name =>
  match s name with
  | none => .ok (freed name, s.put "" (freed name))
  | some buffer => if buffer.length = MAX_BUFFER_SIZE then .ok (buffer, s.clear name) else .panic

def bufferRegister (slot : Slot) (buffer : Option Bytes) (s : Slots Bytes) :
    Outcome (Slots Bytes) :=
  (Outcome.orPanic slot.sprintf).bind fun name =>
  (Outcome.orPanic buffer).bind fun buffer => .ok (s.put name buffer)

/-- `sort` of the standard library -/
def sort (array : List Int) : List Int := array.insertionSort (· ≤ ·)

section Programs
variable (int : Ints) (memory freed : String → Bytes) (nodes : Nat → List HeapNode)
  (files : List Bytes) (sorterNum mergerNum : Nat)

/-- `pivot[i]`; `none` is an index outside the array. -/
def pivotAt (array : List Int) (i : Nat) : Option Int :=
  let index := int.result array.length
  let idx := (int.result ((i + 1 : Nat) * index)).tdiv mergerNum
  if 0 ≤ idx then array[idx.toNat]? else none

def pivotsOf (array : List Int) : Option (List Int) :=
  (List.range (mergerNum - 1)).mapM (pivotAt int mergerNum array)

/-- The text of the pivots without the last space, in memory of zeros. -/
def pivotBuffer (pivots : List Int) : Option Bytes :=
  let text := encode pivots
  if text.length + 1 ≤ MAX_BUFFER_SIZE then
    some (text.dropLast ++ List.replicate (MAX_BUFFER_SIZE - text.dropLast.length) 0)
  else none

/-- `for (int k = 0; k < sorter_num; k++)` -/
def registerPivots (buffer : Option Bytes) : List Nat → Slots Bytes → Outcome (Slots Bytes)
  | [], s => .ok s
  | k :: ks, s => (bufferRegister (.pivot k) buffer s).bind (registerPivots buffer ks)

def sorter (id : Nat) (s : Slots Bytes) : Outcome (Slots Bytes) :=
  match files[id]? with
  | none => .err "Failed to open input file\n"
  | some file =>
    let arrays := sort (SortData.cppParse int file)
    (if 1 < mergerNum ∧ id = 0 then
      (Outcome.orPanic (pivotsOf int mergerNum arrays)).bind fun pivots =>
      registerPivots (pivotBuffer pivots) (List.range sorterNum) s
    else .ok s).bind fun s =>
    bufferRegister (.sorter id) (register (memory (Slot.sorter id).text) arrays) s

/-- `int pivot_array[10]` -/
def readPivots (id : Nat) (s : Slots Bytes) : Outcome (List Int × Slots Bytes) :=
  if 1 < mergerNum then
    (accessBuffer freed (.pivot id) s).bind fun (buffer, s) =>
    (Outcome.orPanic (decodeLoop int 10 buffer [])).bind fun pivots => .ok (pivots, s)
  else .ok ([], s)

/-- The rows from `i` on. -/
def registerRows (id : Nat) : Nat → List (List Int) → Slots Bytes → Outcome (Slots Bytes)
  | _, [], s => .ok s
  | i, row :: rows, s =>
    (bufferRegister (.merger id i) (register (memory (Slot.merger id i).text) row) s).bind
      (registerRows id (i + 1) rows)

def splitter (id : Nat) (s : Slots Bytes) : Outcome (Slots Bytes) :=
  (readPivots int freed mergerNum id s).bind fun (pivots, s) =>
  (accessBuffer freed (.sorter id) s).bind fun (buffer, s) =>
  (Outcome.orPanic (decode int buffer)).bind fun numbers =>
  (Outcome.orPanic (splitRows mergerNum numbers pivots)).bind fun rows =>
  registerRows memory id 0 rows s

def readArrays (id : Nat) : List Nat → Slots Bytes → Outcome (List (List Int) × Slots Bytes)
  | [], s => .ok ([], s)
  | i :: is, s =>
    (accessBuffer freed (.merger i id) s).bind fun (buffer, s) =>
    (Outcome.orPanic (decode int buffer)).bind fun array =>
    (readArrays id is s).bind fun (arrays, s) => .ok (array :: arrays, s)

def merger (id : Nat) (s : Slots Bytes) : Outcome (Slots Bytes) :=
  (readArrays int freed id (List.range sorterNum) s).bind fun (arrays, s) =>
  (Outcome.orPanic (merge (nodes id) arrays)).bind fun result =>
  -- `memset` clears the memory of this text
  bufferRegister (.checker id) (register (List.replicate MAX_BUFFER_SIZE 0) result) s

def workflow (o : Orders) : Outcome (Slots Bytes) :=
  (stage (sorter int memory files files.length mergerNum) o.sorters fun _ => none).bind fun s =>
  (stage (splitter int memory freed mergerNum) o.splitters s).bind fun s =>
  stage (merger int freed nodes files.length) o.mergers s

end Programs

section Names

theorem Slot.text_toList (slot : Slot) : slot.text.toList =
    match slot with
    | .pivot k => "pivot_".toList ++ Nat.toDigits 10 k
    | .sorter id => "sorter_".toList ++ Nat.toDigits 10 id
    | .merger id i => "merger_".toList ++ (Nat.toDigits 10 id ++ ("_".toList ++ Nat.toDigits 10 i))
    | .checker id => "checker_".toList ++ Nat.toDigits 10 id := by
  cases slot with
  | pivot k => exact Text.numbered_toList "pivot_" k
  | sorter id => exact Text.numbered_toList "sorter_" id
  | merger id i => exact Text.numbered_numbered_toList "merger_" "_" id i
  | checker id => exact Text.numbered_toList "checker_" id

theorem Slot.text_injective : Function.Injective Slot.text := by
  intro x y same
  replace same := congrArg String.toList same
  rw [Slot.text_toList, Slot.text_toList] at same
  cases x <;> cases y <;> simp only [String.reduceToList, List.cons_append, List.nil_append,
    List.cons.injEq, Char.reduceEq, false_and, and_false, true_and] at same
  · rw [Text.digits_injective same]
  · rw [Text.digits_injective same]
  · obtain ⟨rfl, rest⟩ := Text.digits_append_inj (by simp) (by simp) same
    simp only [List.cons.injEq, true_and] at rest
    rw [Text.digits_injective rest]
  · rw [Text.digits_injective same]

/-- The numbers of the functions that a slot is for. -/
def Slot.Small (slot : Slot) : Prop :=
  match slot with
  | .pivot k => k < 10 ^ 7
  | .sorter id => id < 10 ^ 7
  | .merger id i => id < 10 ^ 7 ∧ i < 10 ^ 2
  | .checker id => id < 10 ^ 2

theorem digits_length_le {n k : Nat} (small : n < 10 ^ k) (positive : 0 < k) :
    (Nat.toDigits 10 n).length ≤ k :=
  (Nat.length_toDigits_le_iff (by decide) positive).mpr small

theorem Slot.Small.sprintf {slot : Slot} (small : slot.Small) :
    slot.sprintf = some slot.text := by
  refine if_pos ?_
  rw [Slot.text_toList]
  cases slot with
  | pivot k =>
    have few := digits_length_le small (by decide)
    simp
    omega
  | sorter id =>
    have few := digits_length_le small (by decide)
    simp
    omega
  | merger id i =>
    have first := digits_length_le small.1 (by decide)
    have second := digits_length_le small.2 (by decide)
    simp
    omega
  | checker id =>
    have few := digits_length_le small (by decide)
    simp
    omega

variable (s : Slots Bytes) (x y : Slot)

@[simp] theorem put_text (buffer : Bytes) :
    s.put x.text buffer y.text = if y = x then some buffer else s y.text := by
  simp only [Slots.put, Function.update_apply, Slot.text_injective.eq_iff]

@[simp] theorem clear_text : s.clear x.text y.text = if y = x then none else s y.text := by
  simp only [Slots.clear, Function.update_apply, Slot.text_injective.eq_iff]

end Names

section Texts
variable {int : Ints} {all numbers : List Int}

/-- Numbers that a text carries from one function to the next. -/
structure Sendable (all : List Int) : Prop where
  ints : ∀ n ∈ all, IsInt n
  spaced : ∀ n ∈ all, -10 ^ 9 < n
  count : all.length ≤ MAX_ARRAY_LENGTH
  text : (encode all).length + 1 ≤ MAX_BUFFER_SIZE

theorem Sendable.subperm (sendable : Sendable all) (part : numbers.Subperm all) :
    Sendable numbers where
  ints n member := sendable.ints n (part.subset member)
  spaced n member := sendable.spaced n (part.subset member)
  count := part.length_le.trans sendable.count
  text := by
    obtain ⟨sorted, same, sublist⟩ := part
    have equal : (encode sorted).length = (encode numbers).length :=
      (same.flatMap_right snprintf).length_eq
    have shorter : (encode sorted).length ≤ (encode all).length :=
      (sublist.flatMap snprintf).length_le
    have whole := sendable.text
    omega

/-- The slot has a text with these numbers, for a reader with an array of this size. -/
def Holds (int : Ints) (capacity : Nat) (s : Slots Bytes) (slot : Slot) (numbers : List Int) :
    Prop :=
  ∃ buffer, s slot.text = some buffer ∧ buffer.length = MAX_BUFFER_SIZE ∧
    decodeLoop int capacity buffer [] = some numbers

theorem decodeLoop_numbers (sendable : Sendable numbers) (room : numbers.length ≤ capacity)
    (behind : Bytes) :
    decodeLoop int capacity (encode numbers ++ 0 :: behind) [] = some numbers := by
  rw [decodeLoop_encode sendable.ints
    (fun n member => sendable.spaced n (List.mem_of_mem_dropLast member)) (Nat.zero_le _),
    List.length_nil, Nat.zero_add, if_pos room, List.nil_append]

theorem register_ok (sendable : Sendable numbers) {memory : Bytes}
    (size : memory.length = MAX_BUFFER_SIZE) :
    ∃ buffer, register memory numbers = some buffer ∧ buffer.length = MAX_BUFFER_SIZE ∧
      decodeLoop int MAX_ARRAY_LENGTH buffer [] = some numbers := by
  have text := sendable.text
  refine ⟨_, if_pos text, ?_, ?_⟩
  · simp only [List.length_append, List.length_cons, List.length_drop, size]
    omega
  · exact decodeLoop_numbers sendable sendable.count _

theorem encode_dropLast (sendable : Sendable (numbers ++ [last])) :
    (encode (numbers ++ [last])).dropLast = encode numbers ++ intText last := by
  have spaced := sendable.spaced last (by simp)
  rw [encode, List.flatMap_append, List.flatMap_singleton,
    snprintf_eq (sendable.ints last (by simp)), if_pos spaced, ← List.append_assoc,
    List.dropLast_concat]
  rfl

/-- The last number is read up to the end of the text. -/
theorem decodeLoop_word_last {array : List Int} {last : Int}
    (sendable : Sendable (numbers ++ [last])) (room : array.length + numbers.length < capacity)
    (behind : Bytes) :
    decodeLoop int capacity (encode numbers ++ (intText last ++ 0 :: behind)) array =
      some (array ++ (numbers ++ [last])) := by
  induction numbers generalizing array with
  | nil =>
    have scanned : sscanf int (intText last ++ 0 :: behind) = some last :=
      sscanf_intText (sendable.ints last (by simp)) (by simp; decide)
    rw [encode, List.flatMap_nil, List.nil_append, decodeLoop_step scanned,
      if_pos (by simpa using room), (nextNumber_word (intText_solid last) behind).2,
      decodeLoop_stop (sscanf_end behind), List.nil_append]
  | cons n numbers ih =>
    rw [List.length_cons] at room
    have later : Sendable (numbers ++ [last]) :=
      sendable.subperm (List.sublist_cons_self n _).subperm
    have scanned (rest : Bytes) : sscanf int (intText n ++ 32 :: rest) = some n :=
      sscanf_intText (sendable.ints n (by simp)) (by simp; decide)
    rw [encode_cons n numbers (sendable.ints n (by simp)), if_pos (sendable.spaced n (by simp)),
      decodeLoop_step (scanned _), if_pos (by omega), (nextNumber_word (intText_solid n) _).1,
      ih later (by simp; omega)]
    simp

theorem pivotBuffer_ok (int : Ints) (sendable : Sendable numbers) (some_pivot : numbers ≠ [])
    (few : numbers.length ≤ 10) :
    ∃ buffer, pivotBuffer numbers = some buffer ∧ buffer.length = MAX_BUFFER_SIZE ∧
      decodeLoop int 10 buffer [] = some numbers := by
  have text := sendable.text
  refine ⟨_, if_pos text, ?_, ?_⟩
  · rw [List.length_append, List.length_replicate, List.length_dropLast]
    omega
  · obtain ⟨front, last, rfl⟩ := List.eq_nil_or_concat' numbers |>.resolve_left some_pivot
    obtain ⟨k, zeros⟩ : ∃ k, MAX_BUFFER_SIZE - (encode (front ++ [last])).dropLast.length = k + 1 :=
      Nat.exists_eq_add_one.mpr (by rw [List.length_dropLast]; omega)
    rw [List.length_append, List.length_singleton] at few
    rw [zeros, List.replicate_succ, encode_dropLast sendable, List.append_assoc,
      decodeLoop_word_last sendable (by rw [List.length_nil]; omega), List.nil_append]

end Texts

section Files
variable {int : Ints}

/-- A text of numbers, with a space or a newline between two of them and none behind the last. -/
inductive Lists : Bytes → List Nat → Prop where
  | last (n : Nat) : Lists (digits n) [n]
  | more (n : Nat) (separator : UInt8) : separator = 32 ∨ separator = 10 → Lists rest numbers →
      Lists (digits n ++ separator :: rest) (n :: numbers)

end Files

section Pivots
variable {int : Ints} {mergerNum : Nat} {array : List Int}

end Pivots

section Slots
variable {int : Ints} {capacity : Nat} {s t : Slots Bytes} {slot : Slot} {numbers : List Int}
  {memory freed : String → Bytes}

theorem Holds.of_eq (holds : Holds int capacity s slot numbers)
    (same : t slot.text = s slot.text) : Holds int capacity t slot numbers := by
  obtain ⟨buffer, stored, rest⟩ := holds
  exact ⟨buffer, same.trans stored, rest⟩

theorem bufferRegister_ok (small : slot.Small) (buffer : Bytes) :
    bufferRegister slot (some buffer) s = .ok (s.put slot.text buffer) := by
  rw [bufferRegister, small.sprintf]
  rfl

theorem Holds.accessBuffer (freed : String → Bytes) (holds : Holds int capacity s slot numbers)
    (small : slot.Small) :
    ∃ buffer, accessBuffer freed slot s = .ok (buffer, s.clear slot.text) ∧
      decodeLoop int capacity buffer [] = some numbers := by
  obtain ⟨buffer, stored, size, decoded⟩ := holds
  refine ⟨buffer, ?_, decoded⟩
  simp only [WasmSort.accessBuffer, small.sprintf, Outcome.orPanic, Outcome.bind, stored, size,
    if_true]

/-- A function registers numbers for the next ones. -/
theorem bufferRegister_register (int : Ints) (sendable : Sendable numbers) {malloc : Bytes}
    (size : malloc.length = MAX_BUFFER_SIZE) (small : slot.Small) :
    ∃ t, bufferRegister slot (register malloc numbers) s = .ok t ∧
      Holds int MAX_ARRAY_LENGTH t slot numbers ∧
      ∀ other, other ≠ slot → t other.text = s other.text := by
  obtain ⟨buffer, registered, length, decoded⟩ := register_ok sendable size
  refine ⟨_, by rw [registered, bufferRegister_ok small], ⟨buffer, ?_, length, decoded⟩, ?_⟩
  · rw [put_text, if_pos rfl]
  · intro other apart
    rw [put_text, if_neg apart]

theorem registerPivots_ok (buffer : Bytes) (ks : List Nat) (small : ∀ k ∈ ks, k < 10 ^ 7) :
    ∃ t, registerPivots (some buffer) ks s = .ok t ∧
      (∀ k ∈ ks, t (Slot.pivot k).text = some buffer) ∧
      ∀ slot : Slot, (∀ k, slot ≠ .pivot k) → t slot.text = s slot.text := by
  suffices kept : ∃ t, registerPivots (some buffer) ks s = .ok t ∧
      ∀ slot : Slot, t slot.text = if slot ∈ ks.map .pivot then some buffer else s slot.text by
    obtain ⟨t, ran, slots⟩ := kept
    refine ⟨t, ran, fun k member => ?_, fun slot other => ?_⟩
    · rw [slots, if_pos (List.mem_map_of_mem member)]
    · rw [slots, if_neg]
      simpa using fun k _ same => other k same.symm
  induction ks generalizing s with
  | nil => exact ⟨s, rfl, by simp⟩
  | cons k ks ih =>
    have first : (Slot.pivot k).Small := small k (by simp)
    obtain ⟨t, ran, slots⟩ :=
      @ih (s.put (Slot.pivot k).text buffer) fun k member => small k (by simp [member])
    refine ⟨t, ?_, fun slot => ?_⟩
    · rw [registerPivots, bufferRegister_ok first]
      exact ran
    · rw [slots, put_text, List.map_cons]
      by_cases here : slot = .pivot k <;> simp [here]

/-- The rows from `i` on stand in their slots, and the other slots are as before. -/
theorem registerRows_ok (int : Ints) (size : ∀ name, (memory name).length = MAX_BUFFER_SIZE)
    {id : Nat} (small : id < 10 ^ 7) (rows : List (List Int)) (i : Nat)
    (few : i + rows.length ≤ 11) (sendable : ∀ row ∈ rows, Sendable row) :
    ∃ t, registerRows memory id i rows s = .ok t ∧
      (∀ j row, rows[j]? = some row → Holds int MAX_ARRAY_LENGTH t (.merger id (i + j)) row) ∧
      ∀ slot : Slot, (∀ j, i ≤ j → slot ≠ .merger id j) → t slot.text = s slot.text := by
  induction rows generalizing i s with
  | nil => exact ⟨s, rfl, by simp, fun _ _ => rfl⟩
  | cons row rows ih =>
    rw [List.length_cons] at few
    have fits : (Slot.merger id i).Small := ⟨small, by omega⟩
    obtain ⟨u, registered, holds, kept⟩ :=
      bufferRegister_register (s := s) int (sendable row (by simp)) (size _) fits
    obtain ⟨t, ran, later, others⟩ :=
      @ih u (i + 1) (by omega) fun row member => sendable row (by simp [member])
    refine ⟨t, ?_, ?_, ?_⟩
    · rw [registerRows, registered]
      exact ran
    · intro j row' located
      cases j with
      | zero =>
        obtain rfl : row = row' := by simpa using located
        exact holds.of_eq (others _ fun j after => by simp; omega)
      | succ j =>
        rw [Nat.add_comm j 1, ← Nat.add_assoc]
        exact later j row' (by simpa using located)
    · intro slot other
      rw [others slot fun j after => other j (by omega), kept slot (other i (Nat.le_refl i))]

theorem readArrays_ok (int : Ints) (freed : String → Bytes) (id : Nat) (few : id < 10 ^ 2)
    (p : Nat → List Int) (is : List Nat) (nodup : is.Nodup) (small : ∀ i ∈ is, i < 10 ^ 7)
    (present : ∀ i ∈ is, Holds int MAX_ARRAY_LENGTH s (.merger i id) (p i)) :
    ∃ t, readArrays int freed id is s = .ok (is.map p, t) ∧
      ∀ slot : Slot, (∀ i, slot ≠ .merger i id) → t slot.text = s slot.text := by
  induction is generalizing s with
  | nil => exact ⟨s, rfl, fun _ _ => rfl⟩
  | cons i is ih =>
    have apart := List.nodup_cons.mp nodup
    have fits : (Slot.merger i id).Small := ⟨small i (by simp), few⟩
    obtain ⟨buffer, accessed, decoded⟩ :=
      (present i (by simp)).accessBuffer freed fits
    obtain ⟨t, taken, kept⟩ := @ih (s.clear (Slot.merger i id).text) apart.2
      (fun i member => small i (by simp [member])) (by
        intro k member
        have other : k ≠ i := fun same => apart.1 (same ▸ member)
        exact (present k (by simp [member])).of_eq (by simp [other]))
    refine ⟨t, ?_, ?_⟩
    · simp only [readArrays, accessed, Outcome.bind, decode, decoded, Outcome.orPanic, taken,
        List.map_cons]
    · intro slot other
      rw [kept slot other, clear_text, if_neg (other i)]

end Slots

end AlloyStack.User.WasmSort
