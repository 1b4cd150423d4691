import AlloyStack.User.Sorting
import AlloyStack.User.Workflow

/-! The parallel sort from end to end, in the default build: the sorters read one file each, the
splitters cut the sorted parts at the pivots of the first sorter, and merger `j` merges piece `j` of
all parts. -/
namespace AlloyStack.User.ParallelSort
open Rust

def inputPart (i : Nat) : String := s!"input-part-{i}"
def sorterRespPart (i : Nat) : String := s!"sorter-resp-part-{i}"
def pivotsSlot (i : Nat) : String := s!"pivots-{i}"
def splitterRespPart (i j : Nat) : String := s!"splitter-{i}-resp-part-{j}"
def mergeResult (j : Nat) : String := s!"merge_result_{j}"

inductive Name where
  | inputPart (i : Nat)
  | sorterResp (i : Nat)
  | pivots (i : Nat)
  | splitterResp (i j : Nat)
  | mergeResult (j : Nat)
  deriving DecidableEq

def Name.text : Name → String
  | inputPart i => ParallelSort.inputPart i
  | sorterResp i => sorterRespPart i
  | pivots i => pivotsSlot i
  | splitterResp i j => splitterRespPart i j
  | mergeResult j => ParallelSort.mergeResult j

/-- `Reader2Sorter` or `VecArg`. -/
inductive Value where
  | content (text : List Char)
  | array (numbers : List U32)

/-- `DataBuffer::<Reader2Sorter>::from_buffer_slot(slot).unwrap()` -/
def takeContent (slot : Name) (s : Slots Value) : Outcome (List Char × Slots Value) :=
  match s slot.text with
  | some (.content text) => .ok (text, s.clear slot.text)
  | _ => .panic

/-- `DataBuffer::<VecArg>::from_buffer_slot(slot).unwrap()` -/
def takeArray (slot : Name) (s : Slots Value) : Outcome (List U32 × Slots Value) :=
  match s slot.text with
  | some (.array numbers) => .ok (numbers, s.clear slot.text)
  | _ => .panic

/-- What the memory that `with_slot` gets for a slot holds: the elements of a `Vec`, or `none` if
its bytes are no `Vec`. `with_slot` does not write to it. -/
abbrev Memory := Name → Option (List U32)

/-- `DataBuffer::<VecArg>::with_slot(slot)`. What a use of bytes that are no `Vec` does is not
defined; it counts as a panic. -/
def withSlot (memory : Memory) (slot : Name) : Outcome (List U32) := .orPanic (memory slot)

/-- The array of a buffer when the function ends. -/
def putArray (s : Slots Value) (slot : Name) (array : List U32) : Slots Value :=
  s.put slot.text (.array array)

/-- Arrays that are assigned to new buffers, one after the other. The assignment drops the array
that the memory held. -/
def assignAll (memory : Memory) : List (Name × List U32) → Slots Value → Outcome (Slots Value)
  | [], s => .ok s
  | (slot, array) :: rest, s =>
    (withSlot memory slot).bind fun _ => assignAll memory rest (putArray s slot array)

/-- The loop of the sorter over the pieces between commas. -/
def parsePieces : List (List Char) → Outcome (List U32)
  | [] => .ok []
  | piece :: pieces =>
    let num := Text.trim piece
    if num = [] then parsePieces pieces
    else
      match Text.parseU32 num with
      | none => .err ("parse Int failed, num=" ++ String.ofList num)
      | some value => (parsePieces pieces).bind fun values => .ok (value :: values)

def parseContent (content : List Char) : Outcome (List U32) := parsePieces (Text.split ',' content)

/-- `Vec::sort` -/
def sort (array : List U32) : List U32 := array.insertionSort (· ≤ ·)

/-- The pivot with number `i`; the product may wrap, and indexing may panic. -/
def pivot (b : Build) (mergerNum : Nat) (array : List U32) (i : Nat) : Option U32 :=
  (b.mul (i + 1) array.length).bind fun product => array[product / mergerNum]?

/-- The pivots of the first sorter. `collect` asks for their memory at once, of at most
`isize::MAX` bytes. -/
def pivots (b : Build) (mergerNum : Nat) (array : List U32) : Option (List U32) :=
  (b.sub mergerNum 1).bind fun count =>
    if 2 ^ 63 ≤ 4 * count then none else (List.range count).mapM (pivot b mergerNum array)

/-- The sorter parses both numbers as `usize`. It pushes its numbers behind what the new buffer
holds. -/
def sorter (b : Build) (memory : Memory) (sorterNum mergerNum : Nat) (id : Nat) (s : Slots Value) :
    Outcome (Slots Value) :=
  if word ≤ sorterNum ∨ word ≤ mergerNum then .panic
  else
    (takeContent (.inputPart id) s).bind fun (content, s) =>
    (withSlot memory (.sorterResp id)).bind fun held =>
    (parseContent content).bind fun array =>
    let array := sort (held ++ array)
    let s := putArray s (.sorterResp id) array
    if id = 0 then
      match pivots b mergerNum array with
      | none => .panic
      | some pivots =>
        assignAll memory ((List.range sorterNum).map fun i => (.pivots i, pivots)) s
    else .ok s

def splitter (memory : Memory) (id : Nat) (s : Slots Value) : Outcome (Slots Value) :=
  (takeArray (.sorterResp id) s).bind fun (numbers, s) =>
  (takeArray (.pivots id) s).bind fun (pivots, s) =>
  assignAll memory ((splitNumbers numbers pivots).zipIdx.map fun (partition, idx) =>
    (.splitterResp id idx, partition)) s

/-- The partitions of a merger, from sorter `idx` on. -/
def takePartitions (id : Nat) : List Nat → Slots Value → Outcome (List (List U32) × Slots Value)
  | [], s => .ok ([], s)
  | idx :: idxs, s =>
    (takeArray (.splitterResp idx id) s).bind fun (partition, s) =>
    (takePartitions id idxs s).bind fun (partitions, s) => .ok (partition :: partitions, s)

/-- The merger parses `sorter_num` as a `u32`, and pushes its numbers behind what the new buffer
holds. -/
def merger (memory : Memory) (sorterNum : Nat) (id : Nat) (s : Slots Value) :
    Outcome (Slots Value) :=
  if 2 ^ 32 ≤ sorterNum then .panic
  else
    (takePartitions id (List.range sorterNum) s).bind fun (partitions, s) =>
    (withSlot memory (.mergeResult id)).bind fun held =>
    .ok (putArray s (.mergeResult id) (held ++ mergePartitions partitions))

/-- What the file readers leave. -/
def inputs (files : List (List Char)) : Slots Value :=
  files.zipIdx.foldl (fun s (file, i) => s.put (Name.inputPart i).text (.content file)) fun _ =>
    none

/-- The ids of each group, in the order in which they run. -/
structure Orders where
  sorters : List Nat
  splitters : List Nat
  mergers : List Nat

/-- Every configured id runs once. -/
structure Orders.Complete (o : Orders) (sorterNum mergerNum : Nat) : Prop where
  sorters : o.sorters.Perm (List.range sorterNum)
  splitters : o.splitters.Perm (List.range sorterNum)
  mergers : o.mergers.Perm (List.range mergerNum)

def workflow (b : Build) (memory : Memory) (files : List (List Char)) (mergerNum : Nat)
    (o : Orders) : Outcome (Slots Value) :=
  (stage (sorter b memory files.length mergerNum) o.sorters (inputs files)).bind fun s =>
  (stage (splitter memory) o.splitters s).bind fun s =>
  stage (merger memory files.length) o.mergers s

/-- No function panics, and the results of the mergers in the order of their ids are the numbers of
all files, sorted. -/
def Sorts (b : Build) (memory : Memory) (files : List (List Char)) (mergerNum : Nat) (o : Orders)
    (parts : List (List U32)) : Prop :=
  ∃ (s : Slots Value) (outputs : List (List U32)), workflow b memory files mergerNum o = .ok s ∧
    (∀ id < mergerNum, s (mergeResult id) = (outputs[id]?).map Value.array) ∧
      outputs.length = mergerNum ∧
    outputs.flatten.Pairwise (· ≤ ·) ∧ outputs.flatten.Perm parts.flatten

/-- The first sorter has pivots: there is one merger only, or it has numbers to choose from, and
room for the pivots. -/
def HasPivots (b : Build) (mergerNum : Nat) (first : List U32) : Prop :=
  mergerNum = 1 ∨ first ≠ [] ∧ 4 * (mergerNum - 1) < 2 ^ 63 ∧
    (b.overflowChecks → (mergerNum - 1) * first.length < word)

/-- New buffers hold arrays, and those that numbers are pushed to are empty. -/
structure Memory.Fresh (memory : Memory) (sorterNum mergerNum : Nat) : Prop where
  sorters : ∀ i < sorterNum, memory (.sorterResp i) = some []
  pivots : ∀ i < sorterNum, (memory (.pivots i)).isSome
  pieces : ∀ i < sorterNum, ∀ j < mergerNum, (memory (.splitterResp i j)).isSome
  mergers : ∀ j < mergerNum, memory (.mergeResult j) = some []

/-- The new buffers of the sorters and mergers hold arrays. -/
structure Memory.Readable (memory : Memory) (sorterNum mergerNum : Nat) : Prop where
  sorters : ∀ i < sorterNum, (memory (.sorterResp i)).isSome
  mergers : ∀ j < mergerNum, (memory (.mergeResult j)).isSome

/-- When the workflow sorts. -/
structure Sortable (b : Build) (mergerNum : Nat) (parts : List (List U32)) : Prop where
  sorters : parts.length < 2 ^ 32
  pivots : HasPivots b mergerNum (parts.getD 0 [])
  reaches : 3 ≤ mergerNum → ∀ part ∈ parts, ∃ num ∈ part, ∀ i < mergerNum - 2, ∀ p,
    pivot b mergerNum (sort (parts.getD 0 [])) i = some p → p ≤ num
  bounded : ∀ part ∈ parts, u32Max ∉ part

section Names

theorem inputPart_toList (i : Nat) :
    (inputPart i).toList = "input-part-".toList ++ Nat.toDigits 10 i :=
  Text.numbered_toList "input-part-" i

theorem sorterRespPart_toList (i : Nat) :
    (sorterRespPart i).toList = "sorter-resp-part-".toList ++ Nat.toDigits 10 i :=
  Text.numbered_toList "sorter-resp-part-" i

theorem pivotsSlot_toList (i : Nat) :
    (pivotsSlot i).toList = "pivots-".toList ++ Nat.toDigits 10 i :=
  Text.numbered_toList "pivots-" i

theorem splitterRespPart_toList (i j : Nat) : (splitterRespPart i j).toList =
    "splitter-".toList ++ (Nat.toDigits 10 i ++ ("-resp-part-".toList ++ Nat.toDigits 10 j)) :=
  Text.numbered_numbered_toList "splitter-" "-resp-part-" i j

theorem mergeResult_toList (j : Nat) :
    (mergeResult j).toList = "merge_result_".toList ++ Nat.toDigits 10 j :=
  Text.numbered_toList "merge_result_" j

theorem Name.text_injective : Function.Injective Name.text := by
  intro x y same
  replace same := congrArg String.toList same
  cases x <;> cases y <;> simp only [text, inputPart_toList, sorterRespPart_toList,
    pivotsSlot_toList,
    splitterRespPart_toList, mergeResult_toList, String.reduceToList, List.cons_append,
      List.nil_append, List.cons.injEq,
    Char.reduceEq, false_and, and_false, true_and] at same
  · rw [Text.digits_injective same]
  · rw [Text.digits_injective same]
  · rw [Text.digits_injective same]
  · obtain ⟨rfl, rest⟩ := Text.digits_append_inj (by simp) (by simp) same
    simp only [List.cons.injEq, true_and] at rest
    rw [Text.digits_injective rest]
  · rw [Text.digits_injective same]

variable (s : Slots Value) (x y : Name)

theorem put_text (v : Value) : (s.put x.text v) y.text = if y = x then some v else s y.text := by
  simp only [Slots.put, Function.update_apply, Name.text_injective.eq_iff]

@[simp] theorem putArray_text (array : List U32) :
    putArray s x array y.text = if y = x then some (.array array) else s y.text :=
  put_text s x y (.array array)

@[simp] theorem clear_text : (s.clear x.text) y.text = if y = x then none else s y.text := by
  simp only [Slots.clear, Function.update_apply, Name.text_injective.eq_iff]

end Names

end AlloyStack.User.ParallelSort
