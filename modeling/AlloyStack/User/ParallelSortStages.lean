import AlloyStack.Library.Sequence
import AlloyStack.User.ParallelSort

/-! What each group of functions of the parallel sort leaves in the slots, in whatever order its
functions run. -/
namespace AlloyStack.User.ParallelSort
open Rust

section Folds
variable {α : Type} (key : α → Name) (value : α → Value)

theorem foldl_put_other (l : List α) (s : Slots Value) (other : ∀ a ∈ l, y ≠ key a) :
    l.foldl (fun s a => s.put (key a).text (value a)) s y.text = s y.text :=
  Slots.foldl_put_other (fun a => (key a).text) value l s fun a member same =>
    other a member (Name.text_injective same)

theorem foldl_put_mem (l : List α) (s : Slots Value) (same : ∀ a ∈ l, key a = y → value a = v)
    (present : ∃ a ∈ l, key a = y) :
    l.foldl (fun s a => s.put (key a).text (value a)) s y.text = some v := by
  obtain ⟨a, member, found⟩ := present
  exact Slots.foldl_put_mem (fun a => (key a).text) value l s
    (fun a member found => same a member (Name.text_injective found))
      ⟨a, member, congrArg Name.text found⟩

end Folds

theorem assignAll_eq (memory : Memory) (l : List (Name × List U32)) (s : Slots Value)
    (held : ∀ e ∈ l, (memory e.1).isSome) :
    assignAll memory l s = .ok (l.foldl (fun s e => putArray s e.1 e.2) s) := by
  induction l generalizing s with
  | nil => rfl
  | cons e l ih =>
    obtain ⟨array, found⟩ := Option.isSome_iff_exists.mp (held e (by simp))
    rw [assignAll, withSlot, found]
    exact ih _ fun e member => held e (by simp [member])

section Sorters
variable (b : Build) (files : List (List Char)) (mergerNum : Nat) (parts : List (List U32))

/-- The sorters that ran have left their parts, and the others still have their inputs. -/
structure SortersRan (ps : List U32) (done : List Nat) (s : Slots Value) : Prop where
  inputs : ∀ i file, files[i]? = some file → i ∉ done →
    s (Name.inputPart i).text = some (.content file)
  sorted : ∀ i part, parts[i]? = some part → i ∈ done →
    s (Name.sorterResp i).text = some (.array (sort part))
  cuts : 0 ∈ done → ∀ i < files.length, s (Name.pivots i).text = some (.array ps)
  pieces : ∀ i j, s (Name.splitterResp i j).text = none

theorem inputs_ran (ps : List U32) : SortersRan files parts ps [] (inputs files) where
  inputs := by
    intro i file located _
    refine foldl_put_mem (fun e : List Char × Nat => Name.inputPart e.2)
      (fun e => .content e.1) files.zipIdx _ ?_ ?_
    · intro e member same
      obtain rfl : e.2 = i := by simpa using same
      have stored := List.mk_mem_zipIdx_iff_getElem?.mp member
      rw [located] at stored
      exact congrArg Value.content (Option.some.inj stored).symm
    · exact ⟨(file, i), List.mk_mem_zipIdx_iff_getElem?.mpr located, rfl⟩
  sorted := by simp
  cuts := by simp
  pieces := by
    intro i j
    exact foldl_put_other (fun e : List Char × Nat => Name.inputPart e.2)
      (fun e => .content e.1) files.zipIdx _ (by simp)

variable {b files mergerNum parts} {ps part : List U32} {done : List Nat} {s : Slots Value}
  {id : Nat} {memory : Memory}

theorem parsed_at (parsed : files.map parseContent = parts.map .ok)
    (located : parts[id]? = some part) :
    ∃ file, files[id]? = some file ∧ parseContent file = .ok part := by
  have entry := congrArg (fun l : List (Outcome (List U32)) => l[id]?) parsed
  simpa [located] using entry

/-- The slots after the sorting in a sorter. -/
def sortedSlots (s : Slots Value) (id : Nat) (part : List U32) : Slots Value :=
  putArray (s.clear (Name.inputPart id).text) (.sorterResp id) (sort part)

theorem SortersRan.sorter_panics (ran : SortersRan files parts ps done s)
    (fresh : memory (.sorterResp 0) = some []) (words : files.length < word ∧ mergerNum < word)
    (parsed : files.map parseContent = parts.map .ok) (located : parts[0]? = some part)
    (new : 0 ∉ done) (unchosen : pivots b mergerNum (sort part) = none) :
    sorter b memory files.length mergerNum 0 s = .panic := by
  obtain ⟨file, stored, numbers⟩ := parsed_at parsed located
  simp only [sorter, takeContent, ran.inputs 0 file stored new, withSlot, fresh, Outcome.orPanic,
    Outcome.bind, numbers, List.nil_append, unchosen]
  rw [if_neg (by omega), if_pos trivial]

theorem SortersRan.sorter_first (ran : SortersRan files parts ps done s)
    (fresh : memory (.sorterResp 0) = some [])
    (held : ∀ i < files.length, (memory (.pivots i)).isSome)
    (words : files.length < word ∧ mergerNum < word)
    (parsed : files.map parseContent = parts.map .ok) (located : parts[0]? = some part)
    (new : 0 ∉ done) (chosen : pivots b mergerNum (sort part) = some ps) :
    sorter b memory files.length mergerNum 0 s =
      .ok ((List.range files.length).foldl (fun s i => putArray s (.pivots i) ps)
        (sortedSlots s 0 part)) := by
  obtain ⟨file, stored, numbers⟩ := parsed_at parsed located
  simp only [sorter, takeContent, ran.inputs 0 file stored new, withSlot, fresh, Outcome.orPanic,
    Outcome.bind, numbers, List.nil_append, chosen]
  rw [if_neg (by omega), if_pos trivial, assignAll_eq]
  · rw [List.foldl_map]
    rfl
  · intro e member
    obtain ⟨i, inside, rfl⟩ := List.mem_map.mp member
    exact held i (List.mem_range.mp inside)

theorem SortersRan.sorter_other (ran : SortersRan files parts ps done s)
    (fresh : memory (.sorterResp id) = some []) (words : files.length < word ∧ mergerNum < word)
    (parsed : files.map parseContent = parts.map .ok) (located : parts[id]? = some part)
    (new : id ∉ done) (other : id ≠ 0) :
    sorter b memory files.length mergerNum id s = .ok (sortedSlots s id part) := by
  obtain ⟨file, stored, numbers⟩ := parsed_at parsed located
  simp only [sorter, takeContent, ran.inputs id file stored new, withSlot, fresh, Outcome.orPanic,
    Outcome.bind, numbers, List.nil_append]
  rw [if_neg (by omega), if_neg other]
  rfl

theorem SortersRan.add (ran : SortersRan files parts ps done s) (located : parts[id]? = some part)
    (t : Slots Value)
    (same : ∀ name : Name, (∀ i, name ≠ .pivots i) → t name.text = sortedSlots s id part name.text)
    (cuts : 0 ∈ done ++ [id] → ∀ i < files.length, t (Name.pivots i).text = some (.array ps)) :
    SortersRan files parts ps (done ++ [id]) t where
  inputs := by
    intro i file stored new
    simp only [List.mem_append, List.mem_singleton, not_or] at new
    rw [same _ (by simp)]
    simpa [sortedSlots, new.2] using ran.inputs i file stored new.1
  sorted := by
    intro i part' located' member
    rw [same _ (by simp)]
    by_cases last : i = id
    · obtain rfl : part = part' := by simpa [last, located] using located'
      simp [sortedSlots, last]
    · simpa [sortedSlots, last] using ran.sorted i part' located' (by simpa [last] using member)
  cuts := cuts
  pieces := by
    intro i j
    rw [same _ (by simp)]
    simpa [sortedSlots] using ran.pieces i j

theorem SortersRan.step (ran : SortersRan files parts ps done s)
    (fresh : memory (.sorterResp id) = some [])
    (held : ∀ i < files.length, (memory (.pivots i)).isSome)
    (words : files.length < word ∧ mergerNum < word)
    (parsed : files.map parseContent = parts.map .ok) (located : parts[id]? = some part)
    (new : id ∉ done) (chosen : id = 0 → pivots b mergerNum (sort part) = some ps) :
    ∃ t, sorter b memory files.length mergerNum id s = .ok t ∧
      SortersRan files parts ps (done ++ [id]) t := by
  by_cases first : id = 0
  · subst first
    refine ⟨_, ran.sorter_first fresh held words parsed located new (chosen rfl),
      ran.add located _ ?_ ?_⟩
    · intro name other
      exact foldl_put_other (fun i => Name.pivots i) (fun _ => .array ps) _ _ (fun i _ => other i)
    · intro _ i bound
      refine foldl_put_mem (fun i => Name.pivots i) (fun _ => .array ps) _ _ (fun _ _ _ => rfl)
        ⟨i, ?_, rfl⟩
      exact List.mem_range.mpr bound
  · refine ⟨_, ran.sorter_other fresh words parsed located new first,
      ran.add located _ (fun _ _ => rfl) ?_⟩
    intro member i bound
    simpa [sortedSlots] using ran.cuts (by simpa [Ne.symm first] using member) i bound

/-- The splitters that ran have left their pieces, and the others still have their parts and
pivots. -/
structure SplittersRan (parts : List (List U32)) (ps : List U32) (done : List Nat)
    (s : Slots Value) : Prop where
  sorted : ∀ i part, parts[i]? = some part → i ∉ done →
    s (Name.sorterResp i).text = some (.array (sort part))
  cuts : ∀ i < parts.length, i ∉ done → s (Name.pivots i).text = some (.array ps)
  pieces : ∀ i j part, parts[i]? = some part →
    s (Name.splitterResp i j).text = if i ∈ done then ((splitNumbers (sort part) ps)[j]?).map .array
      else none

theorem SortersRan.finish (ran : SortersRan files parts ps done s)
    (all : ∀ i < parts.length, i ∈ done) (sizes : files.length = parts.length) :
    SplittersRan parts ps [] s where
  sorted :=
    fun i part located _ =>
      ran.sorted i part located (all i (List.getElem?_eq_some_iff.mp located).1)
  cuts := fun i bound _ => ran.cuts (all 0 (by omega)) i (by omega)
  pieces := fun i j _ _ => ran.pieces i j

theorem putPieces_other (pieces : List (List U32)) (other : ∀ j, name ≠ Name.splitterResp id j) :
    pieces.zipIdx.foldl (fun s e => putArray s (.splitterResp id e.2) e.1) s name.text =
      s name.text :=
  foldl_put_other (fun e : List U32 × Nat => Name.splitterResp id e.2)
    (fun e => .array e.1) _ _ fun e _ => other e.2

theorem putPieces_own (pieces : List (List U32)) (empty : s (Name.splitterResp id j).text = none) :
    pieces.zipIdx.foldl (fun s e => putArray s (.splitterResp id e.2) e.1) s
      (Name.splitterResp id j).text =
      (pieces[j]?).map .array := by
  cases entry : pieces[j]? with
  | none =>
    refine (foldl_put_other (fun e : List U32 × Nat => Name.splitterResp id e.2)
      (fun e => .array e.1) _ _ ?_).trans empty
    intro e member same
    obtain rfl : j = e.2 := by simpa using same
    simp [List.mk_mem_zipIdx_iff_getElem?.mp member] at entry
  | some piece =>
    refine foldl_put_mem (fun e : List U32 × Nat => Name.splitterResp id e.2)
      (fun e => .array e.1) _ _ ?_
      ⟨(piece, j), List.mk_mem_zipIdx_iff_getElem?.mpr entry, rfl⟩
    intro e member same
    obtain rfl : e.2 = j := by simpa using same
    obtain rfl : e.1 = piece := by simpa [List.mk_mem_zipIdx_iff_getElem?.mp member] using entry
    rfl

theorem SplittersRan.step (ran : SplittersRan parts ps done s) (located : parts[id]? = some part)
    (held : ∀ j ≤ ps.length, (memory (.splitterResp id j)).isSome) (new : id ∉ done) :
    ∃ t, splitter memory id s = .ok t ∧ SplittersRan parts ps (done ++ [id]) t := by
  have bound := (List.getElem?_eq_some_iff.mp located).1
  simp only [splitter, takeArray, ran.sorted id part located new, Outcome.bind, clear_text,
    reduceCtorEq, if_false, ran.cuts id bound new]
  rw [assignAll_eq, List.foldl_map]
  swap
  · intro e member
    obtain ⟨⟨piece, j⟩, entry, rfl⟩ := List.mem_map.mp member
    have inside := (List.getElem?_eq_some_iff.mp (List.mk_mem_zipIdx_iff_getElem?.mp entry)).1
    have most := splitNumbers_length_le (sort part) ps
    exact held j (by omega)
  refine ⟨_, rfl, ?_, ?_, ?_⟩
  · intro i part' located' new'
    simp only [List.mem_append, List.mem_singleton, not_or] at new'
    rw [putPieces_other _ (by simp)]
    simpa [new'.2] using ran.sorted i part' located' new'.1
  · intro i bound' new'
    simp only [List.mem_append, List.mem_singleton, not_or] at new'
    rw [putPieces_other _ (by simp)]
    simpa [new'.2] using ran.cuts i bound' new'.1
  · intro i j part' located'
    by_cases own : i = id
    · subst own
      obtain rfl : part = part' := by simpa [located] using located'
      rw [if_pos (by simp), putPieces_own]
      simpa [new] using ran.pieces i j part located
    · rw [putPieces_other _ (by simp [own])]
      simpa [own] using ran.pieces i j part' located'

end Sorters

section Mergers
variable {parts : List (List U32)} {ps : List U32} {done : List Nat} {s : Slots Value} {id : Nat}
  {memory : Memory}

theorem takePartitions_ok (s : Slots Value) (id : Nat) (p : Nat → List U32) (idxs : List Nat)
    (nodup : idxs.Nodup)
    (present : ∀ i ∈ idxs, s (Name.splitterResp i id).text = some (.array (p i))) :
    ∃ t, takePartitions id idxs s = .ok (idxs.map p, t) ∧
      ∀ name : Name, (∀ i, name ≠ .splitterResp i id) → t name.text = s name.text := by
  induction idxs generalizing s with
  | nil => exact ⟨s, rfl, fun _ _ => rfl⟩
  | cons idx idxs ih =>
    have apart := List.nodup_cons.mp nodup
    obtain ⟨t, taken, kept⟩ := @ih (s.clear (Name.splitterResp idx id).text) apart.2 (by
      intro i member
      have other : i ≠ idx := fun same => apart.1 (same ▸ member)
      simpa [other] using present i (by simp [member]))
    refine ⟨t, ?_, ?_⟩
    · simp only [takePartitions, takeArray, present idx (by simp), Outcome.bind, taken,
        List.map_cons]
    · intro name other
      rw [kept name other, clear_text, if_neg (other idx)]

theorem takePartitions_panic (idxs : List Nat)
    (absent : ∃ i ∈ idxs, s (Name.splitterResp i id).text = none) :
    takePartitions id idxs s = .panic := by
  induction idxs generalizing s with
  | nil => simp at absent
  | cons idx idxs ih =>
    obtain ⟨i, member, missing⟩ := absent
    simp only [takePartitions, takeArray]
    split
    next numbers found =>
      have later : i ∈ idxs := by
        rcases List.mem_cons.mp member with rfl | later
        · simp [missing] at found
        · exact later
      simp only [Outcome.bind,
        @ih (s.clear (Name.splitterResp idx id).text) ⟨i, later, by simp [missing]⟩]
    · rfl

/-- What merger `j` merges. -/
def column (parts : List (List U32)) (ps : List U32) (j : Nat) : List (List U32) :=
  parts.map fun part => ((splitNumbers (sort part) ps)[j]?).getD []

structure MergersRan (parts : List (List U32)) (ps : List U32) (done : List Nat) (s : Slots Value) :
    Prop where
  pieces : ∀ i j part, parts[i]? = some part → j ∉ done →
    s (Name.splitterResp i j).text = ((splitNumbers (sort part) ps)[j]?).map .array
  merged : ∀ j ∈ done, s (Name.mergeResult j).text =
    some (.array (mergePartitions (column parts ps j)))

theorem SplittersRan.finish (ran : SplittersRan parts ps done s)
    (all : ∀ i < parts.length, i ∈ done) :
    MergersRan parts ps [] s where
  pieces := fun i j part located _ => by
    simpa [all i (List.getElem?_eq_some_iff.mp located).1] using ran.pieces i j part located
  merged := by simp

/-- Every part has a piece for the merger. -/
def HasPieces (parts : List (List U32)) (ps : List U32) (j : Nat) : Prop :=
  ∀ part ∈ parts, j < (splitNumbers (sort part) ps).length

theorem MergersRan.step (ran : MergersRan parts ps done s) (count : parts.length < 2 ^ 32)
    (fresh : memory (.mergeResult id) = some []) (new : id ∉ done)
    (pieces : HasPieces parts ps id) :
    ∃ t, merger memory parts.length id s = .ok t ∧ MergersRan parts ps (done ++ [id]) t := by
  obtain ⟨t, taken, kept⟩ := takePartitions_ok s id
    (fun i => ((splitNumbers (sort (parts.getD i [])) ps)[id]?).getD [])
      (List.range parts.length) List.nodup_range (by
      intro i member
      have bound := List.mem_range.mp member
      have located : parts[i]? = some parts[i] := List.getElem?_eq_getElem bound
      have piece := List.getElem?_eq_getElem (pieces _ (List.getElem_mem bound))
      rw [ran.pieces i id _ located new, List.getD_eq_getElem?_getD, located, Option.getD_some,
        piece]
      rfl)
  have columns : (List.range parts.length).map
      (fun i => ((splitNumbers (sort (parts.getD i [])) ps)[id]?).getD []) =
      column parts ps id := by
    refine List.ext_getElem (by simp [column]) fun i bound _ => ?_
    have inside : i < parts.length := by simpa using bound
    simp [column, inside]
  refine ⟨putArray t (.mergeResult id) (mergePartitions (column parts ps id)), ?_, ?_, ?_⟩
  · rw [merger, if_neg (by omega), taken, columns]
    simp only [Outcome.bind, withSlot, fresh, Outcome.orPanic, List.nil_append]
  · intro i j part located new'
    simp only [List.mem_append, List.mem_singleton, not_or] at new'
    rw [putArray_text, if_neg (by simp), kept _ (by simp [new'.2])]
    exact ran.pieces i j part located new'.1
  · intro j member
    by_cases last : j = id
    · simp [last]
    · rw [putArray_text, if_neg (by simp [last]), kept _ (by simp)]
      exact ran.merged j (by simpa [last] using member)

theorem MergersRan.panics (ran : MergersRan parts ps done s) (new : id ∉ done)
    (missing : ¬ HasPieces parts ps id) :
    merger memory parts.length id s = .panic := by
  simp only [HasPieces, not_forall, not_lt] at missing
  obtain ⟨part, member, short⟩ := missing
  obtain ⟨i, located⟩ := List.getElem?_of_mem member
  have bound := (List.getElem?_eq_some_iff.mp located).1
  have absent := ran.pieces i id part located new
  rw [List.getElem?_eq_none short, Option.map_none] at absent
  rw [merger]
  split
  · rfl
  · rw [takePartitions_panic _ ⟨i, List.mem_range.mpr bound, absent⟩]
    rfl

end Mergers

section Pivots
variable {b : Build} {mergerNum : Nat} {array ps : List U32}

theorem sort_perm (array : List U32) : (sort array).Perm array := List.perm_insertionSort _ array

theorem sort_sorted (array : List U32) : (sort array).Pairwise (· ≤ ·) :=
  List.pairwise_insertionSort _ array

theorem pivots_eq (positive : 1 ≤ mergerNum) (small : mergerNum < word) :
    pivots b mergerNum array =
    if 2 ^ 63 ≤ 4 * (mergerNum - 1) then none
      else (List.range (mergerNum - 1)).mapM (pivot b mergerNum array) := by
  rw [pivots, Build.sub_eq b positive small, Option.bind_some]

/-- The wrapped product is not larger than the exact one, so its quotient is an index. -/
theorem pivot_isSome_iff (bound : i < mergerNum - 1) : (pivot b mergerNum array i).isSome ↔
    array ≠ [] ∧ (b.overflowChecks → (i + 1) * array.length < word) := by
  unfold pivot Build.mul
  split
  next checked => simp [checked.1, Nat.not_lt.mpr checked.2]
  next unchecked =>
    have fits : b.overflowChecks → (i + 1) * array.length < word := by
      intro checks
      by_contra large
      exact unchecked ⟨checks, Nat.not_lt.mp large⟩
    rw [and_iff_left fits, Option.bind_some, ← List.length_pos_iff]
    rw [Option.isSome_iff_ne_none, ne_eq, List.getElem?_eq_none_iff, not_le]
    constructor
    · exact fun inside => Nat.zero_lt_of_lt inside
    · intro nonempty
      have reduced := Nat.mod_le ((i + 1) * array.length) word
      have below : (i + 1) * array.length < mergerNum * array.length :=
        Nat.mul_lt_mul_of_pos_right (by omega) nonempty
      exact Nat.div_lt_of_lt_mul (by omega)

theorem pivots_isSome_iff (positive : 1 ≤ mergerNum) (small : mergerNum < word) :
    (∃ ps, pivots b mergerNum (sort array) = some ps) ↔ HasPivots b mergerNum array := by
  have length : (sort array).length = array.length := (sort_perm array).length_eq
  have empty : sort array ≠ [] ↔ array ≠ [] := by
    rw [← List.length_pos_iff, ← List.length_pos_iff, length]
  rw [pivots_eq positive small, HasPivots]
  by_cases one : mergerNum = 1
  · simp [one]
  rw [or_iff_right one]
  by_cases room : 2 ^ 63 ≤ 4 * (mergerNum - 1)
  · rw [if_pos room]
    refine iff_of_false (by simp) fun has => ?_
    exact absurd has.2.1 (Nat.not_lt.mpr room)
  · rw [if_neg room]
    constructor
    · rintro ⟨ps, chosen⟩
      have entries := Sequence.mapM_eq_some_iff.mp chosen
      have all (i : Nat) (bound : i < mergerNum - 1) :
          (pivot b mergerNum (sort array) i).isSome := by
        have member : pivot b mergerNum (sort array) i ∈ ps.map some := by
          rw [← entries]
          exact List.mem_map_of_mem (List.mem_range.mpr bound)
        obtain ⟨p, -, value⟩ := List.mem_map.mp member
        rw [← value]
        rfl
      obtain ⟨nonempty, last⟩ := (pivot_isSome_iff (by omega)).mp (all (mergerNum - 2) (by omega))
      rw [length, show mergerNum - 2 + 1 = mergerNum - 1 by omega] at last
      exact ⟨empty.mp nonempty, by omega, last⟩
    · rintro ⟨nonempty, -, fits⟩
      refine Sequence.mapM_isSome fun i member => ?_
      have bound := List.mem_range.mp member
      refine (pivot_isSome_iff bound).mpr ⟨empty.mpr nonempty, fun checks => ?_⟩
      have below : (i + 1) * array.length ≤ (mergerNum - 1) * array.length :=
        Nat.mul_le_mul_right _ (by omega)
      have whole := fits checks
      rw [length]
      omega

/-- The pivots are where `pivot` finds them. -/
theorem pivots_getElem? (positive : 1 ≤ mergerNum) (small : mergerNum < word)
    (chosen : pivots b mergerNum array = some ps) :
    ps.length = mergerNum - 1 ∧ ∀ i < mergerNum - 1, ps[i]? = pivot b mergerNum array i := by
  rw [pivots_eq positive small] at chosen
  split at chosen
  · cases chosen
  have entries := Sequence.mapM_eq_some_iff.mp chosen
  have lengths : ps.length = mergerNum - 1 := by simpa using (congrArg List.length entries).symm
  refine ⟨lengths, fun i bound => ?_⟩
  have entry := congrArg (fun l : List (Option U32) => l[i]?) entries
  have stored : ps[i]? = some ps[i] := List.getElem?_eq_getElem (by omega)
  rw [List.getElem?_map, List.getElem?_range bound, List.getElem?_map, stored] at entry
  rw [stored]
  exact (Option.some.inj entry).symm

end Pivots

end AlloyStack.User.ParallelSort
