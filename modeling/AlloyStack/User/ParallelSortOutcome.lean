import AlloyStack.User.ParallelSortStages

/-! The results of the mergers, and when they are the sorted numbers of all files. -/
namespace AlloyStack.User.ParallelSort
open Rust

section Outputs
variable {b : Build} {mergerNum : Nat} {parts : List (List U32)} {ps : List U32}

theorem piece_sublist {piece : List U32} {j : Nat} (numbers : List U32)
    (located : (splitNumbers numbers ps)[j]? = some piece) : piece.Sublist numbers := by
  have inside := List.sublist_flatten_of_mem (List.mem_of_getElem? located)
  rwa [splitNumbers_flatten] at inside

theorem mem_column (member : num ∈ (column parts ps j).flatten) :
    ∃ part ∈ parts, ∃ piece, (splitNumbers (sort part) ps)[j]? = some piece ∧ num ∈ piece := by
  obtain ⟨piece, entry, member⟩ := List.mem_flatten.mp member
  obtain ⟨part, inside, rfl⟩ := List.mem_map.mp entry
  refine ⟨part, inside, ?_⟩
  cases located : (splitNumbers (sort part) ps)[j]? with
  | none => simp [located] at member
  | some piece => exact ⟨piece, rfl, by simpa [located] using member⟩

theorem column_sorted (parts : List (List U32)) (ps : List U32) (j : Nat) :
    ∀ piece ∈ column parts ps j, piece.Pairwise (· ≤ ·) := by
  intro piece entry
  obtain ⟨part, inside, rfl⟩ := List.mem_map.mp entry
  cases located : (splitNumbers (sort part) ps)[j]? with
  | none => simp
  | some piece => exact (sort_sorted part).sublist (piece_sublist _ located)

/-- The results of the mergers in the order of their ids. -/
def outputs (mergerNum : Nat) (parts : List (List U32)) (ps : List U32) : List (List U32) :=
  (List.range mergerNum).map fun j => mergePartitions (column parts ps j)

theorem mem_output (member : num ∈ mergePartitions (column parts ps j)) :
    ∃ part ∈ parts, ∃ piece, (splitNumbers (sort part) ps)[j]? = some piece ∧ num ∈ piece := by
  have merged := (mergePartitions_spec _ (column_sorted parts ps j)).2
  exact mem_column (List.mem_filter.mp (merged.mem_iff.mp member)).1

theorem outputs_sorted (cuts : ps.length = mergerNum - 1) :
    (outputs mergerNum parts ps).flatten.Pairwise (· ≤ ·) := by
  refine List.pairwise_flatten.mpr ⟨?_, ?_⟩
  · intro output entry
    obtain ⟨j, -, rfl⟩ := List.mem_map.mp entry
    exact (mergePartitions_spec _ (column_sorted parts ps j)).1
  · refine List.pairwise_map.mpr (List.pairwise_lt_range.imp_of_mem ?_)
    intro j k _ last before x member y member'
    obtain ⟨part, -, piece, located, member⟩ := mem_output member
    obtain ⟨part', -, piece', located', member'⟩ := mem_output member'
    have bound : j < ps.length := by have := List.mem_range.mp last; omega
    have cut := List.getElem?_eq_getElem bound
    exact (splitNumbers_lt located member cut).le.trans
      (splitNumbers_ge (sort_sorted part') located' member' before cut)

/-- Taking the pieces by merger or by part gives the same numbers. -/
theorem columns_perm (complete : ∀ part ∈ parts, (splitNumbers (sort part) ps).length = mergerNum) :
    ((List.range mergerNum).flatMap fun j => (column parts ps j).flatten).Perm parts.flatten := by
  induction parts with
  | nil => simp [column]
  | cons part parts ih =>
    have rest := ih fun part member => complete part (by simp [member])
    have row : (List.range mergerNum).flatMap
        (fun j => ((splitNumbers (sort part) ps)[j]?).getD []) = sort part := by
      have entries : (List.range mergerNum).map
          (fun j => ((splitNumbers (sort part) ps)[j]?).getD []) =
          splitNumbers (sort part) ps := by
        refine List.ext_getElem (by simp [complete part]) fun i _ inside => ?_
        simp [inside]
      rw [List.flatMap_def, entries, splitNumbers_flatten]
    have joined :=
      List.flatMap_append_perm (List.range mergerNum)
        (fun j => ((splitNumbers (sort part) ps)[j]?).getD [])
      (fun j => (column parts ps j).flatten)
    rw [row] at joined
    simp only [column, List.map_cons, List.flatten_cons] at joined rest ⊢
    exact joined.symm.trans ((sort_perm part).append rest)

theorem outputs_perm (complete : ∀ part ∈ parts, (splitNumbers (sort part) ps).length = mergerNum) :
    (outputs mergerNum parts ps).flatten.Perm (parts.flatten.filter (· ≠ u32Max)) := by
  have merged : (outputs mergerNum parts ps).flatten.Perm
      ((List.range mergerNum).flatMap fun j =>
        (column parts ps j).flatten.filter (· ≠ u32Max)) := by
    rw [outputs, ← List.flatMap_def]
    exact List.Perm.flatMap_left _ fun j _ => (mergePartitions_spec _ (column_sorted parts ps j)).2
  rw [← List.filter_flatMap] at merged
  exact merged.trans ((columns_perm complete).filter _)

end Outputs

section Workflow
variable {b : Build} {files : List (List Char)} {mergerNum : Nat} {parts : List (List U32)}
  {ps : List U32} {o : Orders} {memory : Memory}
variable {s : Slots Value}

theorem length_eq_of_parsed (parsed : files.map parseContent = parts.map .ok) :
    files.length = parts.length := by
  simpa using congrArg List.length parsed

theorem sorters_grow (ps : List U32) (parsed : files.map parseContent = parts.map .ok)
    (fresh : memory.Fresh files.length mergerNum)
    (words : files.length < word ∧ mergerNum < word) :
    Grows (sorter b memory files.length mergerNum) (· < parts.length)
      (fun id => id = 0 → pivots b mergerNum (sort (parts.getD 0 [])) = some ps)
        (SortersRan files parts ps) := by
  intro done id s ran new bound chosen
  have located : parts[id]? = some parts[id] := List.getElem?_eq_getElem bound
  have own := fresh.sorters id (length_eq_of_parsed parsed ▸ bound)
  refine ran.step own fresh.pivots words parsed located new fun first => ?_
  subst first
  simpa [List.getD_eq_getElem?_getD, located] using chosen rfl

theorem Orders.Complete.sorter_lt (complete : o.Complete parts.length mergerNum) :
    ∀ id ∈ o.sorters, id < parts.length :=
  fun _ member => List.mem_range.mp (complete.sorters.mem_iff.mp member)

theorem sorters_ok (parsed : files.map parseContent = parts.map .ok)
    (fresh : memory.Fresh files.length mergerNum) (words : files.length < word ∧ mergerNum < word)
    (complete : o.Complete parts.length mergerNum)
    (chosen : pivots b mergerNum (sort (parts.getD 0 [])) = some ps) :
    ∃ s, stage (sorter b memory files.length mergerNum) o.sorters (inputs files) = .ok s ∧
      SplittersRan parts ps [] s := by
  obtain ⟨s, ran, last⟩ :=
    stage_ok (sorters_grow ps parsed fresh words) complete.sorter_lt (fun _ _ _ => chosen)
    (complete.sorters.nodup_iff.mpr List.nodup_range) (inputs_ran files parts ps)
  refine ⟨s, ran, last.finish (fun i bound => ?_) (length_eq_of_parsed parsed)⟩
  exact complete.sorters.mem_iff.mpr (List.mem_range.mpr bound)

theorem sorters_panic (parsed : files.map parseContent = parts.map .ok)
    (fresh : memory.Fresh files.length mergerNum) (words : files.length < word ∧ mergerNum < word)
    (complete : o.Complete parts.length mergerNum) (positive : 1 ≤ parts.length)
    (none_chosen : pivots b mergerNum (sort (parts.getD 0 [])) = none) :
    stage (sorter b memory files.length mergerNum) o.sorters (inputs files) = .panic := by
  refine stage_panic (sorters_grow [] parsed fresh words) ?_ complete.sorter_lt
    (complete.sorters.nodup_iff.mpr List.nodup_range) (inputs_ran files parts [])
    ⟨0, complete.sorters.mem_iff.mpr (List.mem_range.mpr positive), by rw [none_chosen]; simp⟩
  intro done id s ran new bound unchosen
  obtain rfl : id = 0 := by
    by_contra other
    exact unchosen fun same => absurd same other
  have located : parts[0]? = some parts[0] := List.getElem?_eq_getElem bound
  have first : parts.getD 0 [] = parts[0] := by rw [List.getD_eq_getElem?_getD, located]; rfl
  rw [first] at none_chosen
  have own := fresh.sorters 0 (length_eq_of_parsed parsed ▸ bound)
  exact ran.sorter_panics own words parsed located new none_chosen

theorem splitters_ok (complete : o.Complete parts.length mergerNum)
    (fresh : memory.Fresh parts.length mergerNum) (positive : 1 ≤ mergerNum)
    (cuts : ps.length = mergerNum - 1) (ran : SplittersRan parts ps [] s) :
    ∃ t, stage (splitter memory) o.splitters s = .ok t ∧ MergersRan parts ps [] t := by
  have grows : Grows (splitter memory) (· < parts.length) (fun _ => True) (SplittersRan parts ps) :=
    fun done id s ran new bound _ => ran.step (List.getElem?_eq_getElem bound)
      (fun j inside => fresh.pieces id bound j (by omega)) new
  obtain ⟨t, stages, last⟩ := stage_ok grows
    (fun _ member => List.mem_range.mp (complete.splitters.mem_iff.mp member)) (fun _ _ => trivial)
    (complete.splitters.nodup_iff.mpr List.nodup_range) ran
  exact ⟨t, stages, last.finish fun i bound =>
    complete.splitters.mem_iff.mpr (List.mem_range.mpr bound)⟩

theorem Orders.Complete.merger_lt (complete : o.Complete parts.length mergerNum) :
    ∀ id ∈ o.mergers, id < mergerNum :=
  fun _ member => List.mem_range.mp (complete.mergers.mem_iff.mp member)

theorem mergers_grow (fresh : memory.Fresh parts.length mergerNum)
    (count : parts.length < 2 ^ 32) :
    Grows (merger memory parts.length) (· < mergerNum) (HasPieces parts ps)
      (MergersRan parts ps) :=
  fun _ id _ ran new bound pieces => ran.step count (fresh.mergers id bound) new pieces

theorem mergers_ok (complete : o.Complete parts.length mergerNum)
    (fresh : memory.Fresh parts.length mergerNum) (count : parts.length < 2 ^ 32)
    (pieces : ∀ id < mergerNum, HasPieces parts ps id) (ran : MergersRan parts ps [] s) :
    ∃ t, stage (merger memory parts.length) o.mergers s = .ok t ∧
      MergersRan parts ps o.mergers t :=
  stage_ok (mergers_grow fresh count) complete.merger_lt
    (fun id member => pieces id (complete.merger_lt id member))
    (complete.mergers.nodup_iff.mpr List.nodup_range) ran

theorem mergers_panic (complete : o.Complete parts.length mergerNum)
    (fresh : memory.Fresh parts.length mergerNum) (count : parts.length < 2 ^ 32)
    (missing : ∃ id < mergerNum, ¬ HasPieces parts ps id) (ran : MergersRan parts ps [] s) :
    stage (merger memory parts.length) o.mergers s = .panic := by
  obtain ⟨id, bound, missing⟩ := missing
  exact stage_panic (mergers_grow fresh count)
    (fun _ _ _ ran new _ missing => ran.panics new missing) complete.merger_lt
    (complete.mergers.nodup_iff.mpr List.nodup_range) ran
      ⟨id, complete.mergers.mem_iff.mpr (List.mem_range.mpr bound), missing⟩

theorem mem_dropLast_iff {p : U32} (l : List U32) :
    p ∈ l.dropLast ↔ ∃ i < l.length - 1, l[i]? = some p := by
  rw [List.mem_iff_getElem?]
  constructor
  · rintro ⟨i, located⟩
    have bound := (List.getElem?_eq_some_iff.mp located).1
    rw [List.length_dropLast] at bound
    exact ⟨i, bound, by rwa [List.getElem?_dropLast, if_pos bound] at located⟩
  · rintro ⟨i, bound, located⟩
    exact ⟨i, by rw [List.getElem?_dropLast, if_pos bound, located]⟩

/-- Every merger has its pieces when every part reaches past all pivots but the last one. -/
theorem complete_iff (positive : 1 ≤ mergerNum) (small : mergerNum < word)
    (chosen : pivots b mergerNum (sort (parts.getD 0 [])) = some ps) :
    (∀ part ∈ parts, (splitNumbers (sort part) ps).length = mergerNum) ↔
      (3 ≤ mergerNum → ∀ part ∈ parts, ∃ num ∈ part, ∀ i < mergerNum - 2, ∀ p,
        pivot b mergerNum (sort (parts.getD 0 [])) i = some p → p ≤ num) := by
  obtain ⟨length, entries⟩ := pivots_getElem? positive small chosen
  have each (part : List U32) : (splitNumbers (sort part) ps).length = mergerNum ↔
      (3 ≤ mergerNum → ∃ num ∈ part,
      ∀ i < mergerNum - 2, ∀ p, pivot b mergerNum (sort (parts.getD 0 [])) i = some p →
        p ≤ num) := by
    have whole : (splitNumbers (sort part) ps).length = ps.length + 1 ↔ _ :=
      splitNumbers_complete_iff (sort_sorted part)
    have bound (num : U32) : (∀ p ∈ ps.dropLast, p ≤ num) ↔ ∀ i < mergerNum - 2, ∀ p,
        pivot b mergerNum (sort (parts.getD 0 [])) i = some p → p ≤ num := by
      simp only [mem_dropLast_iff, length]
      constructor
      · intro all i below p located
        exact all p ⟨i, by omega, (entries i (by omega)).trans located⟩
      · rintro all p ⟨i, below, located⟩
        exact all i (by omega) p ((entries i (by omega)).symm.trans located)
    rw [length, show mergerNum - 1 + 1 = mergerNum by omega] at whole
    simp only [whole, bound, (sort_perm part).mem_iff]
    constructor
    · rintro (few | reaches) many
      · omega
      · exact reaches
    · intro reaches
      by_cases many : 3 ≤ mergerNum
      · exact .inr (reaches many)
      · exact .inl (by omega)
  constructor
  · intro complete many part member
    exact (each part).mp (complete part member) many
  · intro reaches part member
    exact (each part).mpr fun many => reaches many part member

theorem hasPieces_iff (positive : 1 ≤ mergerNum) (cuts : ps.length = mergerNum - 1) :
    (∀ id < mergerNum, HasPieces parts ps id) ↔
      ∀ part ∈ parts, (splitNumbers (sort part) ps).length = mergerNum := by
  constructor
  · intro pieces part member
    have last := pieces (mergerNum - 1) (by omega) part member
    have most := splitNumbers_length_le (sort part) ps
    omega
  · intro complete id bound part member
    rw [complete part member]
    exact bound

theorem order_nonempty {order : List Nat} {n : Nat} (complete : order.Perm (List.range n))
    (positive : 1 ≤ n) : order ≠ [] := by
  rintro rfl
  have size := complete.length_eq
  rw [List.length_nil, List.length_range] at size
  omega

theorem workflow_panics (parsed : files.map parseContent = parts.map .ok)
    (fresh : memory.Fresh files.length mergerNum) (positive : 1 ≤ files.length)
    (complete : o.Complete files.length mergerNum)
    (wide : ¬ (files.length < word ∧ mergerNum < word) ∨
      pivots b mergerNum (sort (parts.getD 0 [])) = none) :
    workflow b memory files mergerNum o = .panic := by
  by_cases words : files.length < word ∧ mergerNum < word
  · have sizes := length_eq_of_parsed parsed
    rw [workflow, sorters_panic parsed fresh words (sizes ▸ complete) (by omega)
      (wide.resolve_left (not_not.mpr words))]
    rfl
  · have all : ∀ id s, sorter b memory files.length mergerNum id s = .panic := by
      intro id s
      rw [sorter, if_pos (by omega)]
    rw [workflow, stage_all_panic all (order_nonempty complete.sorters positive)]
    rfl

theorem mergers_overflow (complete : o.Complete files.length mergerNum) (positive : 1 ≤ mergerNum)
    (many : 2 ^ 32 ≤ n) (s : Slots Value) : stage (merger memory n) o.mergers s = .panic := by
  have all : ∀ id s, merger memory n id s = .panic := by
    intro id s
    rw [merger, if_pos (by omega)]
  exact stage_all_panic all (order_nonempty complete.mergers positive)

theorem not_sorts_of_panic (panics : workflow b memory files mergerNum o = .panic) :
    ¬ Sorts b memory files mergerNum o parts := by
  rintro ⟨s, results, ran, -⟩
  rw [panics] at ran
  cases ran

/-- With pivots, the workflow is what the mergers make of the pieces. -/
theorem workflow_mergers (parsed : files.map parseContent = parts.map .ok)
    (fresh : memory.Fresh files.length mergerNum) (positive : 1 ≤ mergerNum)
    (words : files.length < word ∧ mergerNum < word) (complete : o.Complete files.length mergerNum)
    (chosen : pivots b mergerNum (sort (parts.getD 0 [])) = some ps) :
    ∃ s, MergersRan parts ps [] s ∧
      workflow b memory files mergerNum o = stage (merger memory parts.length) o.mergers s := by
  have sizes := length_eq_of_parsed parsed
  have cuts := (pivots_getElem? positive words.2 chosen).1
  obtain ⟨s, first, sorted⟩ := sorters_ok parsed fresh words (sizes ▸ complete) chosen
  obtain ⟨t, second, split⟩ :=
    splitters_ok (sizes ▸ complete) (sizes ▸ fresh) positive cuts sorted
  refine ⟨t, split, ?_⟩
  simp only [workflow, first, Outcome.bind, second]
  rw [sizes]

theorem mergers_sort_iff
    (merged : ∀ id < mergerNum,
      s (mergeResult id) = some (.array (mergePartitions (column parts ps id))))
    (cuts : ps.length = mergerNum - 1)
    (pieces : ∀ part ∈ parts, (splitNumbers (sort part) ps).length = mergerNum) :
    (∃ results : List (List U32),
      (∀ id < mergerNum, s (mergeResult id) = (results[id]?).map Value.array) ∧
      results.length = mergerNum ∧ results.flatten.Pairwise (· ≤ ·) ∧
        results.flatten.Perm parts.flatten) ↔
      ∀ part ∈ parts, u32Max ∉ part := by
  have perm := outputs_perm pieces
  have absent : (∀ part ∈ parts, u32Max ∉ part) ↔ u32Max ∉ parts.flatten := by
    simp [List.mem_flatten]
  rw [absent]
  constructor
  · rintro ⟨results, stored, length, -, permuted⟩
    have same : results = outputs mergerNum parts ps := by
      refine List.ext_getElem (by simp [outputs, length]) fun id bound _ => ?_
      have entry := stored id (by omega)
      rw [merged id (by omega), List.getElem?_eq_getElem bound] at entry
      simpa [outputs] using entry.symm
    rw [same] at permuted
    exact (filter_perm_self_iff _).mp (perm.symm.trans permuted)
  · intro bounded
    have whole := perm.trans ((filter_perm_self_iff _).mpr bounded)
    refine ⟨outputs mergerNum parts ps, fun id bound => ?_, by simp [outputs], outputs_sorted cuts,
      whole⟩
    rw [merged id bound]
    simp [outputs, bound]

theorem sorts_fresh_iff (fresh : memory.Fresh files.length mergerNum)
    (parsed : files.map parseContent = parts.map .ok)
    (sorters : 1 ≤ files.length) (mergers : 1 ≤ mergerNum)
    (complete : o.Complete files.length mergerNum) :
    Sorts b memory files mergerNum o parts ↔ Sortable b mergerNum parts := by
  have sizes := length_eq_of_parsed parsed
  by_cases words : files.length < word ∧ mergerNum < word
  swap
  · refine iff_of_false
      (not_sorts_of_panic (workflow_panics parsed fresh sorters complete (.inl words))) fun able =>
        ?_
    have count := able.sorters
    rcases able.pivots with one | ⟨-, room, -⟩ <;> exact words (by unfold word; omega)
  cases chosen : pivots b mergerNum (sort (parts.getD 0 [])) with
  | none =>
    refine iff_of_false (not_sorts_of_panic
      (workflow_panics parsed fresh sorters complete (.inr chosen)))
      fun able => ?_
    obtain ⟨ps, found⟩ := (pivots_isSome_iff mergers words.2).mpr able.pivots
    rw [chosen] at found
    cases found
  | some ps =>
    have cuts := (pivots_getElem? mergers words.2 chosen).1
    have has := (pivots_isSome_iff mergers words.2).mp ⟨ps, chosen⟩
    have reaches := complete_iff mergers words.2 chosen
    obtain ⟨s, split, runs⟩ := workflow_mergers parsed fresh mergers words complete chosen
    have complete' : o.Complete parts.length mergerNum := sizes ▸ complete
    by_cases count : parts.length < 2 ^ 32
    swap
    · have overflow : stage (merger memory parts.length) o.mergers s = .panic :=
        mergers_overflow complete mergers (Nat.le_of_not_lt count) s
      exact iff_of_false (not_sorts_of_panic (runs.trans overflow)) fun able => count able.sorters
    by_cases pieces : ∀ id < mergerNum, HasPieces parts ps id
    · obtain ⟨t, merged, last⟩ := mergers_ok complete' (sizes ▸ fresh) count pieces split
      have whole := (hasPieces_iff mergers cuts).mp pieces
      have sorts :=
        mergers_sort_iff (fun id bound =>
          last.merged id (complete.mergers.mem_iff.mpr (List.mem_range.mpr bound)))
        cuts whole
      constructor
      · rintro ⟨u, results, ran, holds⟩
        obtain rfl : t = u := by simpa [runs, merged] using ran
        exact ⟨count, has, reaches.mp whole, sorts.mp ⟨results, holds⟩⟩
      · intro able
        obtain ⟨results, holds⟩ := sorts.mpr able.bounded
        exact ⟨t, results, runs.trans merged, holds⟩
    · have missing : ∃ id < mergerNum, ¬ HasPieces parts ps id := by simpa using pieces
      refine iff_of_false (not_sorts_of_panic
        (runs.trans (mergers_panic complete' (sizes ▸ fresh) count missing split))) fun able => ?_
      exact pieces ((hasPieces_iff mergers cuts).mpr (reaches.mpr able.reaches))

/-- A workflow that ends has found arrays in the new buffers of its sorters and mergers. -/
theorem sorts_readable (complete : o.Complete files.length mergerNum)
    (sorts : Sorts b memory files mergerNum o parts) :
    memory.Readable files.length mergerNum := by
  have held {slot : Name} {array : List U32} (found : withSlot memory slot = .ok array) :
      (memory slot).isSome := by
    rw [withSlot] at found
    cases entry : memory slot with
    | none => rw [entry] at found; cases found
    | some array => rfl
  obtain ⟨s, _, ran, -⟩ := sorts
  obtain ⟨t, first, ran⟩ := Outcome.bind_eq_ok.mp ran
  obtain ⟨u, _, last⟩ := Outcome.bind_eq_ok.mp ran
  constructor
  · intro i bound
    obtain ⟨before, after, sorted⟩ :=
      stage_ran first (complete.sorters.mem_iff.mpr (List.mem_range.mpr bound))
    rw [sorter] at sorted
    split at sorted
    · cases sorted
    · obtain ⟨_, _, sorted⟩ := Outcome.bind_eq_ok.mp sorted
      obtain ⟨array, found, _⟩ := Outcome.bind_eq_ok.mp sorted
      exact held found
  · intro j bound
    obtain ⟨before, after, merged⟩ :=
      stage_ran last (complete.mergers.mem_iff.mpr (List.mem_range.mpr bound))
    rw [merger] at merged
    split at merged
    · cases merged
    · obtain ⟨_, _, merged⟩ := Outcome.bind_eq_ok.mp merged
      obtain ⟨array, found, _⟩ := Outcome.bind_eq_ok.mp merged
      exact held found

/-- The workflow sorts only if the new buffers of the sorters and mergers hold arrays. If the arrays
are empty, it sorts exactly when the first sorter finds pivots, every part reaches past all of them
but the last one, and no number is the largest one. -/
theorem sorts_iff (b : Build) (memory : Memory) (files : List (List Char)) (mergerNum : Nat)
    (o : Orders) (parts : List (List U32)) (parsed : files.map parseContent = parts.map .ok)
    (sorters : 1 ≤ files.length) (mergers : 1 ≤ mergerNum)
    (complete : o.Complete files.length mergerNum) :
    (Sorts b memory files mergerNum o parts → memory.Readable files.length mergerNum) ∧
      (memory.Fresh files.length mergerNum →
        (Sorts b memory files mergerNum o parts ↔ Sortable b mergerNum parts)) :=
  ⟨sorts_readable complete, fun fresh => sorts_fresh_iff fresh parsed sorters mergers complete⟩

end Workflow

/-- Two files and two mergers; the splitters run in reverse order, and some buffers held arrays
before. -/
theorem twoFiles_sort :
    Sorts release (fun | .pivots _ => some [9, 9] | _ => some []) ["7, 2,5,".toList, "3\n".toList] 2
      ⟨[0, 1], [1, 0], [0, 1]⟩ [[7, 2, 5], [3]] := by
  refine ((sorts_iff release _ _ 2 _ _ (by decide) (by decide) (by decide)
    ⟨by decide, by decide, by decide⟩).2 ⟨fun _ _ => rfl, fun _ _ => rfl, fun _ _ _ _ => rfl,
      fun _ _ => rfl⟩).mpr ?_
  refine ⟨by decide, .inr ⟨by decide, by decide, by decide⟩, fun many => absurd many (by decide),
    by decide⟩

/-- With an empty file for the first sorter and two mergers, choosing the pivot panics, also if all
new buffers hold empty arrays. -/
theorem emptyFile_fails :
    ¬ ∀ b files mergerNum o parts, files.map parseContent = parts.map .ok → 1 ≤ files.length →
    1 ≤ mergerNum → Orders.Complete o files.length mergerNum →
      Sorts b (fun _ => some []) files mergerNum o parts := by
  intro sorts
  have complete : Orders.Complete ⟨[0], [0], [0, 1]⟩ 1 2 := ⟨by decide, by decide, by decide⟩
  have parsed : [[]].map parseContent = ([[]] : List (List U32)).map .ok := by decide
  obtain ⟨s, results, ran, -⟩ :=
    sorts release [[]] 2 ⟨[0], [0], [0, 1]⟩ [[]] parsed (by decide) (by decide) complete
  have fresh : Memory.Fresh (fun _ => some []) 1 2 :=
    ⟨fun _ _ => rfl, fun _ _ => rfl, fun _ _ _ _ => rfl, fun _ _ => rfl⟩
  have panics := workflow_panics (b := release) parsed fresh (by decide) complete
    (.inr (by decide))
  rw [panics] at ran
  cases ran

end AlloyStack.User.ParallelSort
