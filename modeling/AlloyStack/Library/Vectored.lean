import Mathlib.Data.List.Basic

/-! Transfers between a list of blocks and one stream, where each request may be cut short: `counts
i` is the most that request `i` moves. -/
namespace Vectored
variable {α : Type} (counts : Nat → Nat) (file : Nat → α)

/-- What a sequence of writes hands over: a front part of each block. -/
def gather : (i : Nat) → List (List α) → List α
  | _, [] => []
  | i, block :: blocks => block.take (counts i) ++ gather (i + 1) blocks

/-- How much the requests of these lengths move. -/
def total : (i : Nat) → List Nat → Nat
  | _, [] => 0
  | i, len :: lens => min (counts i) len + total (i + 1) lens

def slice (pos n : Nat) : List α := (List.range n).map fun j => file (pos + j)

/-- The blocks after a sequence of reads, each of which fills a front part. -/
def scatter : (i pos : Nat) → List (List α) → List (List α)
  | _, _, [] => []
  | i, pos, block :: blocks =>
    (slice file pos (min (counts i) block.length) ++ block.drop (counts i)) ::
      scatter (i + 1) (pos + min (counts i) block.length) blocks

/-- Nothing is moved after a request that was cut short. -/
def NoGap : (i : Nat) → List Nat → Prop
  | _, [] => True
  | i, len :: lens => (counts i < len → total counts (i + 1) lens = 0) ∧ NoGap (i + 1) lens

variable {counts file} {i pos : Nat} {lens : List Nat}

@[simp]
theorem slice_length (file : Nat → α) (pos n : Nat) : (slice file pos n).length = n := by
  simp [slice]

theorem slice_add (file : Nat → α) (pos n m : Nat) :
    slice file pos (n + m) = slice file pos n ++ slice file (pos + n) m := by
  simp only [slice, List.range_add, List.map_append, List.map_map, Function.comp_def, Nat.add_assoc]

theorem noGap_of_total (zero : total counts i lens = 0) : NoGap counts i lens := by
  induction lens generalizing i with
  | nil => trivial
  | cons len lens ih =>
    rw [total] at zero
    exact ⟨fun _ => by omega, ih (by omega)⟩

section Blocks
variable {blocks : List (List α)}

theorem gather_length (blocks : List (List α)) :
    (gather counts i blocks).length = total counts i (blocks.map List.length) := by
  induction blocks generalizing i with
  | nil => rfl
  | cons block blocks ih =>
    rw [gather, List.length_append, List.length_take, ih, List.map_cons, total]

theorem gather_prefix (blocks : List (List α)) (noGap : NoGap counts i (blocks.map List.length)) :
    gather counts i blocks <+: blocks.flatten := by
  induction blocks generalizing i with
  | nil => exact List.prefix_rfl
  | cons block blocks ih =>
    obtain ⟨short, later⟩ := noGap
    rw [gather, List.flatten_cons]
    by_cases cut : counts i < block.length
    · have nothing : gather counts (i + 1) blocks = [] :=
        List.length_eq_zero_iff.mp (by rw [gather_length, short cut])
      rw [nothing, List.append_nil]
      exact (List.take_prefix ..).trans (List.prefix_append ..)
    · rw [List.take_of_length_le (by omega)]
      exact (List.prefix_append_right_inj block).mpr (ih later)

theorem scatter_front (file : Nat → α) (pos : Nat) (blocks : List (List α))
    (noGap : NoGap counts i (blocks.map List.length)) :
    (scatter counts file i pos blocks).flatten.take (total counts i (blocks.map List.length)) =
      slice file pos (total counts i (blocks.map List.length)) := by
  induction blocks generalizing i pos with
  | nil => rfl
  | cons block blocks ih =>
    obtain ⟨short, later⟩ := noGap
    rw [scatter, List.flatten_cons, List.map_cons, total, List.append_assoc, slice_add]
    by_cases cut : counts i < block.length
    · rw [short cut, Nat.add_zero, List.take_left' (slice_length ..)]
      simp [slice]
    · rw [List.drop_eq_nil_of_le (by omega), List.nil_append, List.take_append, slice_length,
        List.take_of_length_le (by rw [slice_length]; omega), Nat.add_sub_cancel_left, ih _ later]

/-- The first element that is moved is the first one of some block. -/
theorem gather_head (some : 0 < total counts i lens) :
    ∃ t len, lens[t]? = .some len ∧ 0 < len ∧
    ∀ blocks : List (List α), blocks.map List.length = lens →
      (gather counts i blocks)[0]? = (blocks.getD t [])[0]? := by
  induction lens generalizing i with
  | nil => simp [total] at some
  | cons len lens ih =>
    rw [total] at some
    by_cases first : 0 < min (counts i) len
    · refine ⟨0, len, rfl, by omega, fun blocks lengths => ?_⟩
      cases blocks with
      | nil => cases lengths
      | cons block blocks =>
        obtain ⟨rfl, -⟩ := List.cons.inj lengths
        rw [gather, List.getElem?_append_left (by rw [List.length_take]; omega), List.getElem?_take,
          if_pos (by omega)]
        rfl
    · obtain ⟨t, len', located, positive, heads⟩ := ih (i := i + 1) (by omega)
      refine ⟨t + 1, len', located, positive, fun blocks lengths => ?_⟩
      cases blocks with
      | nil => cases lengths
      | cons block blocks =>
        obtain ⟨rfl, rest⟩ := List.cons.inj lengths
        have nothing : block.take (counts i) = [] :=
          List.length_eq_zero_iff.mp (by rw [List.length_take]; omega)
        rw [gather, nothing, List.nil_append, heads blocks rest]
        rfl

/-- After a gap, the stream goes on like the blocks only if two elements of the blocks are the
same. -/
theorem gap_gather (gap : ¬ NoGap counts i lens) :
    ∃ s t len len', s < t ∧ lens[s]? = some len ∧ counts (i + s) < len ∧
    lens[t]? = some len' ∧ 0 < len' ∧ ∀ blocks : List (List α), blocks.map List.length = lens →
      gather counts i blocks <+: blocks.flatten →
        (blocks.getD s [])[counts (i + s)]? = (blocks.getD t [])[0]? := by
  induction lens generalizing i with
  | nil => exact absurd trivial gap
  | cons len lens ih =>
    by_cases cut : counts i < len ∧ 0 < total counts (i + 1) lens
    · obtain ⟨short, more⟩ := cut
      obtain ⟨t, len', located, positive, heads⟩ := gather_head (α := α) more
      refine ⟨0, t + 1, len, len', by omega, rfl, short, located, positive,
        fun blocks lengths front => ?_⟩
      cases blocks with
      | nil => cases lengths
      | cons block blocks =>
        obtain ⟨rfl, rest⟩ := List.cons.inj lengths
        obtain ⟨tail, whole⟩ := front
        have width : (block.take (counts i)).length = counts i := by rw [List.length_take]; omega
        have moved : (gather counts (i + 1) blocks).length = total counts (i + 1) lens := by
          rw [gather_length, rest]
        have same := congrArg (·[counts i]?) whole
        simp only [gather, List.flatten_cons, List.append_assoc] at same
        rw [List.getElem?_append_right (by omega), width, Nat.sub_self,
          List.getElem?_append_left (by omega), heads blocks rest,
          List.getElem?_append_left short] at same
        exact same.symm
    · have later : ¬ NoGap counts (i + 1) lens := fun noGap => gap ⟨fun short => by omega, noGap⟩
      have full : ¬ counts i < len := fun short => later (noGap_of_total (by omega))
      obtain ⟨s, t, len', len'', before, located, short, located', positive, same⟩ := ih later
      refine ⟨s + 1, t + 1, len', len'', by omega, located, by rwa [Nat.add_right_comm] at short,
        located', positive, ?_⟩
      intro blocks lengths front
      cases blocks with
      | nil => cases lengths
      | cons block blocks =>
        obtain ⟨rfl, rest⟩ := List.cons.inj lengths
        rw [gather, List.flatten_cons, List.take_of_length_le (by omega),
          List.prefix_append_right_inj] at front
        have equal := same blocks rest front
        rwa [Nat.add_right_comm] at equal

/-- After a gap, the front of the blocks is the stream only if an element that no request moved is
the same as one of the stream. -/
theorem gap_scatter (file : Nat → α) (pos : Nat) (gap : ¬ NoGap counts i lens) :
    ∃ s len q, lens[s]? = some len ∧ counts (i + s) < len ∧
      ∀ blocks : List (List α), blocks.map List.length = lens →
      (scatter counts file i pos blocks).flatten.take (total counts i lens) =
        slice file pos (total counts i lens) →
      (blocks.getD s [])[counts (i + s)]? = some (file q) := by
  induction lens generalizing i pos with
  | nil => exact absurd trivial gap
  | cons len lens ih =>
    by_cases cut : counts i < len ∧ 0 < total counts (i + 1) lens
    · obtain ⟨short, more⟩ := cut
      refine ⟨0, len, pos + counts i, rfl, short, fun blocks lengths front => ?_⟩
      cases blocks with
      | nil => cases lengths
      | cons block blocks =>
        obtain ⟨rfl, rest⟩ := List.cons.inj lengths
        have same := congrArg (·[counts i]?) front
        have least : min (counts i) block.length = counts i := by omega
        simp only [scatter, total, List.flatten_cons, List.append_assoc, least] at same
        rw [List.getElem?_take, if_pos (by omega), List.getElem?_append_right (by simp),
          slice_length, Nat.sub_self, List.getElem?_append_left (by rw [List.length_drop]; omega),
          List.getElem?_drop, Nat.add_zero] at same
        rw [show (block :: blocks).getD 0 [] = block from rfl, Nat.add_zero, same]
        simp [slice, more]
    · have later : ¬ NoGap counts (i + 1) lens := fun noGap => gap ⟨fun short => by omega, noGap⟩
      have full : ¬ counts i < len := fun short => later (noGap_of_total (by omega))
      obtain ⟨s, len', q, located, short, same⟩ := ih (pos + len) later
      refine ⟨s + 1, len', q, located, by rwa [Nat.add_right_comm] at short, ?_⟩
      intro blocks lengths front
      cases blocks with
      | nil => cases lengths
      | cons block blocks =>
        obtain ⟨rfl, rest⟩ := List.cons.inj lengths
        have least : min (counts i) block.length = block.length := by omega
        rw [scatter, total, List.flatten_cons, least, List.drop_eq_nil_of_le (by omega),
          List.append_nil, slice_add, List.take_append, slice_length,
          List.take_of_length_le (by rw [slice_length]; omega), Nat.add_sub_cancel_left] at front
        have equal := same blocks rest (List.append_cancel_left front)
        rwa [Nat.add_right_comm] at equal

end Blocks
end Vectored
