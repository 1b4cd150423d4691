import Mathlib.Data.List.Basic

/-! Loads and stores of ranges in a list of cells: a file's bytes, a disk, the linear memory of a
sandbox. A store that fits changes its own range and nothing else. -/
namespace LinearMemory
variable {α : Type}

/-- The cells from `start` on, at most `len` of them. -/
def load (m : List α) (start len : Nat) : List α := (m.drop start).take len

def store (m : List α) (start : Nat) (data : List α) : List α :=
  m.take start ++ data ++ m.drop (start + data.length)

theorem load_getElem? (m : List α) (start len i : Nat) :
    (load m start len)[i]? = if i < len then m[start + i]? else none := by
  simp only [load, List.getElem?_take, List.getElem?_drop]

theorem load_add (m : List α) (start first second : Nat) :
    load m start (first + second) = load m start first ++ load m (start + first) second := by
  simp only [load, List.take_add, List.drop_drop]

theorem load_length (fits : start + len ≤ m.length) : (load m start len).length = len := by
  simp only [load, List.length_take, List.length_drop]
  omega

theorem load_append_left {first rest : List α} (length : first.length = len) :
    load (first ++ rest) 0 len = first := by
  rw [load, List.drop_zero, List.take_left' length]

theorem load_append_right {first : List α} (length : first.length = skipped) (rest : List α)
    (start len : Nat) :
    load (first ++ rest) (skipped + start) len = load rest start len := by
  rw [load, load, ← length, List.drop_append, List.drop_eq_nil_of_le (by omega), List.nil_append,
    Nat.add_sub_cancel_left]

theorem load_middle {front part : List α} (starts : front.length = start)
    (length : part.length = len) (rest : List α) :
    load (front ++ (part ++ rest)) start len = part := by
  rw [← Nat.add_zero start, load_append_right starts, load_append_left length]

theorem load_load (m : List α) (start : Nat) (inside : shift + n ≤ len) :
    load (load m start len) shift n = load m (start + shift) n := by
  refine List.ext_getElem? fun i => ?_
  simp only [load_getElem?]
  split
  · rw [if_pos (by omega), Nat.add_assoc]
  · rfl

@[simp]
theorem store_length {m data : List α} (fits : start + data.length ≤ m.length) :
    (store m start data).length = m.length := by
  simp only [store, List.length_append, List.length_take, List.length_drop]
  omega

/-- A store may run over the end, which then moves. -/
theorem store_getElem? {m data : List α} (starts : start ≤ m.length) (i : Nat) :
    (store m start data)[i]? = if start ≤ i ∧ i < start + data.length then data[i - start]?
      else m[i]? := by
  have front : (m.take start).length = start := by simp; omega
  unfold store
  by_cases low : i < start
  · rw [List.append_assoc, List.getElem?_append_left (by omega), List.getElem?_take, if_pos low,
      if_neg (by omega)]
  by_cases inside : i < start + data.length
  · rw [List.getElem?_append_left (by simp; omega), List.getElem?_append_right (by omega), front,
      if_pos (by omega)]
  · rw [List.getElem?_append_right (by simp; omega), List.getElem?_drop, if_neg (by omega)]
    congr 1
    simp only [List.length_append, front]
    omega

/-- The frame rule of a store. -/
theorem store_outside {m data : List α} (fits : start + data.length ≤ m.length)
    (outside : i < start ∨ start + data.length ≤ i) : (store m start data)[i]? = m[i]? := by
  rw [store_getElem? (by omega), if_neg (by omega)]

theorem store_nil (m : List α) (start : Nat) : store m start [] = m := by
  simp [store]

theorem load_store {m data : List α} (fits : start + data.length ≤ m.length) :
    load (store m start data) start data.length = data := by
  refine List.ext_getElem? fun i => ?_
  rw [load_getElem?]
  split
  · rw [store_getElem? (by omega), if_pos (by omega), Nat.add_sub_cancel_left]
  · rw [List.getElem?_eq_none (by omega)]

theorem load_store_part {m data : List α} (fits : start + data.length ≤ m.length)
    (inside : shift + n ≤ data.length) :
    load (store m start data) (start + shift) n = load data shift n := by
  rw [← load_load _ start inside, load_store fits]

theorem load_congr {m n : List α} (same : ∀ i, start ≤ i → i < start + len → m[i]? = n[i]?) :
    load m start len = load n start len := by
  refine List.ext_getElem? fun i => ?_
  rw [load_getElem?, load_getElem?]
  split
  · exact same _ (by omega) (by omega)
  · rfl

theorem load_store_apart {m data : List α} (fits : start + data.length ≤ m.length)
    (apart : at' + len ≤ start ∨ start + data.length ≤ at') :
    load (store m start data) at' len = load m at' len :=
  load_congr fun i low high => store_outside fits (by omega)

/-- Two regions, each given by its start and length, have a cell in common. -/
def Overlap (a b : Nat × Nat) : Prop := ∃ i, (a.1 ≤ i ∧ i < a.1 + a.2) ∧ b.1 ≤ i ∧ i < b.1 + b.2

theorem Overlap.symm (overlap : Overlap a b) : Overlap b a := by
  obtain ⟨i, first, second⟩ := overlap
  exact ⟨i, second, first⟩

theorem Overlap.widen (overlap : Overlap a (start, len)) (low : start' ≤ start)
    (high : start + len ≤ start' + len') :
    Overlap a (start', len') := by
  obtain ⟨i, first, second⟩ := overlap
  simp only at second
  exact ⟨i, first, by simp only; omega⟩

/-- Regions that are not empty have no cell in common if one of them ends before the other
begins. -/
theorem not_overlap_iff (some : 0 < len) (some' : 0 < len') :
    ¬ Overlap (start, len) (start', len') ↔ start + len ≤ start' ∨ start' + len' ≤ start := by
  constructor
  · intro apart
    by_contra between
    exact apart ⟨max start start', by simp only; omega, by simp only; omega⟩
  · rintro apart ⟨i, first, second⟩
    simp only at first second
    omega

/-- Storing less than a range has the rest of the range behind the new cells. -/
theorem load_store_front {m data : List α} (fits : start + len ≤ m.length)
    (part : data.length ≤ len) :
    load (store m start data) start len = data ++ (load m start len).drop data.length := by
  have split : len = data.length + (len - data.length) := by omega
  have rest : (load m start len).drop data.length =
      load m (start + data.length) (len - data.length) := by
    rw [split, load_add, List.drop_left' (load_length (by omega)), Nat.add_sub_cancel_left]
  rw [rest]
  conv_lhs => rw [split]
  rw [load_add, load_store (by omega), load_store_apart (by omega) (by omega)]

/-- Storing the cells that are there changes nothing. -/
theorem store_load {m : List α} (fits : start + len ≤ m.length) :
    store m start (load m start len) = m := by
  refine List.ext_getElem? fun i => ?_
  rw [store_getElem? (by omega), load_length fits]
  split
  · rw [load_getElem?, if_pos (by omega), Nat.add_sub_cancel' (by omega)]
  · rfl

/-- A part of a block is changed by way of a copy of the block. -/
theorem store_store_load {m data : List α} (fits : start + len ≤ m.length)
    (inside : shift + data.length ≤ len) :
    store m start (store (load m start len) shift data) = store m (start + shift) data := by
  have block := load_length fits
  have length : (store (load m start len) shift data).length = len := by
    rw [store_length (by omega), block]
  refine List.ext_getElem? fun i => ?_
  rw [store_getElem? (by omega), store_getElem? (by omega), store_getElem? (by omega), length]
  by_cases written : start + shift ≤ i ∧ i < start + shift + data.length
  · rw [if_pos (by omega), if_pos (by omega), if_pos written, Nat.sub_sub]
  · rw [if_neg written]
    split
    · rw [if_neg (by omega), load_getElem?, if_pos (by omega), Nat.add_sub_cancel' (by omega)]
    · rfl

theorem store_append {m : List α} (first second : List α)
    (fits : start + first.length + second.length ≤ m.length) :
    store m start (first ++ second) =
      store (store m start first) (start + first.length) second := by
  refine List.ext_getElem? fun i => ?_
  rw [store_getElem? (by omega), store_getElem? (by rw [store_length (by omega)]; omega),
    store_getElem? (by omega), List.length_append]
  by_cases late : start + first.length ≤ i
  · rw [List.getElem?_append_right (by omega), Nat.sub_sub]
    simp only [late, Nat.not_lt.mpr late, and_false, if_false, true_and]
    congr 1
    rw [← Nat.add_assoc]
    exact propext (and_iff_right (by omega))
  · rw [if_neg (by omega : ¬ (start + first.length ≤ i ∧ _))]
    split
    · rw [List.getElem?_append_left (by omega), if_pos (by omega)]
    · rw [if_neg (by omega)]

theorem store_eq_self_iff {m data : List α} (fits : start + data.length ≤ m.length) :
    store m start data = m ↔ data = load m start data.length := by
  constructor
  · intro same
    have kept := load_store fits
    rw [same] at kept
    exact kept.symm
  · intro same
    rw [same]
    exact store_load fits

/-- Storing a front part has the same effect as storing the whole exactly when the rest is there. -/
theorem store_take_iff {m data : List α} (fits : start + data.length ≤ m.length)
    (part : n ≤ data.length) :
    store m start data = store m start (data.take n) ↔
      data.drop n = load m (start + n) (data.length - n) := by
  have front : (data.take n).length = n := by simp; omega
  have rest : (data.drop n).length = data.length - n := by simp
  have joined := store_append (data.take n) (data.drop n) (show start + _ + _ ≤ m.length by omega)
  rw [List.take_append_drop, front] at joined
  rw [joined, store_eq_self_iff (by rw [store_length (by omega)]; omega), rest,
    load_store_apart (by omega) (by omega)]

section Frames
variable {regions : List (Nat × Nat)} {m m' data : List α}

/-- The second memory differs from the first inside the regions only, each given by its start and
length. -/
structure Confined (regions : List (Nat × Nat)) (m m' : List α) : Prop where
  length : m'.length = m.length
  outside : ∀ i, (∀ region ∈ regions, ¬ (region.1 ≤ i ∧ i < region.1 + region.2)) → m'[i]? = m[i]?

theorem Confined.refl (regions : List (Nat × Nat)) (m : List α) : Confined regions m m :=
  ⟨rfl, fun _ _ => rfl⟩

theorem Confined.trans (first : Confined regions m m') (second : Confined regions m' m'') :
    Confined regions m m'' :=
  ⟨second.length.trans first.length,
    fun i outside => (second.outside i outside).trans (first.outside i outside)⟩

theorem Confined.mono (confined : Confined regions m m')
    (more : ∀ region ∈ regions, region ∈ regions') :
    Confined regions' m m' :=
  ⟨confined.length, fun i outside => confined.outside i fun region member =>
    outside region (more region member)⟩

theorem Confined.store (member : (from', len) ∈ regions) (low : from' ≤ start)
    (high : start + data.length ≤ from' + len) (fits : start + data.length ≤ m.length) :
    Confined regions m (store m start data) := by
  refine ⟨store_length fits, fun i outside => store_outside fits ?_⟩
  have apart := outside _ member
  simp only at apart
  omega

theorem Confined.load (confined : Confined regions m m')
    (apart : ∀ region ∈ regions, ¬ Overlap region (start, len)) :
    load m' start len = load m start len :=
  load_congr fun i low high => confined.outside i fun region member inside =>
    apart region member ⟨i, inside, low, high⟩

/-- A store that runs over the end of its region is confined to it when the rest is there
already. -/
theorem confined_store_iff (len : Nat) (fits : start + data.length ≤ m.length)
    (part : len ≤ data.length) :
    Confined [(start, len)] m (LinearMemory.store m start data) ↔
      data.drop len = LinearMemory.load m (start + len) (data.length - len) := by
  rw [← store_take_iff fits part]
  have front : (data.take len).length = len := by simp; omega
  constructor
  · intro confined
    refine List.ext_getElem? fun i => ?_
    rw [store_getElem? (by omega), store_getElem? (by omega), front]
    by_cases inside : start ≤ i ∧ i < start + len
    · rw [if_pos (by omega), if_pos inside, List.getElem?_take, if_pos (by omega)]
    · have kept := confined.outside i (by simpa using inside)
      rw [store_getElem? (by omega)] at kept
      rw [if_neg inside, kept]
  · intro same
    rw [same]
    exact .store (List.mem_singleton_self (start, len)) (Nat.le_refl _) (by omega) (by omega)

end Frames
end LinearMemory
