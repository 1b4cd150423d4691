import AlloyStack.Ext4fdtab.RamDisk

/-! `RamDiskDevice`, through which ext4 reaches the driver that holds the disk in memory. A request
is cut at the ends of the blocks, and a write reads each of its blocks first. -/
namespace AlloyStack.Ext4fdtab
open Rust LinearMemory AlloyStack.Ramdisk

namespace RamDiskDevice

/-- What is left in the block of `absOffset`, if no more than `left` bytes are wanted. -/
def toCopy (left absOffset : Nat) : Nat := min left (BLOCK_SIZE - absOffset % BLOCK_SIZE)

theorem toCopy_pos {read len : Nat} (wanted : read < len) (absOffset : Nat) :
    0 < toCopy (len - read) absOffset := by
  have low : absOffset % BLOCK_SIZE < BLOCK_SIZE := Nat.mod_lt _ (by decide)
  simp only [toCopy]
  omega

theorem shrinks {read len : Nat} (wanted : read < len) (absOffset : Nat) :
    len - (read + toCopy (len - read) absOffset) < len - read := by
  have := toCopy_pos wanted absOffset
  omega

section Loops
variable (b : Build)

/-- The loop of `read_offset`: a block that cannot be read makes all of the result zeros. -/
def readLoop (offset len read : Nat) (buf : List UInt8) (d : Memory) : Option (List UInt8) :=
  if read < len then
    (b.add offset read).bind fun absOffset =>
    (d.call b (.readBlock (.ofNat (absOffset / BLOCK_SIZE)) (List.replicate BLOCK_SIZE 0))).bind fun
      | .error _ => some (List.replicate len 0)
      | .ok (blockBuf, d) =>
        readLoop offset len (read + toCopy (len - read) absOffset)
          (store buf read (load blockBuf (absOffset % BLOCK_SIZE) (toCopy (len - read) absOffset)))
            d
  else some buf
termination_by len - read
decreasing_by exact shrinks ‹_› absOffset

/-- How many bytes `read_offset` returns: those of the superblock, or a block. -/
def readLen (offset : Nat) : Nat := if offset = 1024 then 1024 else BLOCK_SIZE

def readOffset (offset : Nat) (d : Memory) : Option (List UInt8) :=
  readLoop b offset (readLen offset) 0 (List.replicate (readLen offset) 0) d

/-- The loop of `write_offset`: it ends at a block that cannot be read or written. -/
def writeLoop (offset : Nat) (data : List UInt8) (written : Nat) (d : Memory) : Option Memory :=
  if written < data.length then
    (b.add offset written).bind fun absOffset =>
    (d.call b (.readBlock (.ofNat (absOffset / BLOCK_SIZE)) (List.replicate BLOCK_SIZE 0))).bind fun
      | .error _ => some d
      | .ok (blockBuf, d) =>
        (d.call b (.writeBlock (.ofNat (absOffset / BLOCK_SIZE))
          (store blockBuf (absOffset % BLOCK_SIZE)
          (load data written (toCopy (data.length - written) absOffset))))).bind fun
          | .error _ => some d
          | .ok (_, d) =>
            writeLoop offset data (written + toCopy (data.length - written) absOffset) d
  else some d
termination_by data.length - written
decreasing_by exact shrinks ‹_› absOffset

def writeOffset (offset : Nat) (data : List UInt8) (d : Memory) : Option Memory :=
  writeLoop b offset data 0 d

end Loops

section Flat
variable {d : Memory} {offset read len : Nat}

theorem toCopy_le (left absOffset : Nat) :
    toCopy left absOffset ≤ left ∧ absOffset % BLOCK_SIZE + toCopy left absOffset ≤ BLOCK_SIZE := by
  have low : absOffset % BLOCK_SIZE < BLOCK_SIZE := Nat.mod_lt _ (by decide)
  simp only [toCopy]
  omega

theorem store_front {first : List UInt8} (length : first.length = start) (piece rest : List UInt8) :
    store (first ++ rest) start piece = first ++ piece ++ rest.drop piece.length := by
  rw [store, List.take_left' length, ← List.drop_drop, List.drop_left' length]

/-- The bytes before `read` are in the buffer. -/
theorem readLoop_eq (b : Build) (aligned : d.Aligned) (inside : offset + len ≤ d.size)
    (left : Nat) (rest : List UInt8) (length : rest.length = left) (whole : read + left = len) :
    readLoop b offset len read (load d.data offset read ++ rest) d =
      some (load d.data offset len) := by
  induction left using Nat.strongRecOn generalizing read rest with
  | ind left ih =>
    rw [readLoop]
    split
    next wanted =>
      have usize := aligned.usize
      have positive := toCopy_pos wanted (offset + read)
      obtain ⟨short, one⟩ := toCopy_le (len - read) (offset + read)
      rw [b.add_eq (by omega), Option.bind_some, aligned.readBlock_eq b (by omega),
        Option.bind_some]
      have front : (load d.data offset read).length = read := load_length (by rw [d.sized]; omega)
      have block :=
        store_front front (load d.data (offset + read) (toCopy (len - read) (offset + read))) rest
      rw [load_length (by rw [d.sized]; omega)] at block
      have piece : load (load d.data ((offset + read) / BLOCK_SIZE * BLOCK_SIZE) BLOCK_SIZE)
          ((offset + read) % BLOCK_SIZE)
          (toCopy (len - read) (offset + read)) =
            load d.data (offset + read) (toCopy (len - read) (offset + read)) := by
        rw [load_load _ _ one, Nat.div_add_mod']
      dsimp only
      rw [piece, block, ← load_add]
      refine ih (left - toCopy (len - read) (offset + read)) (by omega) _ ?_ (by omega)
      rw [List.length_drop, length]
    next done =>
      obtain rfl : left = 0 := by omega
      obtain rfl := List.length_eq_zero_iff.mp length
      rw [List.append_nil, show read = len by omega]

/-- The bytes before `written` are on the disk. -/
theorem writeLoop_eq (b : Build) (data : List UInt8) (aligned : d.Aligned)
    (inside : offset + data.length ≤ d.size) (left : Nat) (whole : written + left = data.length) :
    ∃ d', writeLoop b offset data written d = some d' ∧ d'.size = d.size ∧
      d'.data = store d.data (offset + written) (data.drop written) := by
  induction left using Nat.strongRecOn generalizing written d with
  | ind left ih =>
    rw [writeLoop]
    split
    next wanted =>
      have usize := aligned.usize
      have positive := toCopy_pos wanted (offset + written)
      obtain ⟨short, one⟩ := toCopy_le (data.length - written) (offset + written)
      have piece : (load data written (toCopy (data.length - written) (offset + written))).length =
          toCopy (data.length - written) (offset + written) := load_length (by omega)
      obtain ⟨d₁, answer, stored, size⟩ := aligned.writePiece_eq b (by omega) (piece.symm ▸ one)
      rw [b.add_eq (by omega), Option.bind_some, aligned.readBlock_eq b (by omega),
        Option.bind_some]
      dsimp only
      rw [answer, Option.bind_some]
      have rest : written + toCopy (data.length - written) (offset + written) +
          (left - toCopy (data.length - written) (offset + written)) = data.length := by omega
      have aligned₁ : d₁.Aligned := ⟨size ▸ aligned.blocks, size ▸ usize⟩
      obtain ⟨d', written', size', data'⟩ := ih _ (by omega) aligned₁ (size.symm ▸ inside) rest
      refine ⟨d', written', size'.trans size, ?_⟩
      have cut : data.drop written =
          load data written (toCopy (data.length - written) (offset + written)) ++
          data.drop (written + toCopy (data.length - written) (offset + written)) := by
        rw [load, ← List.drop_drop, List.take_append_drop]
      rw [data', stored, cut, store_append _ _ (by rw [piece, List.length_drop, d.sized]; omega),
        piece, Nat.add_assoc]
    next done => exact ⟨d, rfl, rfl, by rw [List.drop_eq_nil_of_le (by omega), store_nil]⟩

/-- `read_offset` on the flat array. -/
theorem readOffset_eq (b : Build) (aligned : d.Aligned)
    (inside : offset + readLen offset ≤ d.size) :
    readOffset b offset d = some (load d.data offset (readLen offset)) :=
  readLoop_eq b aligned inside (readLen offset) _ List.length_replicate (Nat.zero_add _)

/-- `write_offset` on the flat array. -/
theorem writeOffset_eq (b : Build) (data : List UInt8) (aligned : d.Aligned)
    (inside : offset + data.length ≤ d.size) :
    ∃ d', writeOffset b offset data d = some d' ∧ d'.size = d.size ∧
      d'.data = store d.data offset data :=
  writeLoop_eq b data aligned inside data.length (Nat.zero_add _)

end Flat

/-- A sequence of writes through the device. -/
def writeAll (b : Build) (writes : List (Nat × List UInt8)) (d : Memory) : Option Memory :=
  writes.foldlM (fun d w => writeOffset b w.1 w.2 d) d

/-- The same writes on a flat array. -/
def flatWrites (writes : List (Nat × List UInt8)) (m : List UInt8) : List UInt8 :=
  writes.foldl (fun m w => store m w.1 w.2) m

theorem writeAll_eq (b : Build) (aligned : d.Aligned)
    (inside : ∀ w ∈ writes, w.1 + w.2.length ≤ d.size) :
    ∃ d', writeAll b writes d = some d' ∧ d'.size = d.size ∧
      d'.data = flatWrites writes d.data := by
  induction writes generalizing d with
  | nil => exact ⟨d, rfl, rfl, rfl⟩
  | cons w writes ih =>
    obtain ⟨first, others⟩ := List.forall_mem_cons.mp inside
    obtain ⟨d₁, wrote, size, data⟩ := writeOffset_eq b w.2 aligned first
    obtain ⟨d', rest, size', data'⟩ :=
      ih ⟨size ▸ aligned.blocks, size ▸ aligned.usize⟩ fun w member => size ▸ others w member
    refine ⟨d', ?_, size'.trans size, ?_⟩
    · rw [writeAll, List.foldlM_cons, wrote]
      exact rest
    · rw [data', data]
      rfl

theorem flatWrites_confined (inside : ∀ w ∈ writes, w.1 + w.2.length ≤ m.length) :
    Confined (writes.map fun w => (w.1, w.2.length)) m (flatWrites writes m) := by
  induction writes generalizing m with
  | nil => exact .refl _ _
  | cons w writes ih =>
    obtain ⟨first, others⟩ := List.forall_mem_cons.mp inside
    have one : Confined ((w :: writes).map fun w => (w.1, w.2.length)) m (store m w.1 w.2) :=
      .store (List.mem_cons_self ..) (Nat.le_refl _) (Nat.le_refl _) first
    have rest :=
      ih (m := store m w.1 w.2) fun w' member => (store_length first).symm ▸ others w' member
    exact one.trans (rest.mono fun region member => List.mem_cons_of_mem _ member)

/-- The device is a flat array of bytes, whatever was written to it and however the writes lie. -/
theorem device_flat (b : Build) (d : Memory) (writes : List (Nat × List UInt8))
    (aligned : d.Aligned) (inside : ∀ w ∈ writes, w.1 + w.2.length ≤ d.size) :
    ∃ d', writeAll b writes d = some d' ∧ d'.data = flatWrites writes d.data ∧
      Confined (writes.map fun w => (w.1, w.2.length)) d.data d'.data ∧
      ∀ offset, offset + readLen offset ≤ d.size →
        readOffset b offset d' =
          some (load (flatWrites writes d.data) offset (readLen offset)) := by
  obtain ⟨d', wrote, size, data⟩ := writeAll_eq b aligned inside
  refine ⟨d', wrote, data, ?_, fun offset fits => ?_⟩
  · rw [data]
    exact flatWrites_confined (by rwa [d.sized])
  · rw [← data]
    exact readOffset_eq b ⟨size ▸ aligned.blocks, size ▸ aligned.usize⟩ (size.symm ▸ fits)

/-- Two blocks of zeros. -/
def twoBlocks : Memory := ⟨8192, List.replicate 8192 0, List.length_replicate⟩

theorem twoBlocks_aligned : twoBlocks.Aligned := ⟨rfl, by decide⟩

/-- A write across the end of the first block, and one of nothing at the end of the disk. -/
theorem twoBlocks_flat :
    ∃ d', writeAll release [(4095, [1, 2]), (8192, [])] twoBlocks = some d' ∧
    readOffset release 1024 d' =
      some (load (flatWrites [(4095, [1, 2]), (8192, [])] twoBlocks.data) 1024 1024) := by
  obtain ⟨d', wrote, -, -, reads⟩ :=
    device_flat release twoBlocks [(4095, [1, 2]), (8192, [])] twoBlocks_aligned (by decide)
  exact ⟨d', wrote, reads 1024 (by decide)⟩

end RamDiskDevice
end AlloyStack.Ext4fdtab
