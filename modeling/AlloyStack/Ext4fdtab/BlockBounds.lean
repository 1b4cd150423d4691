import AlloyStack.Ext4fdtab.RamDisk

/-! The bounds check of the two drivers in a release build. The offset of a block is computed modulo
2^64, so that block numbers from 2^52 on come around to the start of the disk. -/
namespace AlloyStack.Ramdisk
open Rust

/-- The offset that a release build computes for a block. -/
def Call.offset (c : Call) : Nat := c.blockId.toNat % 2 ^ 52 * BLOCK_SIZE

/-- The driver answers a call with `Ok` only if its range is on the disk. -/
def Memory.Bounded (d : Memory) (c : Call) : Prop :=
  ∀ answer, d.call release c = some (.ok answer) →
    c.blockId.toNat * BLOCK_SIZE + c.buf.length ≤ d.size

/-- The same for the stream, whatever the file does with a request. -/
def Stream.Bounded (s : Stream) (c : Call) : Prop :=
  ∀ transfer answer, s.call release transfer c = some (.ok answer) →
    c.blockId.toNat * BLOCK_SIZE + c.buf.length ≤ s.size

section Bounds
variable {c : Call} {size : Nat}

theorem Call.offset_eq (c : Call) : c.blockId.toNat * BLOCK_SIZE % word = c.offset := by
  rw [offset, word, BLOCK_SIZE, show 2 ^ 64 = 2 ^ 52 * 4096 by decide, Nat.mul_mod_mul_right]

/-- The checks of a release build, for whole blocks. -/
theorem request_release_iff (blocks : c.buf.length % BLOCK_SIZE = 0) :
    request release size c.blockId c.buf.length = some (.ok offset) ↔
      (c.offset + c.buf.length) % word ≤ size ∧ offset = c.offset := by
  have product : release.mul c.blockId.toNat BLOCK_SIZE = some c.offset := by
    rw [Build.mul, if_neg (by simp [release]), c.offset_eq]
  have sum : release.add c.offset c.buf.length = some ((c.offset + c.buf.length) % word) := by
    rw [Build.add, if_neg (by simp [release])]
  rw [request, product, Option.bind_some, sum, Option.bind_some, blocks, if_neg (not_not_intro rfl)]
  split
  next refused => simp [refused]
  next accepted => simp [Nat.not_lt.mp accepted, eq_comm]

/-- A driver that serves the requests that its checks accept. -/
def served (verdict : DevResult Nat) (serve : Nat → DevResult α) : DevResult α :=
  match verdict with
  | none => none
  | some (.error e) => some (.error e)
  | some (.ok offset) => serve offset

theorem served_ok_iff {verdict : DevResult Nat} {serve : Nat → DevResult α} :
    (∃ answer, served verdict serve = some (.ok answer)) ↔
      ∃ offset, verdict = some (.ok offset) ∧ ∃ answer, serve offset = some (.ok answer) := by
  match verdict with
  | none => simp [served]
  | some (.error e) => simp [served]
  | some (.ok offset) => simp [served]

/-- A slice of the vector that runs over its end panics. -/
theorem Memory.call_ok_iff (d : Memory) :
    (∃ answer, d.call release c = some (.ok answer)) ↔
    ∃ offset, request release d.size c.blockId c.buf.length = some (.ok offset) ∧
      offset + c.buf.length ≤ d.size := by
  have serves : ∃ serve, d.call release c = served (request release d.size c.blockId c.buf.length)
      serve ∧ ∀ offset, (∃ answer, serve offset = some (.ok answer)) ↔
        offset + c.buf.length ≤ d.data.length := by
    cases c with
    | readBlock blockId buf => exact ⟨_, rfl, fun offset => by simp [Call.buf]⟩
    | writeBlock blockId buf => exact ⟨_, rfl, fun offset => by simp [Call.buf]⟩
  obtain ⟨serve, called, room⟩ := serves
  simp only [called, served_ok_iff, room, d.sized]

/-- What the stream does with an accepted request of which some bytes move. -/
def Stream.moves (s : Stream) (offset limit : Nat) : Call → List UInt8 × Stream
  | .readBlock _ buf =>
    let data := s.read offset buf.length limit
    (data ++ buf.drop data.length, s)
  | .writeBlock _ buf => (buf, { s with content := s.write offset (buf.take limit) })

theorem Stream.call_eq (s : Stream) (limit : Nat) :
    s.call release (some limit) c = served (request release s.size c.blockId c.buf.length)
      fun offset =>
        if 2 ^ 63 ≤ offset then some (.error .io) else some (.ok (s.moves offset limit c)) := by
  cases c with
  | readBlock | writeBlock =>
    simp only [Stream.call, served, Call.blockId, Call.buf]
    split <;> simp_all [Stream.moves]

/-- `lseek` refuses an offset from 2^63 on. -/
theorem Stream.call_ok_iff (s : Stream) :
    (∃ transfer answer, s.call release transfer c = some (.ok answer)) ↔
    ∃ offset, request release s.size c.blockId c.buf.length = some (.ok offset) ∧
      offset < 2 ^ 63 := by
  have fails : ∀ answer, s.call release none c ≠ some (.ok answer) := by
    intro answer
    cases c with
    | readBlock | writeBlock =>
      simp only [Stream.call]
      split <;> simp_all
  have serves (limit offset : Nat) : (∃ answer, (if 2 ^ 63 ≤ offset then some (.error .io)
      else some (.ok (s.moves offset limit c)) : DevResult _) = some (.ok answer)) ↔
      offset < 2 ^ 63 := by
    split <;> simp <;> omega
  constructor
  · rintro ⟨_ | limit, answer, ok⟩
    · exact absurd ok (fails answer)
    · rw [s.call_eq] at ok
      simpa only [serves] using served_ok_iff.mp ⟨answer, ok⟩
  · intro accepted
    refine ⟨some 0, ?_⟩
    simpa only [s.call_eq, served_ok_iff, serves] using accepted

/-- A block number from 2^52 on is never on the disk, and its offset is that of a smaller one. -/
theorem bounded_iff (usize : size < word) :
    (c.offset + c.buf.length ≤ size → c.blockId.toNat * BLOCK_SIZE + c.buf.length ≤ size) ↔
      c.blockId.toNat < 2 ^ 52 ∨ size < c.offset + c.buf.length := by
  simp only [Call.offset, word, BLOCK_SIZE] at usize ⊢
  omega

/-- The exact inputs for which the bounds check of a release build holds. -/
theorem block_bounds_iff (d : Memory) (s : Stream) (c : Call) (memorySize : d.size < word)
    (streamSize : s.size < word) (blocks : c.buf.length % BLOCK_SIZE = 0)
    (slice : c.buf.length < 2 ^ 63) :
    (d.Bounded c ↔ c.blockId.toNat < 2 ^ 52 ∨ d.size < c.offset + c.buf.length) ∧
      (s.Bounded c ↔ c.blockId.toNat < 2 ^ 52 ∨ s.size < c.offset + c.buf.length ∨
        2 ^ 63 ≤ c.offset) := by
  have memory : (∃ answer, d.call release c = some (.ok answer)) ↔
      c.offset + c.buf.length ≤ d.size := by
    simp only [d.call_ok_iff, request_release_iff blocks]
    constructor
    · rintro ⟨_, ⟨-, rfl⟩, inside⟩
      exact inside
    · intro inside
      exact ⟨_, ⟨(Nat.mod_le ..).trans inside, rfl⟩, inside⟩
  have stream : (∃ transfer answer, s.call release transfer c = some (.ok answer)) ↔
      c.offset + c.buf.length ≤ s.size ∧ c.offset < 2 ^ 63 := by
    simp only [s.call_ok_iff, request_release_iff blocks]
    constructor
    · rintro ⟨_, ⟨fits, rfl⟩, low⟩
      rw [Nat.mod_eq_of_lt (by rw [word]; omega)] at fits
      exact ⟨fits, low⟩
    · rintro ⟨inside, low⟩
      exact ⟨_, ⟨(Nat.mod_le ..).trans inside, rfl⟩, low⟩
  constructor
  · rw [← bounded_iff memorySize, ← memory, exists_imp]
    rfl
  · have exact := bounded_iff (c := c) streamSize
    rw [← or_assoc, ← exact, Stream.Bounded]
    simp only [← exists_imp, stream]
    omega

/-- A disk of one block, in both drivers. -/
def oneBlock : Pair :=
  ⟨⟨4096, List.replicate 4096 1⟩, ⟨4096, List.replicate 4096 1, List.length_replicate⟩⟩

theorem oneBlock_bounded : oneBlock.memory.Bounded (.writeBlock 1 (List.replicate 4096 0)) ∧
    oneBlock.stream.Bounded (.writeBlock 1 (List.replicate 4096 0)) := by
  obtain ⟨memory, stream⟩ :=
    block_bounds_iff oneBlock.memory oneBlock.stream (.writeBlock 1 (List.replicate 4096 0))
    (by decide) (by decide) (by rw [Call.buf, List.length_replicate]; decide)
      (by rw [Call.buf, List.length_replicate]; decide)
  exact ⟨memory.mpr (.inl (by decide)), stream.mpr (.inl (by decide))⟩

/-- Block number 2^52 is block 0, in both drivers. -/
theorem wrapped_block_written :
    ¬ ∀ (d : Memory) (s : Stream) (c : Call), d.size < word → s.size < word →
    c.buf.length % BLOCK_SIZE = 0 → c.buf.length < 2 ^ 63 → d.Bounded c ∧ s.Bounded c := by
  intro bounded
  have length : (List.replicate 4096 (0 : UInt8)).length = 4096 := List.length_replicate
  obtain ⟨memory, -⟩ :=
    bounded oneBlock.memory oneBlock.stream (.writeBlock (2 ^ 52) (List.replicate 4096 0))
    (by decide) (by decide) (by rw [Call.buf, length]; decide) (by rw [Call.buf, length]; decide)
  have accepted : request release 4096 (2 ^ 52) (List.replicate 4096 (0 : UInt8)).length =
      some (.ok 0) := by
    rw [length]
    decide
  obtain ⟨answer, ok⟩ :=
    (oneBlock.memory.call_ok_iff (c := .writeBlock (2 ^ 52) (List.replicate 4096 0))).mpr
    ⟨0, accepted, by rw [Call.buf, length]; decide⟩
  have inside := memory answer ok
  rw [Call.buf, length] at inside
  revert inside
  decide

end Bounds
end AlloyStack.Ramdisk
