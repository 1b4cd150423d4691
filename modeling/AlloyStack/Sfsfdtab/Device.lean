import AlloyStack.Ext4fdtab.RamDisk
import AlloyStack.Library.Transition

/-! `RamDiskDevice`, through which the simple file system reaches the driver that holds the disk in
memory. A request is served from one block, by way of a copy of that block. For the requests of a
client that keeps to blocks the device is a plain memory. -/
namespace AlloyStack.Sfsfdtab
open Rust LinearMemory Transition AlloyStack.Ramdisk

/-- `RamDisk::new`, with `none` for a vector of more than `isize::MAX` bytes. -/
def RamDisk.new (sizeHint : Nat) : Option Memory :=
  if alignUp sizeHint < 2 ^ 63 then
    some ⟨alignUp sizeHint, List.replicate (alignUp sizeHint) 0, List.length_replicate⟩
  else none

namespace RamDiskDevice

/-- The bytes that are read, whose number is the result. -/
def readAt (b : Build) (d : Memory) (offset len : Nat) : Option (Except Unit (List UInt8)) :=
  let blockId := offset / BLOCK_SIZE
  let blockOffset := offset % BLOCK_SIZE
  let readLen := min len (BLOCK_SIZE - blockOffset)
  (d.call b (.readBlock (.ofNat blockId) (List.replicate BLOCK_SIZE 0))).map fun
    | .ok (blockBuf, _) => .ok (load blockBuf blockOffset readLen)
    | .error _ => .error ()

def writeAt (b : Build) (d : Memory) (offset : Nat) (buf : List UInt8) :
    Option (Except Unit Nat × Memory) :=
  let blockId := offset / BLOCK_SIZE
  let blockOffset := offset % BLOCK_SIZE
  let writeLen := min buf.length (BLOCK_SIZE - blockOffset)
  (d.call b (.readBlock (.ofNat blockId) (List.replicate BLOCK_SIZE 0))).bind fun
    | .ok (blockBuf, d) =>
      (d.call b (.writeBlock (.ofNat blockId) (store blockBuf blockOffset (buf.take writeLen)))).map
        fun
        | .ok (_, d) => (.ok writeLen, d)
        | .error _ => (.error (), d)
    | .error _ => some (.error (), d)

end RamDiskDevice

/-- What code over `rcore_fs::dev::Device` does, by the answers that it gets from the device. -/
inductive Program (α : Type) where
  | done (value : α)
  | readAt (offset len : Nat) (next : Except Unit (List UInt8) → Program α)
  | writeAt (offset : Nat) (buf : List UInt8) (next : Except Unit Nat → Program α)
  | sync (next : Except Unit Unit → Program α)
  | panicked

namespace Program

/-- The program on `RamDiskDevice`. Its `sync` flushes a disk that has nothing to flush. -/
def run (b : Build) : Program α → Memory → Option (α × Memory)
  | done value, d => some (value, d)
  | readAt offset len next, d =>
    (RamDiskDevice.readAt b d offset len).bind fun answer => (next answer).run b d
  | writeAt offset buf next, d =>
    (RamDiskDevice.writeAt b d offset buf).bind fun (answer, d) => (next answer).run b d
  | sync next, d => (next (.ok ())).run b d
  | panicked, _ => none

/-- A request that does not leave its block, nor the device. -/
def InBlock (size offset len : Nat) : Prop := offset % BLOCK_SIZE + len ≤ BLOCK_SIZE ∧ offset < size

instance (size offset len : Nat) : Decidable (InBlock size offset len) :=
  inferInstanceAs (Decidable (_ ∧ _))

/-- The program on a memory that serves every request inside a block in full, if it keeps to
these. -/
def flat : Program α → List UInt8 → Option (α × List UInt8)
  | done value, m => some (value, m)
  | readAt offset len next, m =>
    if InBlock m.length offset len then (next (.ok (load m offset len))).flat m else none
  | writeAt offset buf next, m =>
    if InBlock m.length offset buf.length then (next (.ok buf.length)).flat (store m offset buf)
    else none
  | sync next, m => (next (.ok ())).flat m
  | panicked, _ => none

end Program

/-- A disk of whole blocks that fits into a vector. -/
structure Whole (d : Memory) : Prop where
  blocks : d.size % BLOCK_SIZE = 0
  small : d.size < 2 ^ 63

theorem Whole.aligned (whole : Whole d) : d.Aligned where
  blocks := whole.blocks
  usize := Nat.lt_trans whole.small (by decide)

theorem RamDisk.new_whole (made : RamDisk.new sizeHint = some d) :
    Whole d ∧ d.data = List.replicate (alignUp sizeHint) 0 := by
  unfold new at made
  split at made
  · cases made
    exact ⟨⟨Nat.mul_mod_left .., ‹_›⟩, rfl⟩
  · cases made

namespace RamDiskDevice
variable {d : Memory} {buf : List UInt8}

/-- A call reads up to the end of the block. -/
theorem readAt_short (b : Build) (aligned : d.Aligned) (inside : offset < d.size) (len : Nat) :
    readAt b d offset len =
      some (.ok (load d.data offset (min len (BLOCK_SIZE - offset % BLOCK_SIZE)))) := by
  have low : offset % BLOCK_SIZE < BLOCK_SIZE := Nat.mod_lt _ (by decide)
  simp only [readAt, aligned.readBlock_eq b inside, Option.map_some]
  rw [load_load _ _ (by omega), Nat.div_add_mod']

/-- A call writes up to the end of the block. -/
theorem writeAt_short (b : Build) (aligned : d.Aligned) (inside : offset < d.size)
    (buf : List UInt8) :
    ∃ d', writeAt b d offset buf =
      some (.ok (min buf.length (BLOCK_SIZE - offset % BLOCK_SIZE)), d') ∧
      d'.data = store d.data offset (buf.take (min buf.length (BLOCK_SIZE - offset % BLOCK_SIZE))) ∧
        d'.size = d.size := by
  have low : offset % BLOCK_SIZE < BLOCK_SIZE := Nat.mod_lt _ (by decide)
  obtain ⟨d', answer, data, size⟩ := aligned.writePiece_eq b inside
    (show offset % BLOCK_SIZE +
      (buf.take (min buf.length (BLOCK_SIZE - offset % BLOCK_SIZE))).length ≤ BLOCK_SIZE by
      rw [List.length_take]; omega)
  refine ⟨d', ?_, data, size⟩
  simp only [writeAt, aligned.readBlock_eq b inside, Option.bind_some, answer, Option.map_some]

theorem readAt_eq (b : Build) (whole : Whole d) (request : Program.InBlock d.size offset len) :
    readAt b d offset len = some (.ok (load d.data offset len)) := by
  obtain ⟨one, inside⟩ := request
  rw [readAt_short b whole.aligned inside, Nat.min_eq_left (Nat.le_sub_of_add_le' one)]

theorem writeAt_eq (b : Build) (whole : Whole d)
    (request : Program.InBlock d.size offset buf.length) :
    ∃ d', writeAt b d offset buf = some (.ok buf.length, d') ∧ d'.data = store d.data offset buf ∧
      d'.size = d.size := by
  obtain ⟨one, inside⟩ := request
  obtain ⟨d', answer, data, size⟩ := writeAt_short b whole.aligned inside buf
  rw [Nat.min_eq_left (Nat.le_sub_of_add_le' one)] at answer data
  rw [List.take_length] at data
  exact ⟨d', answer, data, size⟩

end RamDiskDevice

/-- On `RamDiskDevice` a program that keeps to blocks does what it does on a plain memory. -/
theorem Program.run_of_flat (b : Build) {p : Program α} (whole : Whole d)
    (flat : p.flat d.data = some (value, m)) :
    ∃ d', p.run b d = some (value, d') ∧ d'.data = m ∧ d'.size = d.size := by
  induction p generalizing d with
  | done result =>
    cases flat
    exact ⟨d, rfl, rfl, rfl⟩
  | readAt offset len next ih =>
    simp only [Program.flat, d.sized] at flat
    split at flat
    · obtain ⟨d', runs, rest⟩ := ih _ whole flat
      refine ⟨d', ?_, rest⟩
      rw [run, RamDiskDevice.readAt_eq b whole ‹_›, Option.bind_some, runs]
    · cases flat
  | writeAt offset buf next ih =>
    simp only [Program.flat, d.sized] at flat
    split at flat
    · obtain ⟨d₁, answer, data, size⟩ := RamDiskDevice.writeAt_eq b whole ‹_›
      rw [← data] at flat
      obtain ⟨d', runs, stored, size'⟩ := ih _ ⟨size ▸ whole.blocks, size ▸ whole.small⟩ flat
      refine ⟨d', ?_, stored, size'.trans size⟩
      simp only [run, answer, Option.bind_some, runs]
    · cases flat
  | sync next ih => exact ih _ whole flat
  | panicked => cases flat

section Retries
variable (b : Build)

/-- A caller that reads on from where the last call stopped: what it has, and what it still
wants. -/
structure Reading where
  offset : Nat
  left : Nat
  got : List UInt8

inductive ReadStep (d : Memory) : Reading → Nat → Reading → Prop where
  | call : 0 < r.left → RamDiskDevice.readAt b d r.offset r.left = some (.ok data) →
      ReadStep d r data.length ⟨r.offset + data.length, r.left - data.length, r.got ++ data⟩

/-- A caller that writes on from where the last call stopped. -/
structure Writing where
  disk : Memory
  offset : Nat
  rest : List UInt8

inductive WriteStep : Writing → Nat → Writing → Prop where
  | call : w.rest ≠ [] → RamDiskDevice.writeAt b w.disk w.offset w.rest = some (.ok n, d) →
      WriteStep w n ⟨d, w.offset + n, w.rest.drop n⟩

end Retries

section Finishing
variable {b : Build} {d : Memory} {offset len : Nat} {buf : List UInt8}

/-- What a caller has that began to read `len` bytes at `offset`. -/
structure Reading.Partly (d : Memory) (offset len : Nat) (r : Reading) : Prop where
  done : r.offset + r.left = offset + len
  got : r.got ++ load d.data r.offset r.left = load d.data offset len

/-- The disk of a caller that began to write `buf` at `offset`. -/
structure Writing.Partly (d : Memory) (offset : Nat) (buf : List UInt8) (w : Writing) : Prop where
  size : w.disk.size = d.size
  done : w.offset + w.rest.length = offset + buf.length
  data : store w.disk.data w.offset w.rest = store d.data offset buf

theorem transfer_progress (offset : Nat) (left : 0 < len) :
    0 < min len (BLOCK_SIZE - offset % BLOCK_SIZE) := by
  have low : offset % BLOCK_SIZE < BLOCK_SIZE := Nat.mod_lt _ (by decide)
  omega

theorem Reading.Partly.call (aligned : d.Aligned) (inside : offset + len ≤ d.size)
    (partly : Reading.Partly d offset len r) (left : 0 < r.left) :
    ∃ data, RamDiskDevice.readAt b d r.offset r.left = some (.ok data) ∧
      data = load d.data r.offset data.length ∧ 0 < data.length ∧ data.length ≤ r.left := by
  have done := partly.done
  have progress := transfer_progress r.offset left
  have length : (load d.data r.offset (min r.left (BLOCK_SIZE - r.offset % BLOCK_SIZE))).length =
      min r.left (BLOCK_SIZE - r.offset % BLOCK_SIZE) := load_length (by rw [d.sized]; omega)
  exact ⟨_, RamDiskDevice.readAt_short b aligned (by omega) r.left, by rw [length], by rwa [length],
    by rw [length]; omega⟩

theorem Reading.Partly.step (aligned : d.Aligned) (inside : offset + len ≤ d.size)
    (partly : Reading.Partly d offset len r) (stepped : ReadStep b d r n r') :
    Reading.Partly d offset len r' ∧ 0 < n ∧ r'.left < r.left := by
  cases stepped with
  | call left answer =>
    obtain ⟨data, answer', bytes, positive, short⟩ := partly.call (b := b) aligned inside left
    obtain rfl : data = _ := Except.ok.inj (Option.some.inj (answer'.symm.trans answer))
    refine ⟨⟨?_, ?_⟩, positive, Nat.sub_lt left positive⟩
    · have done := partly.done
      dsimp only
      omega
    · have rest := load_add d.data r.offset data.length (r.left - data.length)
      rw [Nat.add_sub_cancel' short, ← bytes] at rest
      rw [← partly.got, rest, List.append_assoc]

theorem Writing.Partly.call (aligned : d.Aligned) (inside : offset + buf.length ≤ d.size)
    (partly : Writing.Partly d offset buf w) (left : w.rest ≠ []) :
    ∃ n d', RamDiskDevice.writeAt b w.disk w.offset w.rest = some (.ok n, d') ∧
      d'.data = store w.disk.data w.offset (w.rest.take n) ∧ d'.size = w.disk.size ∧ 0 < n ∧
        n ≤ w.rest.length := by
  have done := partly.done
  have more := List.length_pos_iff.mpr left
  have aligned' : w.disk.Aligned := ⟨partly.size ▸ aligned.blocks, partly.size ▸ aligned.usize⟩
  have inside' : w.offset < w.disk.size := by
    rw [partly.size]
    omega
  obtain ⟨d', answer, data, size⟩ := RamDiskDevice.writeAt_short b aligned' inside' w.rest
  exact ⟨_, d', answer, data, size, transfer_progress _ more, Nat.min_le_left ..⟩

theorem Writing.Partly.step (aligned : d.Aligned) (inside : offset + buf.length ≤ d.size)
    (partly : Writing.Partly d offset buf w) (stepped : WriteStep b w n w') :
    Writing.Partly d offset buf w' ∧ 0 < n ∧ w'.rest.length < w.rest.length := by
  cases stepped with
  | call left answer =>
    obtain ⟨n', d'', answer', data, size, positive, short⟩ :=
      partly.call (b := b) aligned inside left
    obtain ⟨same, rfl⟩ := Prod.mk.inj (Option.some.inj (answer.symm.trans answer'))
    obtain rfl : n = n' := Except.ok.inj same
    have done := partly.done
    refine ⟨⟨size.trans partly.size, ?_, ?_⟩, positive, ?_⟩
    · simp only [List.length_drop]
      omega
    · have front : (w.rest.take n).length = n := List.length_take_of_le short
      have joined : store w.disk.data w.offset (w.rest.take n ++ w.rest.drop n) =
          store (store w.disk.data w.offset (w.rest.take n)) (w.offset + (w.rest.take n).length)
            (w.rest.drop n) :=
        store_append _ _ (by rw [front, List.length_drop, w.disk.sized, partly.size]; omega)
      rw [List.take_append_drop, front] at joined
      rw [data, ← joined, partly.data]
    · rw [List.length_drop]
      omega

/-- A caller that goes on after every short count has read, or written, the range of the flat array:
it cannot make more calls than there are bytes, and it is never stuck before it is done. -/
theorem retries_flat (b : Build) (d : Memory) (aligned : d.Aligned) :
    (∀ offset len, offset + len ≤ d.size → ∀ ns r, Run (ReadStep b d) ⟨offset, len, []⟩ ns r →
      (∀ n ∈ ns, 0 < n) ∧ ns.length ≤ len ∧
        (r.left = 0 ∧ r.got = load d.data offset len ∨ 0 < r.left ∧ ∃ n r', ReadStep b d r n r')) ∧
    ∀ offset buf, offset + buf.length ≤ d.size → ∀ ns w, Run (WriteStep b) ⟨d, offset, buf⟩ ns w →
      (∀ n ∈ ns, 0 < n) ∧ ns.length ≤ buf.length ∧
        (w.rest = [] ∧ w.disk.data = store d.data offset buf ∨ w.rest ≠ [] ∧
          ∃ n w', WriteStep b w n w') := by
  constructor
  · intro offset len inside ns r run
    have start : Reading.Partly d offset len ⟨offset, len, []⟩ := ⟨rfl, rfl⟩
    have partly : Reading.Partly d offset len r :=
      run.stable (P := Reading.Partly d offset len)
        (fun held stepped => (held.step aligned inside stepped).1) start
    have calls := run.bounded (fun held stepped => (held.step aligned inside stepped).1)
      (fun held stepped => (held.step aligned inside stepped).2.2) start
    refine ⟨?_, Nat.le_trans (Nat.le_add_right ..) calls, ?_⟩
    · exact run.labels (fun held stepped => (held.step aligned inside stepped).1)
        (fun held stepped => (held.step aligned inside stepped).2.1) start
    · rcases Nat.eq_zero_or_pos r.left with finished | more
      · have got := partly.got
        rw [finished, load, List.take_zero, List.append_nil] at got
        exact .inl ⟨finished, got⟩
      · obtain ⟨data, answer, -⟩ := partly.call (b := b) aligned inside more
        exact .inr ⟨more, _, _, .call more answer⟩
  · intro offset buf inside ns w run
    have start : Writing.Partly d offset buf ⟨d, offset, buf⟩ := ⟨rfl, rfl, rfl⟩
    have partly : Writing.Partly d offset buf w :=
      run.stable (P := Writing.Partly d offset buf)
        (fun held stepped => (held.step aligned inside stepped).1) start
    have calls := run.bounded (fun held stepped => (held.step aligned inside stepped).1)
      (fun held stepped => (held.step aligned inside stepped).2.2) start
    refine ⟨?_, Nat.le_trans (Nat.le_add_right ..) calls, ?_⟩
    · exact run.labels (fun held stepped => (held.step aligned inside stepped).1)
        (fun held stepped => (held.step aligned inside stepped).2.1) start
    · by_cases finished : w.rest = []
      · have data := partly.data
        rw [finished, store_nil] at data
        exact .inl ⟨finished, data⟩
      · obtain ⟨n, d', answer, -⟩ := partly.call (b := b) aligned inside finished
        exact .inr ⟨finished, n, _, .call finished answer⟩

theorem zeroBlocks_length : (List.replicate 8192 (0 : UInt8)).length = 8192 := List.length_replicate

/-- Two blocks of zeros. -/
def zeroBlocks : Memory := ⟨8192, List.replicate 8192 0, zeroBlocks_length⟩

/-- Four bytes on the boundary of the blocks take two calls. -/
theorem zeroBlocks_retries :
    (∃ r, Run (ReadStep release zeroBlocks) ⟨4094, 4, []⟩ [2, 2] r ∧
      r.got = load zeroBlocks.data 4094 4) ∧
    ∃ w, Run (WriteStep release) ⟨zeroBlocks, 4094, [1, 2, 3, 4]⟩ [2, 2] w ∧
      w.disk.data = store zeroBlocks.data 4094 [1, 2, 3, 4] := by
  have aligned : zeroBlocks.Aligned := ⟨rfl, by decide⟩
  have flat := retries_flat release zeroBlocks aligned
  constructor
  · have call {offset len : Nat} {got : List UInt8} (left : 0 < len)
        (short : min len (BLOCK_SIZE - offset % BLOCK_SIZE) = 2)
        (inside : offset + 2 ≤ zeroBlocks.size) : ReadStep release zeroBlocks ⟨offset, len, got⟩ 2
          ⟨offset + 2, len - 2, got ++ load zeroBlocks.data offset 2⟩ := by
      have answer :=
        RamDiskDevice.readAt_short release aligned
          (Nat.lt_of_lt_of_le (Nat.lt_add_of_pos_right (by decide)) inside) len
      rw [short] at answer
      have step := ReadStep.call (r := ⟨offset, len, got⟩) left answer
      rwa [load_length (by rwa [zeroBlocks.sized])] at step
    have run : Run (ReadStep release zeroBlocks) ⟨4094, 4, []⟩ [2, 2] _ :=
      .cons (call (by decide) (by decide) (by decide))
        (.cons (call (by decide) (by decide) (by decide)) (.nil _))
    obtain ⟨-, -, ⟨-, got⟩ | ⟨more, -⟩⟩ := flat.1 4094 4 (by decide) _ _ run
    · exact ⟨_, run, got⟩
    · cases more
  · obtain ⟨d₁, answer₁, -, size₁⟩ :=
      RamDiskDevice.writeAt_short release aligned (show 4094 < zeroBlocks.size by decide)
        [1, 2, 3, 4]
    have aligned₁ : d₁.Aligned := ⟨size₁ ▸ aligned.blocks, size₁ ▸ aligned.usize⟩
    obtain ⟨d₂, answer₂, -⟩ :=
      RamDiskDevice.writeAt_short release aligned₁ (show 4096 < d₁.size by rw [size₁]; decide)
        [3, 4]
    have first : WriteStep release ⟨zeroBlocks, 4094, [1, 2, 3, 4]⟩ 2 ⟨d₁, 4096, [3, 4]⟩ :=
      .call (by decide) answer₁
    have second : WriteStep release ⟨d₁, 4096, [3, 4]⟩ 2 ⟨d₂, 4098, []⟩ :=
      .call (List.cons_ne_nil _ _) answer₂
    have run := Run.cons first (.cons second (.nil _))
    obtain ⟨-, -, ⟨-, data⟩ | ⟨more, -⟩⟩ := flat.2 4094 [1, 2, 3, 4] (by decide) _ _ run
    · exact ⟨_, run, data⟩
    · exact absurd rfl more

end Finishing

end AlloyStack.Sfsfdtab
