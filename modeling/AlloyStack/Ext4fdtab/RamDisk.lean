import AlloyStack.Library.LinearMemory
import AlloyStack.Library.Rust
import AlloyStack.Library.Transition

/-! The two block drivers called `RamDisk`: one holds the disk in a vector, the other streams it
to the image file. `BufStream` hands a request of at least its own 512 bytes to the file in one
piece, and has nothing buffered after a seek, so a block request is one call of the file. -/
namespace AlloyStack.Ramdisk
open Rust Transition LinearMemory

inductive DevError where
  | invalidParam
  | io
  deriving DecidableEq, Repr

/-- `DevResult`, with `none` for a panic. -/
abbrev DevResult (α : Type) := Option (Except DevError α)

def BLOCK_SIZE : Nat := 4096

def alignUp (val : Nat) : Nat := (val + BLOCK_SIZE - 1) / BLOCK_SIZE * BLOCK_SIZE

/-- The checks of `read_block` and `write_block`, the same in both drivers: the offset of an
accepted request. The end of the range may wrap in a build without overflow checks. -/
def request (b : Build) (size : Nat) (blockId : UInt64) (len : Nat) : DevResult Nat :=
  (b.mul blockId.toNat BLOCK_SIZE).bind fun offset =>
  (b.add offset len).bind fun stop =>
  if size < stop then some (.error .io)
  else if len % BLOCK_SIZE ≠ 0 then some (.error .invalidParam)
  else some (.ok offset)

/-- An image zero-padded to its block-aligned size. -/
def padded (size : Nat) (content : List UInt8) : List UInt8 :=
  content ++ List.replicate (size - content.length) 0

theorem padded_length (fits : content.length ≤ size) : (padded size content).length = size := by
  simp only [padded, List.length_append, List.length_replicate]
  omega

theorem padded_getElem? (size : Nat) (content : List UInt8) (i : Nat) :
    (padded size content)[i]? = if i < content.length then content[i]? else if i < size then some 0
      else none := by
  unfold padded
  split
  · rw [List.getElem?_append_left ‹_›]
  · rw [List.getElem?_append_right (by omega), List.getElem?_replicate]
    congr 1
    exact propext (by omega)

theorem le_alignUp (val : Nat) : val ≤ alignUp val := by
  simp only [alignUp, BLOCK_SIZE]
  omega

inductive Call where
  | readBlock (blockId : UInt64) (buf : List UInt8)
  | writeBlock (blockId : UInt64) (buf : List UInt8)

namespace Call

def blockId : Call → UInt64
  | readBlock blockId _ => blockId
  | writeBlock blockId _ => blockId

def buf : Call → List UInt8
  | readBlock _ buf => buf
  | writeBlock _ buf => buf

end Call

/-- The driver that stores its data in a vector. -/
structure Memory where
  size : Nat
  data : List UInt8
  sized : data.length = size

namespace Memory

/-- `RamDisk::from` -/
def ofImage (buf : List UInt8) : Memory :=
  ⟨alignUp buf.length, padded (alignUp buf.length) buf, padded_length (le_alignUp buf.length)⟩

/-- The buffer and the disk after a call. Slicing the vector panics for a range beyond its end, also
where the end of the range has wrapped. -/
def call (b : Build) (d : Memory) : Call → DevResult (List UInt8 × Memory)
  | .readBlock blockId buf =>
    match request b d.size blockId buf.length with
    | none => none
    | some (.error e) => some (.error e)
    | some (.ok offset) =>
      if offset + buf.length ≤ d.data.length then some (.ok (load d.data offset buf.length, d))
      else none
  | .writeBlock blockId buf =>
    match request b d.size blockId buf.length with
    | none => none
    | some (.error e) => some (.error e)
    | some (.ok offset) =>
      if room : offset + buf.length ≤ d.data.length then
        some (.ok (buf,
          { d with
            data := store d.data offset buf, sized := (store_length room).trans d.sized }))
      else none

def after (b : Build) (d : Memory) (c : Call) : Memory :=
  match d.call b c with
  | some (.ok (_, d')) => d'
  | _ => d

end Memory

/-- The driver that streams to the image file. -/
structure Stream where
  size : Nat
  content : List UInt8

/-- What the file does with a request: it refuses it, or moves at most so many bytes of it. -/
abbrev Transfer := Option Nat

namespace Stream

/-- `RamDisk::new` -/
def ofImage (image : List UInt8) : Stream := ⟨alignUp image.length, image⟩

/-- The bytes that `read` at a position moves. -/
def read (s : Stream) (offset len limit : Nat) : List UInt8 := load s.content offset (min limit len)

/-- The file after `write` at a position moved these bytes. A gap beyond its end reads as zeros. -/
def write (s : Stream) (offset : Nat) (data : List UInt8) : List UInt8 :=
  if data = [] then s.content else store (padded offset s.content) offset data

/-- Each call is one seek and one `read` or `write`, whose count is dropped. `lseek` takes a signed
offset. -/
def call (b : Build) (s : Stream) (transfer : Transfer) : Call → DevResult (List UInt8 × Stream)
  | .readBlock blockId buf =>
    match request b s.size blockId buf.length, transfer with
    | none, _ => none
    | some (.error e), _ => some (.error e)
    | some (.ok _), none => some (.error .io)
    | some (.ok offset), some limit =>
      if 2 ^ 63 ≤ offset then some (.error .io)
      else
        let data := s.read offset buf.length limit
        some (.ok (data ++ buf.drop data.length, s))
  | .writeBlock blockId buf =>
    match request b s.size blockId buf.length, transfer with
    | none, _ => none
    | some (.error e), _ => some (.error e)
    | some (.ok _), none => some (.error .io)
    | some (.ok offset), some limit =>
      if 2 ^ 63 ≤ offset then some (.error .io)
      else some (.ok (buf, { s with content := s.write offset (buf.take limit) }))

/-- The disk that the stream stands for. -/
def disk (s : Stream) : List UInt8 := padded s.size s.content

/-- How many bytes of a request move. -/
def moved (s : Stream) (offset limit : Nat) : Call → Nat
  | .readBlock _ buf => (s.read offset buf.length limit).length
  | .writeBlock _ buf => (buf.take limit).length

/-- The bytes of an accepted request that do not move are the same in the buffer and on the disk. -/
def Covers (b : Build) (s : Stream) (transfer : Transfer) (c : Call) : Prop :=
  ∀ offset limit, request b s.size c.blockId c.buf.length = some (.ok offset) →
    transfer = some limit →
    offset < 2 ^ 63 →
    c.buf.drop (s.moved offset limit c) =
      load s.disk (offset + s.moved offset limit c) (c.buf.length - s.moved offset limit c)

end Stream

/-- Both drivers, on one image. -/
structure Pair where
  stream : Stream
  memory : Memory

namespace Pair

def ofImage (image : List UInt8) : Pair := ⟨Stream.ofImage image, Memory.ofImage image⟩

/-- The memory driver follows the calls that the stream answers with `Ok`. -/
def next (b : Build) (p : Pair) (transfer : Transfer) (c : Call) : Pair :=
  match p.stream.call b transfer c with
  | some (.ok (_, s)) => ⟨s, p.memory.after b c⟩
  | _ => p

/-- Slices have at most `isize::MAX` bytes, and a file moves at least one byte of a request. -/
inductive Step (b : Build) : Pair → Transfer × Call → Pair → Prop where
  | call (slice : c.buf.length < 2 ^ 63) (progress : transfer ≠ some 0) : Step b p (transfer, c)
    (p.next b transfer c)

/-- An `Ok` of the stream gives the bytes and leaves the disk that the memory driver gives and
leaves, and it returns `Err` where the memory driver does. -/
def Agrees (b : Build) (p : Pair) : Transfer × Call → Pair → Prop
  | (transfer, c), q =>
    (∀ buf s, p.stream.call b transfer c = some (.ok (buf, s)) →
      ∃ d, p.memory.call b c = some (.ok (buf, d)) ∧ q.memory = d ∧ d.data = s.disk) ∧
    ∀ e, p.memory.call b c = some (.error e) → p.stream.call b transfer c = some (.error e)

def Covers (b : Build) (p : Pair) : Transfer × Call → Pair → Prop
  | (transfer, c), _ => p.stream.Covers b transfer c

/-- The memory driver holds the disk that the stream stands for. -/
structure Matches (p : Pair) : Prop where
  size : p.memory.size = p.stream.size
  fits : p.stream.content.length ≤ p.stream.size
  data : p.memory.data = p.stream.disk

end Pair

theorem request_fits (accepted : request b size blockId len = some (.ok offset))
    (slice : len < 2 ^ 63) (low : offset < 2 ^ 63) : offset + len ≤ size := by
  simp only [request, Option.bind_eq_some_iff] at accepted
  obtain ⟨o, -, stop, sum, accepted⟩ := accepted
  have stops := Build.add_eq_some sum
  split at accepted
  · cases accepted
  split at accepted
  · cases accepted
  · obtain rfl : o = offset := by simpa using accepted
    rw [Nat.mod_eq_of_lt (by unfold word; omega)] at stops
    omega

/-- A disk of whole blocks, with a size that is a `usize`. -/
structure Memory.Aligned (d : Memory) : Prop where
  blocks : d.size % BLOCK_SIZE = 0
  usize : d.size < word

namespace Memory.Aligned
variable {d : Memory} {buf piece : List UInt8}

/-- The block of a byte of the disk lies on the disk. -/
theorem block_fits (aligned : d.Aligned) (inside : offset < d.size) :
    offset / BLOCK_SIZE * BLOCK_SIZE + BLOCK_SIZE ≤ d.data.length := by
  have blocks := aligned.blocks
  rw [d.sized]
  simp only [BLOCK_SIZE] at blocks ⊢
  omega

theorem request_block (b : Build) (aligned : d.Aligned) (inside : offset < d.size) :
    request b d.size (.ofNat (offset / BLOCK_SIZE)) BLOCK_SIZE =
      some (.ok (offset / BLOCK_SIZE * BLOCK_SIZE)) := by
  have fits := aligned.block_fits inside
  have usize := aligned.usize
  rw [d.sized] at fits
  have number : (UInt64.ofNat (offset / BLOCK_SIZE)).toNat = offset / BLOCK_SIZE := by
    refine UInt64.toNat_ofNat_of_lt' (Nat.lt_of_le_of_lt (Nat.div_le_self ..) ?_)
    exact inside.trans usize
  rw [request, number, b.mul_eq (by omega), Option.bind_some, b.add_eq (by omega), Option.bind_some,
    if_neg (by omega), if_neg (by rw [Nat.mod_self]; exact not_not_intro rfl)]

theorem readBlock_eq (b : Build) (aligned : d.Aligned) (inside : offset < d.size) :
    d.call b (.readBlock (.ofNat (offset / BLOCK_SIZE)) (List.replicate BLOCK_SIZE 0)) =
      some (.ok (load d.data (offset / BLOCK_SIZE * BLOCK_SIZE) BLOCK_SIZE, d)) := by
  have fits := aligned.block_fits inside
  simp only [Memory.call, List.length_replicate, aligned.request_block b inside, if_pos fits]

theorem writeBlock_eq (b : Build) (aligned : d.Aligned) (inside : offset < d.size)
    (block : buf.length = BLOCK_SIZE) :
    ∃ d', d.call b (.writeBlock (.ofNat (offset / BLOCK_SIZE)) buf) = some (.ok (buf, d')) ∧
      d'.data = store d.data (offset / BLOCK_SIZE * BLOCK_SIZE) buf ∧ d'.size = d.size := by
  have fits : offset / BLOCK_SIZE * BLOCK_SIZE + buf.length ≤ d.data.length :=
    block ▸ aligned.block_fits inside
  have accepted : request b d.size (.ofNat (offset / BLOCK_SIZE)) buf.length =
      some (.ok (offset / BLOCK_SIZE * BLOCK_SIZE)) := by
    rw [block, aligned.request_block b inside]
  refine ⟨{ d with
    data := store d.data _ buf, sized := (store_length fits).trans d.sized }, ?_, rfl, rfl⟩
  simp only [Memory.call, accepted, dif_pos fits]

/-- A piece that stays in its block is written by way of the block with the piece in it. -/
theorem writePiece_eq (b : Build) (aligned : d.Aligned) (inside : offset < d.size)
    (one : offset % BLOCK_SIZE + piece.length ≤ BLOCK_SIZE) :
    ∃ d', d.call b (.writeBlock (.ofNat (offset / BLOCK_SIZE))
        (store (load d.data (offset / BLOCK_SIZE * BLOCK_SIZE) BLOCK_SIZE)
          (offset % BLOCK_SIZE) piece)) =
        some (.ok (store (load d.data (offset / BLOCK_SIZE * BLOCK_SIZE) BLOCK_SIZE)
          (offset % BLOCK_SIZE) piece, d')) ∧
      d'.data = store d.data offset piece ∧ d'.size = d.size := by
  have fits := aligned.block_fits inside
  have block := load_length fits
  have length : (store (load d.data (offset / BLOCK_SIZE * BLOCK_SIZE) BLOCK_SIZE)
      (offset % BLOCK_SIZE) piece).length =
      BLOCK_SIZE := by rw [store_length (by omega), block]
  obtain ⟨d', answer, data, size⟩ := aligned.writeBlock_eq b inside length
  exact ⟨d', answer, by rw [data, store_store_load fits one, Nat.div_add_mod'], size⟩

end Memory.Aligned

namespace Stream
variable {s : Stream} {buf data : List UInt8}

theorem read_eq (s : Stream) (offset len limit : Nat) :
    s.read offset len limit = load s.disk offset (s.read offset len limit).length := by
  refine List.ext_getElem? fun i => ?_
  rw [load_getElem?]
  split
  next inside =>
    simp only [read, load, List.length_take, List.length_drop] at inside
    rw [read, load_getElem?, if_pos (by omega), disk, padded, List.getElem?_append_left (by omega)]
  next outside => exact List.getElem?_eq_none (by omega)

theorem read_le (s : Stream) (offset len limit : Nat) : (s.read offset len limit).length ≤ len := by
  simp only [read, load, List.length_take]
  omega

theorem read_covers (data : List UInt8) (reads : s.read offset buf.length limit = data) :
    data ++ buf.drop data.length = load s.disk offset buf.length ↔
      buf.drop data.length = load s.disk (offset + data.length) (buf.length - data.length) := by
  have front := s.read_eq offset buf.length limit
  have short := s.read_le offset buf.length limit
  rw [reads] at front short
  have whole := load_add s.disk offset data.length (buf.length - data.length)
  rw [Nat.add_sub_cancel' short, ← front] at whole
  rw [whole, List.append_cancel_left_eq]

theorem disk_write (fits : s.content.length ≤ s.size) (room : offset + data.length ≤ s.size) :
    padded s.size (s.write offset data) = store s.disk offset data := by
  by_cases empty : data = []
  · rw [write, if_pos empty, empty, store_nil, disk]
  have reaches : offset ≤ (padded offset s.content).length := by
    simp only [padded, List.length_append, List.length_replicate]
    omega
  have length : (store (padded offset s.content) offset data).length =
      max s.content.length (offset + data.length) := by
    simp only [store, padded, List.length_append, List.length_take, List.length_drop,
      List.length_replicate]
    omega
  have nonempty := List.length_pos_iff.mpr empty
  refine List.ext_getElem? fun i => ?_
  rw [write, if_neg empty, disk, padded_getElem?, store_getElem? reaches, padded_getElem?, length,
    store_getElem? (by rw [padded_length fits]; omega), padded_getElem?]
  by_cases inside : offset ≤ i ∧ i < offset + data.length
  · rw [if_pos (by omega), if_pos inside, if_pos inside]
  rw [if_neg inside, if_neg inside]
  by_cases old : i < s.content.length
  · rw [if_pos (by omega), if_pos old, if_pos old]
  · rw [if_neg old, if_neg old]
    split
    · rw [if_pos (by omega), if_pos (by omega)]
    · rfl

theorem write_length (fits : s.content.length ≤ s.size) (room : offset + data.length ≤ s.size) :
    (s.write offset data).length ≤ s.size := by
  by_cases empty : data = []
  · rwa [write, if_pos empty]
  · rw [write, if_neg empty]
    simp only [store, padded, List.length_append, List.length_take, List.length_drop,
      List.length_replicate]
    omega

end Stream

namespace Pair
variable {p q : Pair} {c : Call}

/-- Everything that one call can do to two drivers that match. -/
inductive Effect (b : Build) (p : Pair) (transfer : Transfer) (c : Call) : Prop where
  | panicked (refused : ∀ offset,
    request b p.stream.size c.blockId c.buf.length ≠ some (.ok offset))
    (stream : p.stream.call b transfer c = none) (memory : p.memory.call b c = none)
  | refused (refused : ∀ offset, request b p.stream.size c.blockId c.buf.length ≠ some (.ok offset))
    (stream : p.stream.call b transfer c = some (.error e))
      (memory : p.memory.call b c = some (.error e))
  | failed (accepted : request b p.stream.size c.blockId c.buf.length = some (.ok offset))
    (fails : transfer = none ∨ 2 ^ 63 ≤ offset)
      (stream : p.stream.call b transfer c = some (.error .io))
    (memory : ∀ e, p.memory.call b c ≠ some (.error e))
  | served (accepted : request b p.stream.size c.blockId c.buf.length = some (.ok offset))
    (moves : transfer = some limit)
    (low : offset < 2 ^ 63) (stream : p.stream.call b transfer c = some (.ok (buf, s)))
    (memory : p.memory.call b c = some (.ok (buf', d)))
      (size : d.size = s.size ∧ s.size = p.stream.size)
    (fits : s.content.length ≤ s.size)
    (same : buf = buf' ∧ d.data = s.disk ↔ c.buf.drop (p.stream.moved offset limit c) =
      load p.stream.disk (offset + p.stream.moved offset limit c)
        (c.buf.length - p.stream.moved offset limit c))

theorem readBlock_served (holds : p.Matches) (low : offset < 2 ^ 63)
    (room : offset + buf.length ≤ p.stream.size)
    (accepted : request b p.stream.size blockId buf.length = some (.ok offset)) :
    Effect b p (some limit) (.readBlock blockId buf) := by
  refine .served accepted rfl low
    (by simp only [Stream.call, accepted, if_neg (Nat.not_le.mpr low)]; rfl)
    (by simp only [Memory.call, holds.size, accepted]; exact if_pos (by
      rw [p.memory.sized, holds.size]; exact room))
    ⟨holds.size, rfl⟩ holds.fits ?_
  rw [and_iff_left holds.data, holds.data]
  exact Stream.read_covers _ rfl

theorem writeBlock_served (holds : p.Matches) (low : offset < 2 ^ 63)
    (room : offset + buf.length ≤ p.stream.size)
    (accepted : request b p.stream.size blockId buf.length = some (.ok offset)) :
    Effect b p (some limit) (.writeBlock blockId buf) := by
  have part : (buf.take limit).length ≤ buf.length := by simp
  have front : buf.take limit = buf.take (buf.take limit).length := by simp
  have held : offset + buf.length ≤ p.memory.data.length := by
    rw [p.memory.sized, holds.size]; exact room
  have stream : p.stream.call b (some limit) (.writeBlock blockId buf) =
      some (.ok (buf, { p.stream with content := p.stream.write offset (buf.take limit) })) := by
    simp only [Stream.call, accepted, if_neg (Nat.not_le.mpr low)]
  have memory : p.memory.call b (.writeBlock blockId buf) = some (.ok (buf,
      { p.memory with
        data := store p.memory.data offset buf,
        sized := (store_length held).trans p.memory.sized })) := by
    simp only [Memory.call, holds.size, accepted, dif_pos held]
  refine .served accepted rfl low stream memory ⟨holds.size, rfl⟩
    (Stream.write_length holds.fits (by omega)) ?_
  have exact := store_take_iff held part
  rw [holds.data] at exact
  rw [and_iff_right rfl, Stream.disk, Stream.disk_write holds.fits (by omega), front]
  simpa only [holds.data, Stream.moved, Call.buf] using exact

theorem effect (b : Build) (transfer : Transfer) (holds : p.Matches)
    (slice : c.buf.length < 2 ^ 63) : Effect b p transfer c := by
  cases answer : request b p.stream.size c.blockId c.buf.length with
  | none =>
    refine .panicked (by simp [answer]) ?_ ?_
    · cases c <;> simp only [Call.blockId, Call.buf] at answer <;> simp only [Stream.call, answer]
    · cases c <;> simp only [Call.blockId, Call.buf] at answer <;>
        simp only [Memory.call, holds.size, answer]
  | some verdict =>
    cases verdict with
    | error e =>
      refine .refused (by simp [answer]) (e := e) ?_ ?_
      · cases c <;> simp only [Call.blockId, Call.buf] at answer <;> simp only [Stream.call, answer]
      · cases c <;> simp only [Call.blockId, Call.buf] at answer <;>
          simp only [Memory.call, holds.size, answer]
    | ok offset =>
      by_cases served : ∃ limit, transfer = some limit ∧ offset < 2 ^ 63
      · obtain ⟨limit, rfl, low⟩ := served
        have room := request_fits answer slice low
        cases c with
        | readBlock blockId buf => exact readBlock_served holds low room answer
        | writeBlock blockId buf => exact writeBlock_served holds low room answer
      · have fails : transfer = none ∨ 2 ^ 63 ≤ offset := by
          cases transfer with
          | none => exact .inl rfl
          | some limit => exact .inr (Nat.not_lt.mp fun low => served ⟨limit, rfl, low⟩)
        refine .failed answer fails ?_ fun e => ?_
        · cases c <;> simp only [Call.blockId, Call.buf] at answer <;>
            rcases fails with rfl | high <;>
            simp only [Stream.call, answer]
          all_goals cases transfer <;> simp only [if_pos high]
        · cases c <;> simp only [Call.blockId, Call.buf] at answer <;>
            simp only [Memory.call, holds.size, answer] <;>
            split <;> simp

theorem agrees_iff (holds : p.Matches) (step : Step b p e q) : Agrees b p e q ↔ Covers b p e q := by
  cases step with
  | @call transfer _ c slice progress =>
    simp only [Agrees, Covers, Stream.Covers]
    rcases effect b transfer holds slice with ⟨refused, stream, memory⟩ |
      ⟨refused, stream, memory⟩ |
      ⟨accepted, fails, stream, memory⟩ | ⟨accepted, moves, low, stream, memory, size, fits, same⟩
    · simp [stream, memory, refused]
    · simp [stream, memory, refused]
    · refine iff_of_true ⟨by simp [stream], fun e failed => absurd failed (memory e)⟩ ?_
      intro offset limit accepted' moves low
      obtain rfl : _ = offset := by simpa [accepted] using accepted'
      rcases fails with fails | high
      · simp [moves] at fails
      · omega
    · rw [accepted, moves]
      rw [moves] at stream
      simp only [next, Memory.after, stream, memory]
      constructor
      · rintro ⟨agree, -⟩ offset limit accepted' moves low
        obtain rfl : _ = offset := by simpa using accepted'
        obtain rfl : _ = limit := by simpa using moves
        obtain ⟨d, answer, -, data⟩ := agree _ _ rfl
        obtain ⟨rfl, rfl⟩ : _ ∧ _ = d := by simpa using answer
        exact same.mp ⟨rfl, data⟩
      · intro covers
        obtain ⟨rfl, data⟩ := same.mpr (covers _ _ rfl rfl low)
        refine ⟨fun buf s answer => ?_, by simp⟩
        obtain ⟨rfl, rfl⟩ : _ ∧ _ = s := by simpa using answer
        exact ⟨_, rfl, rfl, data⟩

theorem step_matches (holds : p.Matches) (step : Step b p e q) (covers : Covers b p e q) :
    q.Matches := by
  cases step with
  | @call transfer _ c slice progress =>
    rcases effect b transfer holds slice with ⟨refused, stream, memory⟩ |
      ⟨refused, stream, memory⟩ |
      ⟨accepted, fails, stream, memory⟩ | ⟨accepted, moves, low, stream, memory, size, fits, same⟩
    · simpa [next, stream] using holds
    · simpa [next, stream] using holds
    · simpa [next, stream] using holds
    · obtain ⟨-, data⟩ := same.mpr (covers _ _ accepted moves low)
      simp only [next, Memory.after, stream, memory]
      exact ⟨size.1, fits, data⟩

theorem ofImage_matches (image : List UInt8) : (ofImage image).Matches :=
  ⟨rfl, le_alignUp image.length, rfl⟩

/-- The stream refines the memory driver along a run exactly when no call leaves out a byte that
differs between its buffer and the disk. -/
theorem refines_iff (b : Build) (image : List UInt8) (calls : List (Transfer × Call)) (q : Pair) :
    Run (Where (Step b) (Agrees b)) (ofImage image) calls q ↔
      Run (Where (Step b) (Covers b)) (ofImage image) calls q :=
  Run.where_iff (fun holds step => step_matches holds step)
    (fun holds step => agrees_iff holds step)
    (ofImage_matches image)

/-- One block of ones, read into a buffer of zeros: the file moves one byte, and the call is still
answered with `Ok`. -/
theorem shortRead_disagrees : ¬ ∀ image calls q, Run (Step release) (ofImage image) calls q →
    Run (Where (Step release) (Agrees release)) (ofImage image) calls q := by
  intro refines
  have step : Step release (ofImage (List.replicate BLOCK_SIZE 1))
      (some 1, .readBlock 0 (List.replicate BLOCK_SIZE 0)) _ :=
    .call (by rw [Call.buf, List.length_replicate]; decide) (by decide)
  obtain ⟨_, head, -⟩ := (refines _ _ _ (.cons step (.nil _))).uncons
  have covers := (agrees_iff (ofImage_matches _) head.1).mp head.2 0 1
    (by simp only [ofImage, Stream.ofImage, Call.blockId, Call.buf, List.length_replicate]; decide)
      rfl (by decide)
  have moved : (ofImage (List.replicate BLOCK_SIZE 1)).stream.moved 0 1
      (.readBlock 0 (List.replicate BLOCK_SIZE 0)) = 1 := by
    simp only [ofImage, Stream.ofImage, Stream.moved, Stream.read, load, List.length_take,
      List.length_drop, List.length_replicate]
    decide
  rw [moved] at covers
  have second := congrArg (fun l : List UInt8 => l[0]?) covers
  simp only [ofImage, Stream.ofImage, Stream.disk, Call.buf, load_getElem?, padded_getElem?,
    List.getElem?_drop, List.getElem?_replicate, List.length_replicate] at second
  revert second
  decide

end Pair
end AlloyStack.Ramdisk
