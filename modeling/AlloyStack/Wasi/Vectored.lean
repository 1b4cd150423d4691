import AlloyStack.Library.Vectored
import AlloyStack.Wasi.Frame

/-! Vectored I/O against a libos that moves as many bytes of each request as it likes. -/
namespace AlloyStack.Wasi
open Rust LinearMemory LittleEndian Vectored

section Libos
variable (counts : Nat → Nat)

/-- A file that accepts at most `counts i` bytes of request `i`; its state is the number of requests
and what it has accepted. -/
def writer : Host (Nat × Bytes) where
  openFile _ _ _ _ := none
  close _ _ := none
  stat _ _ := none
  read _ _ _ := none
  write _ data s :=
    some (⟨min (counts s.1) data.length, Nat.min_le_right ..⟩, s.1 + 1,
      s.2 ++ data.take (counts s.1))
  readdir _ _ := none
  getTime _ := none
  build := debug
  padding _ := 0

/-- A file that delivers at most `counts i` bytes to request `i`; its state is the number of
requests and the position. -/
def reader (file : Nat → UInt8) : Host (Nat × Nat) where
  openFile _ _ _ _ := none
  close _ _ := none
  stat _ _ := none
  read _ len s :=
    some (⟨slice file s.2 (min (counts s.1) len), by simp⟩, s.1 + 1, s.2 + min (counts s.1) len)
  write _ _ _ := none
  readdir _ _ := none
  getTime _ := none
  build := debug
  padding _ := 0

end Libos

/-- The arguments of a vectored call, and the buffers that its records name. -/
structure Vectors where
  fd : I32
  iovsPtr : I32
  iovsLen : I32
  retptr : I32
  iovs : List (Nat × Nat)

namespace Vectors
variable (v : Vectors)

/-- The records, the buffers and the result are inside this memory. -/
structure Laid (memory : Bytes) : Prop where
  addressed : memory.length ≤ 2 ^ 32
  counted : rounds v.iovsLen = v.iovs.length
  records : ∀ i iov, v.iovs[i]? = some iov → ciovec memory (v.iovsPtr.toNat + i * 8) = some iov
  buffers : ∀ iov ∈ v.iovs, iov.1 + iov.2 ≤ memory.length
  result : v.retptr.toNat + 4 ≤ memory.length

/-- No buffer overlaps another one, the records or the result. -/
structure Apart : Prop where
  buffers : v.iovs.Pairwise fun a b => ¬ Overlap a b
  records : ∀ iov ∈ v.iovs, ¬ Overlap iov (v.iovsPtr.toNat, 8 * v.iovs.length)
  result : ∀ iov ∈ v.iovs, ¬ Overlap iov (v.retptr.toNat, 4)

def lens : List Nat := v.iovs.map Prod.snd

/-- The contents of the buffers. -/
def blocks (memory : Bytes) : List Bytes := v.iovs.map fun iov => load memory iov.1 iov.2

/-- Nothing is moved after a short count, the count fits into its word, and the host can address the
records and the result. -/
structure Meets (counts : Nat → Nat) : Prop where
  noGap : NoGap counts 0 v.lens
  small : total counts 0 v.lens < 2 ^ 32
  records : v.iovs ≠ [] → v.iovsPtr.toNat < 2 ^ 31
  result : v.retptr.toNat < 2 ^ 31

/-- The file has accepted a prefix of the buffers, and the result is its length. -/
def Writes (counts : Nat → Nat) (memory : Bytes) : Prop :=
  ∃ w, fdWrite (writer counts) asUsize v.fd v.iovsPtr v.iovsLen v.retptr
    ⟨memory, none, fun _ => none, 0, []⟩ =
      some (.success, w) ∧ w.libos.2 <+: (v.blocks memory).flatten ∧
    decode (load w.memory v.retptr.toNat 4) = w.libos.2.length

/-- The bytes that were taken from the file are at the front of the buffers, and the result is their
number. -/
def Reads (counts : Nat → Nat) (file : Nat → UInt8) (memory : Bytes) : Prop :=
  ∃ w, fdRead (reader counts file) asUsize v.fd v.iovsPtr v.iovsLen v.retptr
    ⟨memory, none, fun _ => none, 0, 0⟩ =
      some (.success, w) ∧ (v.blocks w.memory).flatten.take w.libos.2 = slice file 0 w.libos.2 ∧
    decode (load w.memory v.retptr.toNat 4) = w.libos.2

end Vectors

section Loops
variable {counts : Nat → Nat} {file : Nat → UInt8}

theorem writeLoop_spec (counts : Nat → Nat) (fd : Fdtab.Fd) (iovs : List (Nat × Nat))
    (i size : Nat) (accepted : Bytes)
    (records : ∀ j iov, iovs[j]? = some iov → ciovec memory (p + (i + j) * 8) = some iov)
    (buffers : ∀ iov ∈ iovs, iov.1 + iov.2 ≤ memory.length) :
    writeLoop (writer counts) fd p memory iovs.length i size (i, accepted) =
      some (size + total counts i (iovs.map Prod.snd), i + iovs.length,
        accepted ++ gather counts i (iovs.map fun iov => load memory iov.1 iov.2)) := by
  induction iovs generalizing i size accepted with
  | nil => simp [writeLoop, total, gather]
  | cons iov iovs ih =>
    have record : ciovec memory (p + i * 8) = some (iov.1, iov.2) := records 0 iov rfl
    have inside := buffers iov (by simp)
    have slice : read memory iov.1 iov.2 = some (load memory iov.1 iov.2) :=
      read_eq_some.mpr ⟨inside, rfl⟩
    have later :=
      ih (i + 1) (size + min (counts i) iov.2)
        (accepted ++ (load memory iov.1 iov.2).take (counts i))
      (fun j iov found => by
        have moved := records (j + 1) iov found
        rwa [show i + (j + 1) = i + 1 + j by omega] at moved)
      (fun iov member => buffers iov (by simp [member]))
    simp only [List.length_cons, writeLoop, record, slice, writer, Option.bind_eq_bind,
      Option.bind_some, load_length inside]
    rw [List.map_cons, List.map_cons, total, gather]
    refine later.trans ?_
    simp only [List.append_assoc, Nat.add_assoc, Nat.add_comm 1]

theorem ciovec_congr (same : load memory' p 8 = load memory p 8)
    (length : memory'.length = memory.length) :
    ciovec memory' p = ciovec memory p := by
  rw [ciovec, ciovec, read, read, same, length]

/-- The rounds fill the buffers and leave everything else as it is. -/
theorem readLoop_spec (counts : Nat → Nat) (file : Nat → UInt8) (fd : Fdtab.Fd)
    (iovs : List (Nat × Nat)) (i pos size : Nat) (w : World (Nat × Nat))
    (state : w.libos = (i, pos))
    (records : ∀ j iov, iovs[j]? = some iov → ciovec w.memory (p + (i + j) * 8) = some iov)
    (buffers : ∀ iov ∈ iovs, iov.1 + iov.2 ≤ w.memory.length)
    (apart : iovs.Pairwise fun a b => ¬ Overlap a b)
    (kept : ∀ iov ∈ iovs, ¬ Overlap iov (p, 8 * (i + iovs.length))) :
    ∃ memory, readLoop (reader counts file) fd p iovs.length i size w =
        some (size + total counts i (iovs.map Prod.snd),
          { w with memory, libos := (i + iovs.length, pos + total counts i (iovs.map Prod.snd)) }) ∧
      Confined iovs w.memory memory ∧ iovs.map (fun iov => load memory iov.1 iov.2) =
        scatter counts file i pos (iovs.map fun iov => load w.memory iov.1 iov.2) := by
  induction iovs generalizing i pos size w with
  | nil =>
    refine ⟨w.memory, ?_, .refl _ _, rfl⟩
    simp [readLoop, total, ← state]
  | cons iov iovs ih =>
    obtain ⟨buf, bufLen⟩ := iov
    have apart := List.pairwise_cons.mp apart
    have record : ciovec w.memory (p + i * 8) = some (buf, bufLen) := records 0 (buf, bufLen) rfl
    have inside : buf + bufLen ≤ w.memory.length := buffers (buf, bufLen) (by simp)
    have sliced : read w.memory buf bufLen = some (load w.memory buf bufLen) :=
      read_eq_some.mpr ⟨inside, rfl⟩
    let data := slice file pos (min (counts i) bufLen)
    have width : data.length = min (counts i) bufLen := slice_length ..
    have stored : Confined [(buf, bufLen)] w.memory (store w.memory buf data) :=
      .store (List.mem_singleton_self _) (Nat.le_refl _) (by omega) (by omega)
    have other (at' len : Nat) (far : ¬ Overlap (buf, bufLen) (at', len)) :
        load (store w.memory buf data) at' len = load w.memory at' len :=
      stored.load fun region member => List.mem_singleton.mp member ▸ far
    let w₁ : World (Nat × Nat) :=
      { w with memory := store w.memory buf data, libos := (i + 1, pos + min (counts i) bufLen) }
    obtain ⟨memory, ran, confined, filled⟩ :=
      ih (i + 1) (pos + min (counts i) bufLen) (size + data.length) w₁ rfl
      (by
        intro j iov found
        have bound := (List.getElem?_eq_some_iff.mp found).1
        have before := records (j + 1) iov found
        rw [← Nat.add_assoc, Nat.add_right_comm] at before
        rw [← before]
        refine ciovec_congr (other _ _ fun overlap =>
          kept (buf, bufLen) (by simp) (overlap.widen (by omega) ?_)) stored.length
        rw [List.length_cons]
        omega)
      (fun iov member => by
        have fits := buffers iov (by simp [member])
        rwa [← stored.length] at fits)
      apart.2
      (fun iov member overlap =>
        kept iov (by simp [member])
        (overlap.widen (Nat.le_refl _) (by rw [List.length_cons]; omega)))
    have behind : (load w.memory buf bufLen).drop (min (counts i) bufLen) =
        (load w.memory buf bufLen).drop (counts i) := by
      rw [List.drop_eq_drop_min (i := counts i), load_length inside]
    have first : load memory buf bufLen = data ++ (load w.memory buf bufLen).drop (counts i) := by
      rw [confined.load fun region member overlap => apart.1 region member overlap.symm,
        load_store_front inside (by omega), width, behind]
    have rest : iovs.map (fun iov => load w₁.memory iov.1 iov.2) =
        iovs.map fun iov => load w.memory iov.1 iov.2 :=
      List.map_congr_left fun iov member => other _ _ (apart.1 iov member)
    refine ⟨memory, ?_, (stored.mono (by simp)).trans
      (confined.mono fun region member => List.mem_cons_of_mem _ member), ?_⟩
    · simp only [List.length_cons, readLoop, record, sliced, reader, state, Option.bind_eq_bind,
        Option.bind_some]
      refine ran.trans ?_
      simp only [List.map_cons, total, width, w₁, Nat.add_assoc, Nat.add_comm 1]
    · rw [List.map_cons, List.map_cons, scatter, load_length inside, first, filled, rest]

end Loops

namespace Vectors
variable {v : Vectors} {memory : Bytes} {counts : Nat → Nat} {file : Nat → UInt8}

theorem Laid.lengths (laid : v.Laid memory) : (v.blocks memory).map List.length = v.lens := by
  rw [blocks, lens, List.map_map]
  exact List.map_congr_left fun iov member => load_length (laid.buffers iov member)

theorem Laid.records_at (laid : v.Laid memory) (low : v.iovs ≠ [] → v.iovsPtr.toNat < 2 ^ 31)
    (j : Nat) (iov : Nat × Nat) (found : v.iovs[j]? = some iov) :
    ciovec memory (asUsize v.iovsPtr + (0 + j) * 8) = some iov := by
  have nonempty : v.iovs ≠ [] := fun empty => by simp [empty] at found
  rw [asUsize_low (low nonempty), Nat.zero_add]
  exact laid.records j iov found

/-- What the guest reads as the result. -/
theorem result_read (inside : p + 4 ≤ memory.length) (count : Nat) :
    decode (load (store memory p (encode 4 count)) p 4) = count % 2 ^ 32 := by
  have fits : p + (encode 4 count).length ≤ memory.length := by rwa [encode_length]
  have back := load_store fits
  rw [encode_length] at back
  exact (congrArg decode back).trans (decode_encode 4 count)

theorem fdWrite_eq (laid : v.Laid memory) (records : v.iovs ≠ [] → v.iovsPtr.toNat < 2 ^ 31)
    (result : v.retptr.toNat < 2 ^ 31) :
    fdWrite (writer counts) asUsize v.fd v.iovsPtr v.iovsLen v.retptr
      ⟨memory, none, fun _ => none, 0, []⟩ =
      some (.success, ⟨store memory v.retptr.toNat (encode 4 (total counts 0 v.lens)), none,
        fun _ => none,
        v.iovs.length, gather counts 0 (v.blocks memory)⟩) := by
  have looped := writeLoop_spec counts v.fd v.iovs 0 0 [] (laid.records_at records) laid.buffers
  have written :=
    write_eq_some.mpr ⟨show v.retptr.toNat + (encode 4 (total counts 0 v.lens)).length ≤
      memory.length by
    rw [encode_length]; exact laid.result, rfl⟩
  rw [Nat.zero_add, Nat.zero_add, List.nil_append] at looped
  change writeLoop _ _ _ _ _ _ _ _ =
    some (total counts 0 v.lens, v.iovs.length, gather counts 0 (v.blocks memory)) at looped
  simp only [fdWrite, laid.counted, looped, asUsize_low result, written, Option.bind_eq_bind,
    Option.bind_some]

theorem fdRead_eq (counts : Nat → Nat) (file : Nat → UInt8) (laid : v.Laid memory)
    (apart : v.Apart) (records : v.iovs ≠ [] → v.iovsPtr.toNat < 2 ^ 31)
    (result : v.retptr.toNat < 2 ^ 31) :
    ∃ memory', fdRead (reader counts file) asUsize v.fd v.iovsPtr v.iovsLen v.retptr
      ⟨memory, none, fun _ => none, 0, 0⟩ =
        some (.success, ⟨store memory' v.retptr.toNat (encode 4 (total counts 0 v.lens)), none,
          fun _ => none,
          v.iovs.length, total counts 0 v.lens⟩) ∧ memory'.length = memory.length ∧
      v.blocks (store memory' v.retptr.toNat (encode 4 (total counts 0 v.lens))) =
        scatter counts file 0 0 (v.blocks memory) := by
  have kept (iov : Nat × Nat) (member : iov ∈ v.iovs) : ¬ Overlap iov
      (asUsize v.iovsPtr, 8 * (0 + v.iovs.length)) := by
    rw [asUsize_low (records (List.ne_nil_of_mem member)), Nat.zero_add]
    exact apart.records iov member
  obtain ⟨memory', looped, confined, filled⟩ := readLoop_spec counts file v.fd v.iovs 0 0 0
    ⟨memory, none, fun _ => none, 0, 0⟩ rfl
      (laid.records_at records) laid.buffers apart.buffers kept
  have inside : v.retptr.toNat + (encode 4 (total counts 0 v.lens)).length ≤ memory'.length := by
    rw [confined.length, encode_length]
    exact laid.result
  have written := write_eq_some.mpr ⟨inside, rfl⟩
  refine ⟨memory', ?_, confined.length, ?_⟩
  · rw [Nat.zero_add, Nat.zero_add] at looped
    change readLoop _ _ _ _ _ _ _ = some (total counts 0 v.lens,
      (⟨memory', none, fun _ => none, v.iovs.length, total counts 0 v.lens⟩ : World
        (Nat × Nat))) at looped
    simp only [fdRead, laid.counted, looped, asUsize_low result, written, Option.bind_eq_bind,
      Option.bind_some]
  · change v.blocks memory' = scatter counts file 0 0 (v.blocks memory) at filled
    rw [← filled]
    refine List.map_congr_left fun iov member => ?_
    have single : Confined [(v.retptr.toNat, 4)] memory'
        (store memory' v.retptr.toNat (encode 4 (total counts 0 v.lens))) :=
      .store (List.mem_singleton_self _) (Nat.le_refl _) (by rw [encode_length]) inside
    refine single.load fun region found overlap => ?_
    rw [List.mem_singleton.mp found] at overlap
    exact apart.result iov member overlap.symm

/-- A byte of a buffer may be any byte. -/
theorem Laid.patch (laid : v.Laid memory) (apart : v.Apart) (member : (buf, len) ∈ v.iovs)
    (bound : k < len) (value : UInt8) :
    v.Laid (store memory (buf + k) [value]) := by
  have inside : buf + len ≤ memory.length := laid.buffers _ member
  have length : (store memory (buf + k) [value]).length = memory.length :=
    store_length (by rw [List.length_singleton]; omega)
  refine ⟨by rw [length]; exact laid.addressed, laid.counted, fun i iov found => ?_,
    fun iov member => by rw [length]; exact laid.buffers iov member,
      by rw [length]; exact laid.result⟩
  have count := (List.getElem?_eq_some_iff.mp found).1
  rw [← laid.records i iov found]
  refine ciovec_congr ?_ length
  have single : Confined [(buf, len)] memory (store memory (buf + k) [value]) :=
    .store (List.mem_singleton_self _) (by omega) (by rw [List.length_singleton]; omega)
      (by rw [List.length_singleton]; omega)
  refine single.load fun region found overlap => ?_
  rw [List.mem_singleton.mp found] at overlap
  exact apart.records _ member (overlap.widen (by omega) (by omega))

theorem blocks_getElem? (memory : Bytes) (found : v.iovs[s]? = some (buf, len)) (bound : k < len) :
    ((v.blocks memory).getD s [])[k]? = memory[buf + k]? := by
  rw [List.getD_eq_getElem?_getD, blocks, List.getElem?_map, found]
  exact (load_getElem? memory buf len k).trans (if_pos bound)

theorem Writes.low (laid : v.Laid memory) (writes : v.Writes counts memory) :
    (v.iovs ≠ [] → v.iovsPtr.toNat < 2 ^ 31) ∧ v.retptr.toNat < 2 ^ 31 := by
  obtain ⟨w, ran, -⟩ := writes
  simp only [fdWrite, laid.counted, Option.bind_eq_bind, Option.bind_eq_some_iff,
    Prod.exists] at ran
  obtain ⟨size, n, accepted, looped, memory', written, -⟩ := ran
  refine ⟨fun nonempty => ?_, (write_asUsize laid.addressed written).1⟩
  obtain ⟨n, count⟩ := Nat.exists_eq_succ_of_ne_zero (List.length_pos_iff.mpr nonempty).ne'
  simp only [count, writeLoop, Option.bind_eq_bind, Option.bind_eq_some_iff] at looped
  obtain ⟨iov, found, -⟩ := looped
  exact ciovec_asUsize laid.addressed found

theorem Reads.low (laid : v.Laid memory) (reads : v.Reads counts file memory) :
    (v.iovs ≠ [] → v.iovsPtr.toNat < 2 ^ 31) ∧ v.retptr.toNat < 2 ^ 31 := by
  obtain ⟨w, ran, -⟩ := reads
  simp only [fdRead, laid.counted, Option.bind_eq_bind, Option.bind_eq_some_iff, Prod.exists] at ran
  obtain ⟨size, w₁, looped, memory', written, -⟩ := ran
  have length := readLoop_length _ _ _ _ looped
  refine ⟨fun nonempty => ?_, (write_asUsize (by rw [length]; exact laid.addressed) written).1⟩
  obtain ⟨n, count⟩ := Nat.exists_eq_succ_of_ne_zero (List.length_pos_iff.mpr nonempty).ne'
  simp only [count, readLoop, Option.bind_eq_bind, Option.bind_eq_some_iff] at looped
  obtain ⟨iov, found, -⟩ := looped
  exact ciovec_asUsize laid.addressed found

theorem Meets.writes (meets : v.Meets counts) (laid : v.Laid memory) : v.Writes counts memory := by
  refine ⟨_, fdWrite_eq laid meets.records meets.result,
    gather_prefix _ (by rw [laid.lengths]; exact meets.noGap), ?_⟩
  rw [result_read laid.result, Nat.mod_eq_of_lt meets.small, gather_length, laid.lengths]

theorem Meets.reads (meets : v.Meets counts) (laid : v.Laid memory) (apart : v.Apart) :
    v.Reads counts file memory := by
  obtain ⟨memory', ran, length, filled⟩ :=
    fdRead_eq counts file laid apart meets.records meets.result
  refine ⟨_, ran, ?_, ?_⟩
  · have front := scatter_front file 0 (v.blocks memory) (by rw [laid.lengths]; exact meets.noGap)
    rwa [laid.lengths, ← filled] at front
  · exact (result_read (by rw [length]; exact laid.result) _).trans (Nat.mod_eq_of_lt meets.small)

theorem lens_found {s : Nat} (located : v.lens[s]? = some len) :
    ∃ buf, v.iovs[s]? = some (buf, len) := by
  rw [lens, List.getElem?_map] at located
  obtain ⟨⟨buf, len'⟩, found, rfl⟩ := Option.map_eq_some_iff.mp located
  exact ⟨buf, found⟩

/-- Writes of all contents of the buffers have no gap: else a byte that was left out could be told
from the one that was accepted in its place. -/
theorem noGap_of_writes (laid : v.Laid memory) (apart : v.Apart)
    (writes : ∀ m, v.Laid m → v.Writes counts m) :
    NoGap counts 0 v.lens := by
  by_contra gap
  obtain ⟨s, t, len, len', before, left, short, right, positive, same⟩ :=
    gap_gather (α := UInt8) gap
  rw [Nat.zero_add] at short same
  obtain ⟨buf, found⟩ := lens_found left
  obtain ⟨buf', found'⟩ := lens_found right
  have inside := laid.buffers _ (List.mem_of_getElem? found)
  have inside' := laid.buffers _ (List.mem_of_getElem? found')
  have disjoint : ¬ Overlap (buf, len) (buf', len') := by
    obtain ⟨bound, at_s⟩ := List.getElem?_eq_some_iff.mp found
    obtain ⟨bound', at_t⟩ := List.getElem?_eq_some_iff.mp found'
    rw [← at_s, ← at_t]
    exact List.pairwise_iff_getElem.mp apart.buffers s t bound bound' before
  simp only at inside inside'
  have away : buf' ≠ buf + counts s :=
    fun here => disjoint ⟨buf', by simp only; omega, by simp only; omega⟩
  have present := List.getElem?_eq_getElem (show buf' < memory.length by omega)
  have patched := laid.patch apart (List.mem_of_getElem? found) short (memory[buf'] + 1)
  have low := (writes memory laid).low laid
  obtain ⟨w, ran, front, -⟩ := writes _ patched
  rw [fdWrite_eq patched low.1 low.2] at ran
  obtain rfl := (Prod.mk.inj (Option.some.inj ran)).2
  have equal := same _ patched.lengths front
  have outside : (store memory (buf + counts s) [memory[buf'] + 1])[buf']? = memory[buf']? :=
    store_outside (by rw [List.length_singleton]; omega) (by rw [List.length_singleton]; omega)
  have changed : (store memory (buf + counts s) [memory[buf'] + 1])[buf + counts s]? =
      some (memory[buf'] + 1) := by
    rw [store_getElem? (by omega), if_pos (by simp), Nat.sub_self]
    rfl
  rw [blocks_getElem? _ found short, blocks_getElem? _ found' positive, Nat.add_zero, changed,
    outside, present] at equal
  simp at equal

theorem noGap_of_reads (laid : v.Laid memory) (apart : v.Apart)
    (reads : ∀ m, v.Laid m → v.Reads counts file m) :
    NoGap counts 0 v.lens := by
  by_contra gap
  obtain ⟨s, len, q, located, short, same⟩ := gap_scatter file 0 gap
  rw [Nat.zero_add] at short same
  obtain ⟨buf, found⟩ := lens_found located
  have inside := laid.buffers _ (List.mem_of_getElem? found)
  simp only at inside
  have patched := laid.patch apart (List.mem_of_getElem? found) short (file q + 1)
  have low := (reads memory laid).low laid
  obtain ⟨memory', ran', -, filled⟩ := fdRead_eq counts file patched apart low.1 low.2
  obtain ⟨w, ran, front, -⟩ := reads _ patched
  rw [ran'] at ran
  obtain rfl := (Prod.mk.inj (Option.some.inj ran)).2
  rw [filled] at front
  have equal := same _ patched.lengths front
  have changed : (store memory (buf + counts s) [file q + 1])[buf + counts s]? =
      some (file q + 1) := by
    rw [store_getElem? (by omega), if_pos (by simp), Nat.sub_self]
    rfl
  rw [blocks_getElem? _ found short, changed] at equal
  simp at equal

/-- Transfers without a gap are like those of one long buffer, and all contents of the buffers are
transferred like that only without a gap. -/
theorem vectored_iff (counts : Nat → Nat) (file : Nat → UInt8) (laid : v.Laid memory) :
    (v.Meets counts → v.Writes counts memory) ∧
    (v.Apart → v.Meets counts → v.Reads counts file memory) ∧
    (v.Apart → (∀ m, v.Laid m → v.Writes counts m) → v.Meets counts) ∧
    (v.Apart → (∀ m, v.Laid m → v.Reads counts file m) → v.Meets counts) := by
  refine ⟨fun meets => meets.writes laid, fun apart meets => meets.reads laid apart,
    fun apart writes => ?_,
    fun apart reads => ?_⟩
  · have low := (writes memory laid).low laid
    refine ⟨noGap_of_writes laid apart writes, ?_, low.1, low.2⟩
    obtain ⟨w, ran, -, count⟩ := writes memory laid
    rw [fdWrite_eq laid low.1 low.2] at ran
    obtain rfl := (Prod.mk.inj (Option.some.inj ran)).2
    have number := (result_read laid.result _).symm.trans count
    simp only [gather_length, laid.lengths] at number
    omega
  · have low := (reads memory laid).low laid
    refine ⟨noGap_of_reads laid apart reads, ?_, low.1, low.2⟩
    obtain ⟨memory', ran', length, -⟩ := fdRead_eq counts file laid apart low.1 low.2
    obtain ⟨w, ran, -, count⟩ := reads memory laid
    rw [ran'] at ran
    obtain rfl := (Prod.mk.inj (Option.some.inj ran)).2
    have number := (result_read (by rw [length]; exact laid.result) _).symm.trans count
    simp only at number
    omega

/-- Two buffers of two bytes, one after the other. -/
def pair : Vectors := ⟨4, 0, 2, 16, [(20, 2), (22, 2)]⟩

def pairMemory : Bytes := [20, 0, 0, 0, 2, 0, 0, 0, 22, 0, 0, 0, 2, 0, 0, 0, 0, 0, 0, 0, 1, 2, 3, 4]

theorem pair_laid : pair.Laid pairMemory where
  addressed := by decide
  counted := by decide
  records := by
    intro i iov found
    match i with
    | 0 => rw [← found]; decide
    | 1 => rw [← found]; decide
  buffers := by decide
  result := by decide

theorem pair_apart : pair.Apart where
  buffers := by
    refine List.pairwise_pair.mpr ?_
    rintro ⟨i, first, second⟩
    simp only at first second
    omega
  records := by
    rintro iov member ⟨i, first, second⟩
    rcases List.mem_pair.mp member with rfl | rfl <;> simp [pair] at first second <;> omega
  result := by
    rintro iov member ⟨i, first, second⟩
    rcases List.mem_pair.mp member with rfl | rfl <;> simp [pair] at first second <;> omega

/-- One byte, and then none. -/
theorem pair_stops : pair.Meets (fun i => 1 - i) ∧ pair.Writes (fun i => 1 - i) pairMemory ∧
    pair.Reads (fun i => 1 - i) (fun j => .ofNat (10 + j)) pairMemory := by
  have meets : pair.Meets fun i => 1 - i :=
    ⟨⟨fun _ => by decide, fun _ => by decide, trivial⟩, by decide, fun _ => by decide, by decide⟩
  have iff := vectored_iff (fun i => 1 - i) (fun j => .ofNat (10 + j)) pair_laid
  exact ⟨meets, iff.1 meets, iff.2.1 pair_apart meets⟩

/-- One byte of the first buffer, and both of the second one. -/
theorem pair_goes_on :
    pair.Laid pairMemory ∧ pair.Apart ∧ ¬ pair.Writes (fun i => 1 + i) pairMemory ∧
    ¬ pair.Reads (fun i => 1 + i) (fun j => .ofNat (10 + j)) pairMemory := by
  refine ⟨pair_laid, pair_apart, ?_, ?_⟩
  · rintro ⟨w, ran, front, -⟩
    rw [fdWrite_eq pair_laid (fun _ => by decide) (by decide)] at ran
    obtain rfl := (Prod.mk.inj (Option.some.inj ran)).2
    revert front
    decide
  · rintro ⟨w, ran, front, -⟩
    obtain ⟨memory, ran', -, filled⟩ :=
      fdRead_eq (fun i => 1 + i) (fun j => .ofNat (10 + j)) pair_laid pair_apart
      (fun _ => by decide) (by decide)
    rw [ran'] at ran
    obtain rfl := (Prod.mk.inj (Option.some.inj ran)).2
    rw [filled] at front
    dsimp only at front
    revert front
    decide

end Vectors
end AlloyStack.Wasi
