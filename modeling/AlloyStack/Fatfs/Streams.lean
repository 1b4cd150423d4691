import Mathlib.Data.List.Basic
import AlloyStack.Fatfs.Volume

/-! `fatfs_read` and `fatfs_write` over a file of the crate that may read less than it is asked for,
and whose `write_all` and `flush` may fail, and the fdtab calls that reach them. -/
namespace AlloyStack.Fatfs
open Rust SlotTable AlloyStack.Fdtab

/-- What one `read` of the crate's file returns, by the number of the call: at least one byte
before the end of the file, at most what is asked for and left. -/
structure ReadPattern where
  count : (call requested left : Nat) → Nat
  positive : ∀ call requested left, 0 < requested → 0 < left → 0 < count call requested left
  most : ∀ call requested left, count call requested left ≤ min requested left

/-- The loop of `fatfs_read` for `len` bytes of the buffer that are still free: the bytes that it
gets, the position after them and the number of the next call. -/
def readLoop (p : ReadPattern) (content : List UInt8) (len cursor call : Nat) :
    List UInt8 × Nat × Nat :=
  if len = 0 then ([], cursor, call)
  else
    let size := p.count call len (content.length - cursor)
    if size = 0 then ([], cursor, call + 1)
    else
      let rest := readLoop p content (len - size) (cursor + size) (call + 1)
      ((content.drop cursor).take size ++ rest.1, rest.2)
termination_by len
decreasing_by exact Nat.sub_lt (Nat.pos_of_ne_zero ‹_›) (Nat.pos_of_ne_zero ‹_›)

/-- How the closure of `fatfs_write` ends, with the number of bytes that were stored when a part of
it failed. -/
inductive Writing where
  | ok
  | writeAllErr (message : String) (stored : Nat)
  | flushErr (message : String) (stored : Nat)
  deriving DecidableEq, Repr

namespace Writing

/-- The bytes of the buffer that are stored. -/
def stored (buf : List UInt8) : Writing → List UInt8
  | .ok => buf
  | .writeAllErr _ n => buf.take n
  | .flushErr _ n => buf.take n

/-- How far the position moves: a `write_all` that succeeds moves it past the buffer. -/
def advance (buf : List UInt8) : Writing → Nat
  | .writeAllErr _ n => (buf.take n).length
  | _ => buf.length

/-- The `Result` of the closure, which is bound to `_`. -/
def result : Writing → Except FatfsError Unit
  | .ok => .ok ()
  | .writeAllErr message _ => .error (.hostIOErr message)
  | .flushErr message _ => .error (.hostIOErr message)

end Writing

namespace Volume
variable {Name : Type} [DecidableEq Name]

/-- `fatfs_read`, with the number of the next call of the crate. -/
def fatfsReadWith (p : ReadPattern) (call : Nat) (fd : Fd) (len : Size) (v : Volume Name) :
    Except FatfsError Size × List UInt8 × Volume Name × Nat :=
  match slot v.table fd.toNat with
  | none => (.error (.badInputFd fd), [], v, call)
  | some file =>
    let (data, cursor, call) := readLoop p (v.content file.name) len file.cursor call
    (.ok data.length, data, { v with table := v.table.set fd.toNat (some { file with cursor }) },
      call)

/-- `fatfs_write`. -/
def fatfsWriteWith (outcome : Writing) (fd : Fd) (buf : List UInt8) (v : Volume Name) :
    Except FatfsError Size × Volume Name :=
  match slot v.table fd.toNat with
  | none => (.error (.badInputFd fd), v)
  | some file =>
    let _ := outcome.result
    (.ok buf.length,
      { table := v.table.set fd.toNat
          (some { file with cursor := file.cursor + outcome.advance buf })
        files := Function.update v.files file.name
          (some (writeAt (v.content file.name) file.cursor (outcome.stored buf))) })

end Volume

namespace Disk
variable {Name : Type} [DecidableEq Name] (b : Build)

/-- `read` of fdtab. -/
def readWith (p : ReadPattern) (call : Nat) (fd : Fd) (len : Size) (s : Disk Name) :
    Option (Except FdtabError Size × List UInt8 × Disk Name × Nat) :=
  (Fdtab.read b Volume.unanswered fd len s.fdTable).bind fun probe =>
    let (ans, data, volume, call) := match probe.calls with
      | [.fatfsRead rawFd len] =>
        let r := s.volume.fatfsReadWith p call rawFd len
        ({ Volume.unanswered with fatfsRead := r.1 }, r.2)
      | _ => (Volume.unanswered, [], s.volume, call)
    (Fdtab.read b ans fd len s.fdTable).map fun done =>
      (done.result, data, ⟨done.table, volume⟩, call)

/-- `write` of fdtab. -/
def writeWith (stdout : List UInt8 → Size) (outcome : Writing) (fd : Fd) (buf : List UInt8)
    (s : Disk Name) :
    Option (Except FdtabError Size × Disk Name) :=
  (Fdtab.write b Volume.unanswered fd buf s.fdTable).bind fun probe =>
    let (ans, volume) := match probe.calls with
      | [.fatfsWrite rawFd buf] =>
        let r := s.volume.fatfsWriteWith outcome rawFd buf
        ({ Volume.unanswered with fatfsWrite := r.1 }, r.2)
      | [.stdout buf] => ({ Volume.unanswered with stdout := stdout buf }, s.volume)
      | _ => (Volume.unanswered, s.volume)
    (Fdtab.write b ans fd buf s.fdTable).map fun done => (done.result, ⟨done.table, volume⟩)

end Disk

/-- However short the single reads are, the loop fills the buffer or reaches the end. -/
theorem readLoop_eq (p : ReadPattern) (content : List UInt8) (len cursor call : Nat) :
    (readLoop p content len cursor call).1 = (content.drop cursor).take len ∧
    (readLoop p content len cursor call).2.1 =
      cursor + ((content.drop cursor).take len).length := by
  induction len using Nat.strongRecOn generalizing cursor call with
  | _ len ih =>
    rw [readLoop]
    split
    · next none => simp [none]
    · next asked =>
      have most := p.most call len (content.length - cursor)
      have positive := p.positive call len (content.length - cursor) (Nat.pos_of_ne_zero asked)
      simp only
      split
      · next ended =>
        have beyond : content.length ≤ cursor := by omega
        simp [List.drop_of_length_le beyond]
      · next got =>
        obtain ⟨data, position⟩ := ih (len - p.count call len (content.length - cursor)) (by omega)
          (cursor + p.count call len (content.length - cursor)) (call + 1)
        have fits : p.count call len (content.length - cursor) ≤ len := by omega
        have joined :=
          List.take_add (l := content.drop cursor) (i := p.count call len (content.length - cursor))
          (j := len - p.count call len (content.length - cursor))
        rw [Nat.add_sub_cancel' fits, List.drop_drop] at joined
        refine ⟨by rw [data, joined], ?_⟩
        have first : ((content.drop cursor).take
            (p.count call len (content.length - cursor))).length =
            p.count call len (content.length - cursor) := by
          rw [List.length_take, List.length_drop]
          omega
        rw [position, joined, List.length_append, first, Nat.add_assoc]

section Reads
variable {Name : Type} [DecidableEq Name] {b : Build} {s : Disk Name} {fd rawFd : Fd}
  {file : Fdtab.File}
  {opened : Opened Name}

omit [DecidableEq Name] in
/-- For every pattern of short reads `fatfs_read` does what one read of the volume does. -/
theorem Volume.fatfsReadWith_eq (p : ReadPattern) (call : Nat) (v : Volume Name)
    (found : slot v.table fd.toNat = some opened) (len : Size) :
    ∃ next, v.fatfsReadWith p call fd len =
      (.ok (((v.content opened.name).drop opened.cursor).take len).length,
        ((v.content opened.name).drop opened.cursor).take len,
        { v with table := v.table.set fd.toNat (some { opened with
          cursor := opened.cursor +
            (((v.content opened.name).drop opened.cursor).take len).length }) }, next) := by
  obtain ⟨data, cursor⟩ := readLoop_eq p (v.content opened.name) len opened.cursor call
  exact ⟨_, by simp only [Volume.fatfsReadWith, found, data, cursor]; rfl⟩

omit [DecidableEq Name] in
theorem Disk.readWith_eq (valid : ¬ fd.toNat ≤ 2) (listed : s.fdTable.files fd.toNat = some file)
    (source : file.src = .fatFS rawFd) (allowed : file.canRead = true) (p : ReadPattern)
    (call : Nat) (len : Size) :
    s.readWith b p call fd len =
      let r := s.volume.fatfsReadWith p call rawFd len
      some (r.1.mapError .fatfsError, r.2.1, ⟨s.fdTable, r.2.2.1⟩, r.2.2.2) := by
  simp only [Disk.readWith, Fdtab.read, if_neg valid, withFile_eq valid, listed, allowed, source,
    Bool.not_true, Bool.false_eq_true, if_false, Option.map_some, Option.bind_some]

theorem Disk.writeWith_eq (valid : ¬ fd.toNat ≤ 2) (listed : s.fdTable.files fd.toNat = some file)
    (source : file.src = .fatFS rawFd) (allowed : file.canWrite = true)
    (stdout : List UInt8 → Size) (outcome : Writing) (buf : List UInt8) :
    s.writeWith b stdout outcome fd buf =
      let r := s.volume.fatfsWriteWith outcome rawFd buf
      some (r.1.mapError .fatfsError, ⟨s.fdTable, r.2⟩) := by
  have positive : ¬ fd.toNat = 0 := by omega
  simp only [Disk.writeWith, Fdtab.write, if_neg positive, if_neg valid, withFile_eq valid, listed,
    allowed, source, Bool.not_true, Bool.false_eq_true, if_false, Option.map_some, Option.bind_some]

end Reads
end AlloyStack.Fatfs
