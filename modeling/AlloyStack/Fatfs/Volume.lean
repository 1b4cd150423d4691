import AlloyStack.Fatfs.FileList
import AlloyStack.Fdtab.FileMap

/-! The fatfs service with the contents of its volume, and the fdtab service on top of it. The
fatfs crate is taken to store what it is given; how it resolves a path, and how much of a write
still fits, are its own. The image is mounted and `FTABLE` is not poisoned. -/
namespace AlloyStack.Fatfs
open Rust SlotTable AlloyStack.Fdtab

/-- A write at a position that is not beyond the end. -/
def writeAt (content : List UInt8) (cursor : Nat) (data : List UInt8) : List UInt8 :=
  content.take cursor ++ data ++ content.drop (cursor + data.length)

/-- A boxed file of the crate, in place of its address in `FTABLE`. -/
structure Opened (Name : Type) where
  name : Name
  cursor : Nat
  deriving DecidableEq

structure Volume (Name : Type) where
  table : List (Option (Opened Name))
  files : Name → Option (List UInt8)

/-- What the volume has left for one call: a directory entry, and bytes of a write. -/
structure Space where
  entry : Bool
  bytes : Nat

namespace Volume
variable {Name : Type}

/-- The mounted image, with no file open. -/
def mounted (files : Name → Option (List UInt8)) : Volume Name := ⟨[], files⟩

def content (v : Volume Name) (name : Name) : List UInt8 := (v.files name).getD []

variable [DecidableEq Name]

/-- `create_file` opens an existing file as it is; `open_file` does not create one. -/
def fatfsOpen (resolve : String → Option Name) (space : Space) (path : String) (flags : UInt32)
    (v : Volume Name) :
    Except FatfsError Fd × Volume Name :=
  match resolve path with
  | none => (.error .unknown, v)
  | some name =>
    let added := v.table ++ [some ⟨name, 0⟩]
    if (v.files name).isSome then (.ok (UInt32.ofNat v.table.length), { v with table := added })
    else if flags &&& O_CREAT == O_CREAT && space.entry then
      (.ok (UInt32.ofNat v.table.length), ⟨added, Function.update v.files name (some [])⟩)
    else (.error .unknown, v)

/-- `fatfs_read` with the bytes that it puts into the buffer. Its loop ends when the buffer is
full or the file has no more bytes. -/
def fatfsRead (fd : Fd) (len : Size) (v : Volume Name) :
    Except FatfsError Size × List UInt8 × Volume Name :=
  match slot v.table fd.toNat with
  | none => (.error (.badInputFd fd), [], v)
  | some file =>
    let data := ((v.content file.name).drop file.cursor).take len
    (.ok data.length, data,
      { v with
        table := v.table.set fd.toNat (some { file with cursor := file.cursor + data.length }) })

/-- `fatfs_write` drops the error of `write_all`, and answers with the length of the buffer. -/
def fatfsWrite (space : Space) (fd : Fd) (buf : List UInt8) (v : Volume Name) :
    Except FatfsError Size × Volume Name :=
  match slot v.table fd.toNat with
  | none => (.error (.badInputFd fd), v)
  | some file =>
    let stored := buf.take space.bytes
    (.ok buf.length,
      { table := v.table.set fd.toNat (some { file with cursor := file.cursor + stored.length })
        files :=
          Function.update v.files file.name
            (some (writeAt (v.content file.name) file.cursor stored)) })

/-- The crate does not seek beyond the end of a file. -/
def fatfsSeek (fd : Fd) (pos : UInt32) (v : Volume Name) : Except FatfsError Unit × Volume Name :=
  match slot v.table fd.toNat with
  | none => (.error (.badInputFd fd), v)
  | some file =>
    let cursor := min pos.toNat (v.content file.name).length
    (.ok (), { v with table := v.table.set fd.toNat (some { file with cursor }) })

def fatfsStat (fd : Fd) (v : Volume Name) : Except FatfsError Stat :=
  match slot v.table fd.toNat with
  | none => .error (.badInputFd fd)
  | some file => .ok ⟨(v.content file.name).length⟩

def fatfsClose (fd : Fd) (v : Volume Name) : Except FatfsError Unit × Volume Name :=
  match slot v.table fd.toNat with
  | none => (.error (.badInputFd fd), v)
  | some _ => (.ok (), { v with table := v.table.set fd.toNat none })

/-- Stands for the answers of functions that are not called. -/
def unanswered : Answers where
  fatfsOpen := .error .unknown
  fatfsRead := .error .unknown
  fatfsWrite := .error .unknown
  fatfsSeek := .error .unknown
  fatfsStat := .error .unknown
  fatfsClose := .error .unknown
  recv := .error .noLocalEndpoint
  send := .error .noLocalEndpoint
  smolConnect := .error .noLocalEndpoint
  smolBind := .error .noLocalEndpoint
  smolAccept := .error .noLocalEndpoint
  smolClose := .error .noLocalEndpoint
  stdout := 0

/-- The answer to a call of fdtab, the bytes that it reads, and the volume after it. -/
def serve (resolve : String → Option Name) (stdout : List UInt8 → Size) (space : Space)
    (v : Volume Name) :
    Call → Answers × List UInt8 × Volume Name
  | .fatfsOpen path flags =>
    let r := v.fatfsOpen resolve space path flags
    ({ unanswered with fatfsOpen := r.1 }, [], r.2)
  | .fatfsRead rawFd len =>
    let r := v.fatfsRead rawFd len
    ({ unanswered with fatfsRead := r.1 }, r.2)
  | .fatfsWrite rawFd buf =>
    let r := v.fatfsWrite space rawFd buf
    ({ unanswered with fatfsWrite := r.1 }, [], r.2)
  | .fatfsSeek rawFd pos =>
    let r := v.fatfsSeek rawFd pos
    ({ unanswered with fatfsSeek := r.1 }, [], r.2)
  | .fatfsStat rawFd => ({ unanswered with fatfsStat := v.fatfsStat rawFd }, [], v)
  | .fatfsClose rawFd =>
    let r := v.fatfsClose rawFd
    ({ unanswered with fatfsClose := r.1 }, [], r.2)
  | .stdout buf => ({ unanswered with stdout := stdout buf }, [], v)
  | _ => (unanswered, [], v)

end Volume

/-- The two services. -/
structure Disk (Name : Type) where
  fdTable : FdTable
  volume : Volume Name

/-- An operation through fdtab, with the bytes that it reads. Which call it makes does not depend on
the answers, so a first execution tells the call and a second one gets its answer. -/
def Disk.exec {Name : Type} [DecidableEq Name] (b : Build) (resolve : String → Option Name)
    (stdout : List UInt8 → Size) (space : Space) (op : Op) (s : Disk Name) :
    Option (Except FdtabError Reply × List UInt8 × Disk Name) :=
  (Fdtab.exec b Volume.unanswered op s.fdTable).bind fun probe =>
    let (ans, data, volume) := match probe.calls with
      | [call] => s.volume.serve resolve stdout space call
      | _ => (Volume.unanswered, [], s.volume)
    (Fdtab.exec b ans op s.fdTable).map fun done => (done.result, data, ⟨done.table, volume⟩)

namespace Disk
variable {Name : Type} [DecidableEq Name] {b : Build} {resolve : String → Option Name}
  {stdout : List UInt8 → Size}
  {space : Space} {s : Disk Name} {fd : Fd} {file : File} {rawFd : Fd}

theorem exec_open (path : String) (flags mode : UInt32) :
    s.exec b resolve stdout space (.open path flags mode) =
    match s.volume.fatfsOpen resolve space path flags with
    | (.ok rawFd, volume) =>
      let added := s.fdTable.addFile { mode, src := .fatFS rawFd }
      some (.ok (.fd added.1), [], ⟨added.2, volume⟩)
    | (.error e, volume) => some (.error (.fatfsError e), [], ⟨s.fdTable, volume⟩) := by
  simp only [exec, Fdtab.exec, openFile, created, Volume.unanswered, Except.mapError,
    Option.map_some, Done.map, Option.bind_some, Volume.serve]
  rcases s.volume.fatfsOpen resolve space path flags with ⟨_ | rawFd, volume⟩ <;> rfl

theorem exec_read (valid : ¬ fd.toNat ≤ 2) (found : s.fdTable.files fd.toNat = some file)
    (source : file.src = .fatFS rawFd) (allowed : file.canRead = true) (len : Size) :
    s.exec b resolve stdout space (.read fd len) =
      let (answer, data, volume) := s.volume.fatfsRead rawFd len
      some ((answer.mapError .fatfsError).map .size, data, ⟨s.fdTable, volume⟩) := by
  simp only [exec, Fdtab.exec, Fdtab.read, if_neg valid, withFile_eq valid, found, allowed, source,
    Bool.not_true, Bool.false_eq_true, if_false, Option.map_some, Option.bind_some, Done.map,
    Volume.serve]

theorem exec_write (valid : ¬ fd.toNat ≤ 2) (found : s.fdTable.files fd.toNat = some file)
    (source : file.src = .fatFS rawFd) (allowed : file.canWrite = true) (buf : List UInt8) :
    s.exec b resolve stdout space (.write fd buf) =
      let (answer, volume) := s.volume.fatfsWrite space rawFd buf
      some ((answer.mapError .fatfsError).map .size, [], ⟨s.fdTable, volume⟩) := by
  have positive : ¬ fd.toNat = 0 := by omega
  simp only [exec, Fdtab.exec, Fdtab.write, if_neg positive, if_neg valid, withFile_eq valid, found,
    allowed, source, Bool.not_true, Bool.false_eq_true, if_false, Option.map_some, Option.bind_some,
    Done.map, Volume.serve]

variable (b resolve stdout space) in
theorem exec_read_absent (free : s.fdTable.files fd.toNat = none) (len : Size) :
    ∃ e, s.exec b resolve stdout space (.read fd len) = some (.error e, [], s) := by
  by_cases low : fd.toNat ≤ 2
  · simp [exec, Fdtab.exec, Fdtab.read, low, Done.map, Except.map]
  · simp [exec, Fdtab.exec, Fdtab.read, low, withFile_eq low, free, printed, Done.map, Except.map,
      Volume.serve]

variable (b resolve stdout space) in
theorem exec_read_denied (valid : ¬ fd.toNat ≤ 2) (found : s.fdTable.files fd.toNat = some file)
    (denied : file.canRead = false) (len : Size) :
    ∃ e, s.exec b resolve stdout space (.read fd len) = some (.error e, [], s) := by
  simp [exec, Fdtab.exec, Fdtab.read, valid, withFile_eq valid, found, denied, Done.map, Except.map]

variable (b resolve stdout space) in
theorem exec_write_absent (free : s.fdTable.files fd.toNat = none) (other : ¬ (fd = 1 ∨ fd = 2))
    (buf : List UInt8) :
    ∃ e, s.exec b resolve stdout space (.write fd buf) = some (.error e, [], s) := by
  by_cases zero : fd.toNat = 0
  · simp [exec, Fdtab.exec, Fdtab.write, zero, Done.map, Except.map]
  · have high : ¬ fd.toNat ≤ 2 := by
      rw [← UInt32.toNat_inj, ← UInt32.toNat_inj] at other
      simp only [UInt32.reduceToNat] at other
      omega
    simp [exec, Fdtab.exec, Fdtab.write, zero, high, withFile_eq high, free, printed, Done.map,
      Except.map, Volume.serve]

theorem exec_write_stdout (standard : fd = 1 ∨ fd = 2) (buf : List UInt8) :
    s.exec b resolve stdout space (.write fd buf) = some (.ok (.size (stdout buf)), [], s) := by
  rcases standard with rfl |
    rfl <;> simp [exec, Fdtab.exec, Fdtab.write, Done.map, Except.map, Volume.serve]

variable (b resolve stdout space) in
theorem exec_write_denied (valid : ¬ fd.toNat ≤ 2) (found : s.fdTable.files fd.toNat = some file)
    (denied : file.canWrite = false) (buf : List UInt8) :
    ∃ e, s.exec b resolve stdout space (.write fd buf) = some (.error e, [], s) := by
  have positive : ¬ fd.toNat = 0 := by omega
  simp [exec, Fdtab.exec, Fdtab.write, positive, valid, withFile_eq valid, found, denied, Done.map,
    Except.map]

variable (b resolve stdout space) in
theorem exec_lseek_absent (free : s.fdTable.files fd.toNat = none) (pos : UInt32) :
    ∃ e, s.exec b resolve stdout space (.lseek fd pos) = some (.error e, [], s) := by
  by_cases low : fd.toNat ≤ 2
  · simp [exec, Fdtab.exec, Fdtab.lseek, low, Done.map, Except.map]
  · simp [exec, Fdtab.exec, Fdtab.lseek, low, withFile_eq low, free, printed, Done.map, Except.map,
      Volume.serve]

theorem exec_lseek (valid : ¬ fd.toNat ≤ 2) (found : s.fdTable.files fd.toNat = some file)
    (source : file.src = .fatFS rawFd) (pos : UInt32) :
    s.exec b resolve stdout space (.lseek fd pos) =
      let (answer, volume) := s.volume.fatfsSeek rawFd pos
      some ((answer.mapError .fatfsError).map fun _ => .unit, [], ⟨s.fdTable, volume⟩) := by
  simp only [exec, Fdtab.exec, Fdtab.lseek, if_neg valid, withFile_eq valid, found, source,
    Option.map_some, Option.bind_some, Done.map, Volume.serve]

variable (b resolve stdout space) in
theorem exec_close (valid : ¬ fd.toNat ≤ 2) (found : s.fdTable.files fd.toNat = some file)
    (source : file.src = .fatFS rawFd) :
    ∃ rest : FdTable, rest.files = Function.update s.fdTable.files fd.toNat none ∧
      rest.length = s.fdTable.length ∧
      s.exec b resolve stdout space (.close fd) =
        let (answer, volume) := s.volume.fatfsClose rawFd
        some ((answer.mapError .fatfsError).map fun _ => .unit, [], ⟨rest, volume⟩) := by
  obtain ⟨rest, removed, files⟩ := removeFile_eq (b := b) (t := s.fdTable) valid
  refine ⟨rest, files, removeFile_length removed, ?_⟩
  simp only [exec, Fdtab.exec, Fdtab.close, if_neg valid, removed, found, source, Option.map_some,
    Option.bind_some, Done.map, Volume.serve]

end Disk

end AlloyStack.Fatfs
