import AlloyStack.Fatfs.FileList
import AlloyStack.Library.LinearMemory
import AlloyStack.Library.LittleEndian

/-! The WASI functions that a wasm guest imports and that write to its memory. An `i32` argument is
given by its 32 bits, and `none` is a panic of the host. How a pointer becomes an address of the
memory is a parameter of the imports; the code has `asUsize` for it. -/
namespace AlloyStack.Wasi
open Rust LinearMemory Fdtab

abbrev Bytes := List UInt8
abbrev I32 := UInt32

/-- `p as usize` keeps the sign of an `i32`. -/
def asUsize (p : I32) : Nat := if p.toNat < 2 ^ 31 then p.toNat else p.toNat + (2 ^ 64 - 2 ^ 32)

theorem asUsize_low (low : p.toNat < 2 ^ 31) : asUsize p = p.toNat := if_pos low

theorem asUsize_high (high : ¬ p.toNat < 2 ^ 31) : 2 ^ 32 < asUsize p := by
  rw [asUsize, if_neg high]
  omega

/-- `Memory::read` -/
def read (memory : Bytes) (offset len : Nat) : Option Bytes :=
  if offset + len ≤ memory.length then some (load memory offset len) else none

/-- `Memory::write` -/
def write (memory : Bytes) (offset : Nat) (buffer : Bytes) : Option Bytes :=
  if offset + buffer.length ≤ memory.length then some (store memory offset buffer) else none

theorem read_eq_some :
    read memory offset len = some data ↔ offset + len ≤ memory.length ∧
      data = load memory offset len := by
  unfold read
  split
  next inside => simp [inside, eq_comm]
  next outside => simp [outside]

theorem write_eq_some :
    write memory offset buffer = some memory' ↔ offset + buffer.length ≤ memory.length ∧
      memory' = store memory offset buffer := by
  unfold write
  split
  next inside => simp [inside, eq_comm]
  next outside => simp [outside]

/-- A pointer that was written to is below 2 GiB. -/
theorem write_asUsize (addressed : memory.length ≤ 2 ^ 32)
    (written : write memory (asUsize p) buffer = some memory') :
    p.toNat < 2 ^ 31 ∧ p.toNat + buffer.length ≤ memory.length ∧
      memory' = store memory p.toNat buffer := by
  obtain ⟨fits, rfl⟩ := write_eq_some.mp written
  by_cases low : p.toNat < 2 ^ 31
  · rw [asUsize_low low] at fits ⊢
    exact ⟨low, fits, rfl⟩
  · have high := asUsize_high low
    omega

theorem read_asUsize (addressed : memory.length ≤ 2 ^ 32)
    (found : read memory (asUsize p) len = some data) :
    p.toNat < 2 ^ 31 := by
  have fits := (read_eq_some.mp found).1
  by_contra low
  have high := asUsize_high low
  omega

inductive Errno where
  | success | badf | noent | overflow
  deriving DecidableEq, Repr

structure DirEntry where
  entryName : Bytes
  entryType : UInt32
  deriving DecidableEq, Repr

/-- The fields of `Stat` that are passed on to the guest. -/
structure FileStat where
  dev : UInt64
  ino : UInt64
  mode : UInt32
  nlink : UInt64
  size : UInt64
  atimeNsec : UInt64
  mtimeNsec : UInt64
  ctimeNsec : UInt64

/-- The calls of the libos over its own state. `none` is an error that the imports unwrap, or a
panic; `openFile` has its error as an answer. -/
structure Libos (σ : Type) where
  openFile : String → (flags mode : UInt32) → σ → Option (Option Fd × σ)
  close : Fd → σ → Option σ
  stat : Fd → σ → Option (FileStat × σ)
  read : Fd → (len : Nat) → σ → Option ({data : Bytes // data.length ≤ len} × σ)
  write : Fd → (data : Bytes) → σ → Option ({n : Nat // n ≤ data.length} × σ)
  readdir : String → σ → Option (List DirEntry × σ)
  getTime : σ → Option (Nat × σ)

/-- The build, and the bytes that are in the padding of a structure. -/
structure Host (σ : Type) extends Libos σ where
  build : Build
  padding : Nat → UInt8

/-- The memory of the guest, its entry of `WASI_STATE`, `FD2PATH` and the state of the libos. -/
structure World (σ : Type) where
  memory : Bytes
  args : Option (List Bytes)
  fd2path : Fd → Option String
  libos : σ

section Layouts
open LittleEndian

def pad (padding : Nat → UInt8) (n : Nat) : Bytes := (List.range n).map padding

/-- `WasiPrestatT` for the root directory -/
def prestat (padding : Nat → UInt8) : Bytes := [0] ++ pad padding 3 ++ encode 4 1

/-- The file type for the upper bits of a mode, and for the type of a directory entry. -/
def filetype : UInt32 → UInt8
  | 2 => 2
  | 4 => 3
  | 8 => 4
  | _ => 0

/-- `WasiFilestat` -/
def filestat (padding : Nat → UInt8) (stat : FileStat) : Bytes :=
  encode 8 stat.dev.toNat ++ encode 8 stat.ino.toNat ++ [filetype (stat.mode >>> 12)] ++
    pad padding 7 ++
    encode 8 stat.nlink.toNat ++ encode 8 stat.size.toNat ++ encode 8 stat.atimeNsec.toNat ++
    encode 8 stat.mtimeNsec.toNat ++ encode 8 stat.ctimeNsec.toNat

def direntSize : Nat := 24

/-- `WasiDirent`; the inode number is not filled in. -/
def dirent (padding : Nat → UInt8) (next : Nat) (item : DirEntry) : Bytes :=
  encode 8 next ++ encode 8 0 ++ encode 4 item.entryName.length ++ [filetype item.entryType] ++
    pad padding 3

/-- `WasiCiovec` in the memory: where the buffer starts, and its length. -/
def ciovec (memory : Bytes) (offset : Nat) : Option (Nat × Nat) :=
  (read memory offset 8).map fun record => (decode (record.take 4), decode (record.drop 4))

theorem ciovec_asUsize (addressed : memory.length ≤ 2 ^ 32)
    (found : ciovec memory (asUsize p + 0 * 8) = some iov) :
    p.toNat < 2 ^ 31 := by
  obtain ⟨bytes, loaded, -⟩ := Option.map_eq_some_iff.mp found
  rw [Nat.zero_mul, Nat.add_zero] at loaded
  exact read_asUsize addressed loaded

end Layouts

section Strings

/-- `Vec::with_capacity(len as usize)` panics for a negative length. -/
def capacity (len : I32) : Option Nat := if len.toNat < 2 ^ 31 then some len.toNat else none

/-- The bytes at a pointer, with `String::from_utf8`. -/
def readString (address : Nat) (len : I32) (memory : Bytes) : Option String := do
  let len ← capacity len
  let bytes ← read memory address len
  String.fromUTF8? ⟨bytes.toArray⟩

end Strings

section Imports
open LittleEndian
variable {σ : Type} (h : Host σ) (addr : I32 → Nat)

/-- The loop of `args_get`. -/
def putArgs (argv argvBuf : Nat) : List Bytes → (i offset : Nat) → Bytes → Option Bytes
  | [], _, _, memory => some memory
  | arg :: args, i, offset, memory => do
    let argAddr := argvBuf + offset
    let memory ← write memory (argv + i * 4) (encode 4 argAddr)
    let memory ← write memory argAddr arg
    let memory ← write memory (argAddr + arg.length) [0]
    putArgs argv argvBuf args (i + 1) (offset + (arg.length + 1)) memory

/-- `get_wasi_state` -/
def wasiState (w : World σ) : Option (List Bytes) := do
  let args ← w.args
  if args.length = 0 then none else some args

def argsGet (argv argvBuf : I32) (w : World σ) : Option (Errno × World σ) := do
  let args ← wasiState w
  let memory ← putArgs (addr argv) (addr argvBuf) args 0 0 w.memory
  some (.success, { w with memory })

def argsSizesGet (argc argvBufSize : I32) (w : World σ) : Option (Errno × World σ) := do
  let args ← wasiState w
  let size := (args.map fun arg => arg.length + 1).sum
  let memory ← write w.memory (addr argc) (encode 4 args.length)
  let memory ← write memory (addr argvBufSize) (encode 4 size)
  some (.success, { w with memory })

/-- `duration_since(UNIX_EPOCH).as_nanos()`, with the seconds as a `u64`. -/
def asNanos (nanos : Nat) : Nat := nanos / 10 ^ 9 % 2 ^ 64 * 10 ^ 9 + nanos % 10 ^ 9

/-- The time is a `u128`. -/
def clockTimeGet (time : I32) (w : World σ) : Option (Errno × World σ) := do
  let (nanos, libos) ← h.getTime w.libos
  let memory ← write w.memory (addr time) (encode 16 (asNanos nanos))
  some (.success, { w with memory, libos })

def fdPrestatGet (fd retptr : I32) (w : World σ) : Option (Errno × World σ) :=
  if fd = 3 then do
    let memory ← write w.memory (addr retptr) (prestat h.padding)
    some (.success, { w with memory })
  else some (.badf, w)

/-- The length of the path is not looked at. -/
def fdPrestatDirName (fd pathAddr _pathLen : I32) (w : World σ) : Option (Errno × World σ) :=
  if fd = 3 then do
    let memory ← write w.memory (addr pathAddr) [47]
    some (.success, { w with memory })
  else some (.overflow, w)

/-- The number of rounds of `for i in 0..n`. -/
def rounds (n : I32) : Nat := if n.toNat < 2 ^ 31 then n.toNat else 0

/-- The loop of `fd_read` with its rounds to go; each round takes its record from the memory. -/
def readLoop (fd : Fd) (iovs : Nat) : (left i readSize : Nat) → World σ → Option (Nat × World σ)
  | 0, _, readSize, w => some (readSize, w)
  | left + 1, i, readSize, w => do
    let (buf, bufLen) ← ciovec w.memory (iovs + i * 8)
    let _ ← read w.memory buf bufLen
    let (data, libos) ← h.read fd bufLen w.libos
    readLoop fd iovs left (i + 1)
      (readSize + data.1.length) { w with memory := store w.memory buf data, libos }

def fdRead (fd iovsPtr iovsLen retptr : I32) (w : World σ) : Option (Errno × World σ) := do
  let (readSize, w) ← readLoop h fd (addr iovsPtr) (rounds iovsLen) 0 0 w
  let memory ← write w.memory (addr retptr) (encode 4 readSize)
  some (.success, { w with memory })

/-- The loop of `fd_write`. -/
def writeLoop (fd : Fd) (iovs : Nat) (memory : Bytes) :
    (left i writeSize : Nat) → σ → Option (Nat × σ)
  | 0, _, writeSize, libos => some (writeSize, libos)
  | left + 1, i, writeSize, libos => do
    let (buf, bufLen) ← ciovec memory (iovs + i * 8)
    let data ← read memory buf bufLen
    let (n, libos) ← h.write fd data libos
    writeLoop fd iovs memory left (i + 1) (writeSize + n) libos

def fdWrite (fd iovsPtr iovsLen retptr : I32) (w : World σ) : Option (Errno × World σ) := do
  let (writeSize, libos) ← writeLoop h fd (addr iovsPtr) w.memory (rounds iovsLen) 0 0 w.libos
  let memory ← write w.memory (addr retptr) (encode 4 writeSize)
  some (.success, { w with memory, libos })

/-- The loop of `fd_readdir`, which returns what is stored at `bufused`. The used length does not
exceed `bufLen`. -/
def putEntries (b : Build) (padding : Nat → UInt8) (bufLen : Nat) :
    List DirEntry → (curCookie curBuf bufusedLen : Nat) → Bytes → Option (Nat × Bytes)
  | [], _, _, bufusedLen, memory => some (bufusedLen, memory)
  | item :: items, curCookie, curBuf, bufusedLen, memory => do
    let curCookie ← b.add curCookie 1
    let headed ← b.add32 bufusedLen direntSize
    let named ← b.add32 headed (item.entryName.length % 2 ^ 32)
    if bufLen < named then
      let cap := bufLen - bufusedLen
      let partBuf := dirent padding curCookie item ++ item.entryName
      if partBuf.length < cap then none
      else do
        let memory ← write memory curBuf (partBuf.take cap)
        some (bufLen, memory)
    else do
      let memory ← write memory curBuf (dirent padding curCookie item)
      let curBuf ← b.add32 curBuf direntSize
      let memory ← write memory curBuf item.entryName
      let curBuf ← b.add32 curBuf (item.entryName.length % 2 ^ 32)
      putEntries b padding bufLen items curCookie curBuf named memory

/-- The entries `.` and `..`, which are pushed to those of the libos. -/
def dots : List DirEntry := [⟨[46], 4⟩, ⟨[46, 46], 4⟩]

/-- `entries.sort_by` on the names -/
def sortedEntries (entries : List DirEntry) : List DirEntry :=
  (entries ++ dots).mergeSort fun a b => decide (a.entryName ≤ b.entryName)

/-- `get_fd2path` -/
def pathOf (fd : Fd) (w : World σ) : Option String := do
  let path ← w.fd2path fd
  if path.utf8ByteSize = 0 then none else some path

/-- `buf` goes through `u32`. -/
def fdReaddir (fd buf bufLen : I32) (cookie : UInt64) (bufused : I32) (w : World σ) :
    Option (Errno × World σ) := do
  let path ← pathOf fd w
  let (entries, libos) ← h.readdir path w.libos
  let (used, memory) ← putEntries h.build h.padding bufLen.toNat
      ((sortedEntries entries).drop cookie.toNat)
    cookie.toNat buf.toNat 0 w.memory
  let memory ← write memory (addr bufused) (encode 4 used)
  some (.success, { w with memory, libos })

def pathFilestatGet (pathPtr pathLen buf : I32) (w : World σ) : Option (Errno × World σ) := do
  let path ← readString (addr pathPtr) pathLen w.memory
  let (opened, libos) ← h.openFile path 0 OpenMode.RD w.libos
  match opened with
  | none => some (.noent, { w with libos })
  | some pathFd =>
    let (stat, libos) ← h.stat pathFd libos
    let libos ← h.close pathFd libos
    let memory ← write w.memory (addr buf) (filestat h.padding stat)
    some (.success, { w with memory, libos })

def O_APPEND : UInt32 := 1

/-- The open flags for `fdflags` and `oflags`, and the open mode for the rights. -/
def openFlags (fdflags oflags : I32) : UInt32 :=
  (if fdflags &&& 1 = 1 then O_APPEND else 0) ||| (if oflags &&& 1 = 1 then Fatfs.O_CREAT else 0)

def openMode (rightsBase : UInt64) : UInt32 :=
  (if (rightsBase >>> 1) &&& 1 = 1 then OpenMode.RD else 0) |||
    (if (rightsBase >>> 6) &&& 1 = 1 then OpenMode.WR else 0)

def pathOpen (pathAddr pathLen oflags : I32) (rightsBase : UInt64) (fdflags retptr : I32)
    (w : World σ) :
    Option (Errno × World σ) := do
  let path ← readString (addr pathAddr) pathLen w.memory
  let (opened, libos) ← h.openFile path (openFlags fdflags oflags) (openMode rightsBase) w.libos
  match opened with
  | none => some (.noent, { w with libos })
  | some pathFd =>
    let memory ← write w.memory (addr retptr) (encode 4 pathFd.toNat)
    some (.success,
      { w with memory, libos, fd2path := Function.update w.fd2path pathFd (some path) })

/-- The generator of `random_get`. -/
def lcg (seed : Nat) : Nat := ((1664525 * seed) % 2 ^ 64 + 1013904223) % 2 ^ 64 % 2 ^ 32

def randomBytes : (n seed : Nat) → Bytes
  | 0, _ => []
  | n + 1, seed => .ofNat (lcg seed) :: randomBytes n (lcg seed)

/-- The seed is the pointer itself. -/
def randomGet (buf bufLen : I32) (w : World σ) : Option (Errno × World σ) := do
  let len ← capacity bufLen
  let memory ← write w.memory (addr buf) (randomBytes len (asUsize buf))
  some (.success, { w with memory })

/-- A call of an import, with the arguments that it looks at. -/
inductive Call where
  | argsGet (argv argvBuf : I32)
  | argsSizesGet (argc argvBufSize : I32)
  | clockTimeGet (time : I32)
  | fdPrestatGet (fd retptr : I32)
  | fdPrestatDirName (fd pathAddr pathLen : I32)
  | fdRead (fd iovsPtr iovsLen retptr : I32)
  | fdReaddir (fd buf bufLen : I32) (cookie : UInt64) (bufused : I32)
  | fdWrite (fd iovsPtr iovsLen retptr : I32)
  | pathFilestatGet (pathPtr pathLen buf : I32)
  | pathOpen (pathAddr pathLen oflags : I32) (rightsBase : UInt64) (fdflags retptr : I32)
  | randomGet (buf bufLen : I32)

def Call.run : Call → World σ → Option (Errno × World σ)
  | .argsGet argv argvBuf => Wasi.argsGet addr argv argvBuf
  | .argsSizesGet argc argvBufSize => Wasi.argsSizesGet addr argc argvBufSize
  | .clockTimeGet time => Wasi.clockTimeGet h addr time
  | .fdPrestatGet fd retptr => Wasi.fdPrestatGet h addr fd retptr
  | .fdPrestatDirName fd pathAddr pathLen => Wasi.fdPrestatDirName addr fd pathAddr pathLen
  | .fdRead fd iovsPtr iovsLen retptr => Wasi.fdRead h addr fd iovsPtr iovsLen retptr
  | .fdReaddir fd buf bufLen cookie bufused => Wasi.fdReaddir h addr fd buf bufLen cookie bufused
  | .fdWrite fd iovsPtr iovsLen retptr => Wasi.fdWrite h addr fd iovsPtr iovsLen retptr
  | .pathFilestatGet pathPtr pathLen buf => Wasi.pathFilestatGet h addr pathPtr pathLen buf
  | .pathOpen pathAddr pathLen oflags rightsBase fdflags retptr =>
    Wasi.pathOpen h addr pathAddr pathLen oflags rightsBase fdflags retptr
  | .randomGet buf bufLen => Wasi.randomGet addr buf bufLen

end Imports
end AlloyStack.Wasi
