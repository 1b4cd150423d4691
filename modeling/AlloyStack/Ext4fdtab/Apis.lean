import Mathlib.Data.List.Basic
import Mathlib.Logic.Function.Basic
import AlloyStack.Library.Rust
import AlloyStack.Fdtab.Apis
import AlloyStack.Rcore.Apis

/-! The service `ext4fdtab`. The file system of `ext4_rs` is a parameter: each method answers and
changes the file system. A call that panics has no result. -/
namespace AlloyStack.Ext4fdtab
open Rust AlloyStack.Fdtab
open AlloyStack.Rcore (readableMode writableMode)

structure Ext4InodeRef (Inode : Type) where
  inodeNum : UInt32
  inode : Inode

/-- What the service calls of `ext4_rs`. `init` is the file system on the image, if a block device
is found for it. -/
structure Ext4 (F E Inode Stat : Type) where
  init : Option F
  fileOpen : String → String → F → Except E UInt32 × F
  getInodeRef : UInt32 → F → Ext4InodeRef Inode
  readAt : UInt32 → Nat → Size → F → Except E (List UInt8) × F
  writeAt : UInt32 → Nat → List UInt8 → F → Except E Size × F
  dirOpen : String → F → Except E UInt32 × F
  dirGetEntries : UInt32 → F → List (String × UInt32)
  fromInodeRef : Ext4InodeRef Inode → Stat
  eacces : E
  debug : E → String

inductive Error where
  | fsError (message : String)
  | ext4Error (message : String)
  deriving DecidableEq, Repr

structure FileWrapper (Inode : Type) where
  inodeRef : Ext4InodeRef Inode
  offset : Nat
  readable : Bool
  writable : Bool

structure Service (F Inode : Type) where
  table : Fd → Option (FileWrapper Inode)
  nextFd : Fd
  initDone : Bool
  globalFs : Option F

/-- The statics before the first call. -/
def Service.initial : Service F Inode := ⟨fun _ => none, 3, false, none⟩

structure Setup (F E Inode Stat : Type) where
  build : Build
  ext4 : Ext4 F E Inode Stat
  stdout : List UInt8 → Size

structure DirEntry where
  dirPath : String
  entryName : String
  entryType : UInt32

section
variable {F E Inode Stat : Type}

abbrev Answer (F Inode α : Type) := Option (Except Error α × Service F Inode)

variable (v : Setup F E Inode Stat)

/-- `*INIT_DONE`. -/
def ensureInit (s : Service F Inode) : Service F Inode :=
  if s.initDone then s else { s with initDone := true, globalFs := v.ext4.init }

def allocFd (inodeRef : Ext4InodeRef Inode) (readable writable : Bool) (s : Service F Inode) :
    Option (Fd × Service F Inode) :=
  if v.build.overflowChecks ∧ s.nextFd.toNat + 1 = 2 ^ 32 then none
  else some (s.nextFd, { s with
    table := Function.update s.table s.nextFd (some ⟨inodeRef, 0, readable, writable⟩)
    nextFd := s.nextFd + 1 })

def removeFd (fd : Fd) (s : Service F Inode) : Service F Inode :=
  { s with table := Function.update s.table fd none }

/-- `open`: whatever the flags are, the path is opened with `"r"`. -/
def openFile (path : String) (_flags mode : UInt32) (s : Service F Inode) : Answer F Inode Fd :=
  let s := ensureInit v s
  match s.globalFs with
  | none => some (.error (.fsError "global fs not initialized"), s)
  | some fs =>
    match v.ext4.fileOpen path "r" fs with
    | (.error e, fs) =>
      some (.error (.ext4Error s!"open failed: {v.ext4.debug e}"), { s with globalFs := some fs })
    | (.ok inodeNum, fs) =>
      (allocFd v (v.ext4.getInodeRef inodeNum fs) (readableMode mode) (writableMode mode)
        { s with globalFs := some fs }).map fun (fd, s) => (.ok fd, s)

/-- A method on the file of a descriptor. Without a file system `unwrap` panics. -/
def onFile (fd : Fd) (failed : E → String) (s : Service F Inode)
    (body : FileWrapper Inode → F → Option (Except E (α × FileWrapper Inode) × F)) :
    Answer F Inode α :=
  match s.table fd with
  | none => some (.error (.fsError "invalid fd"), s)
  | some file =>
    s.globalFs.bind fun fs =>
    (body file fs).map fun
      | (.error e, fs) => (.error (.ext4Error (failed e)), { s with globalFs := some fs })
      | (.ok (value, file), fs) =>
        (.ok value, { s with table := Function.update s.table fd (some file), globalFs := some fs })

def FileWrapper.read (file : FileWrapper Inode) (len : Size) (fs : F) :
    Option (Except E (List UInt8 × FileWrapper Inode) × F) :=
  if !file.readable then some (.error v.ext4.eacces, fs)
  else match v.ext4.readAt file.inodeRef.inodeNum file.offset len fs with
    | (.error e, fs) => some (.error e, fs)
    | (.ok data, fs) =>
      (v.build.add file.offset data.length).map fun offset => (.ok (data, { file with offset }), fs)

def FileWrapper.write (file : FileWrapper Inode) (buf : List UInt8) (fs : F) :
    Option (Except E (Size × FileWrapper Inode) × F) :=
  if !file.writable then some (.error v.ext4.eacces, fs)
  else match v.ext4.writeAt file.inodeRef.inodeNum file.offset buf fs with
    | (.error e, fs) => some (.error e, fs)
    | (.ok len, fs) =>
      (v.build.add file.offset len).map fun offset => (.ok (len, { file with offset }), fs)

def read (fd : Fd) (len : Size) (s : Service F Inode) : Answer F Inode (List UInt8) :=
  onFile fd (fun e => s!"read failed: {v.ext4.debug e}") (ensureInit v s) fun file =>
    file.read v len

def write (fd : Fd) (buf : List UInt8) (s : Service F Inode) : Answer F Inode Size :=
  if fd = 1 ∨ fd = 2 then some (.ok (v.stdout buf), ensureInit v s)
  else
    onFile fd (fun e => s!"write failed: {v.ext4.debug e}") (ensureInit v s) fun file =>
      file.write v buf

/-- The metadata is that of the inode as it was opened. -/
def stat (fd : Fd) (s : Service F Inode) : Answer F Inode Stat :=
  match s.table fd with
  | none => some (.error (.fsError "invalid fd"), s)
  | some file => some (.ok (v.ext4.fromInodeRef file.inodeRef), s)

def close (fd : Fd) (s : Service F Inode) : Answer F Inode Unit :=
  some (.ok (), removeFd fd (ensureInit v s))

def lseek (fd : Fd) (pos : UInt32) (s : Service F Inode) : Answer F Inode Unit :=
  let s := ensureInit v s
  match s.table fd with
  | none => some (.error (.fsError "invalid fd"), s)
  | some file =>
    some (.ok (),
      { s with table := Function.update s.table fd (some { file with offset := pos.toNat }) })

def readdir (path : String) (s : Service F Inode) : Answer F Inode (List DirEntry) :=
  let s := ensureInit v s
  match s.globalFs with
  | none => some (.error (.fsError "global fs not initialized"), s)
  | some fs =>
    match v.ext4.dirOpen path fs with
    | (.error e, fs) =>
      some (.error (.ext4Error s!"readdir failed: {v.ext4.debug e}"),
        { s with globalFs := some fs })
    | (.ok dir, fs) =>
      let entries := (v.ext4.dirGetEntries dir fs).map fun (name, type) => ⟨path, name, type⟩
      some (.ok entries, { s with globalFs := some fs })

end
end AlloyStack.Ext4fdtab
