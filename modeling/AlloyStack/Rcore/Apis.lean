import Mathlib.Data.List.Basic
import Mathlib.Logic.Function.Basic
import AlloyStack.Library.LockProgram
import AlloyStack.Library.Rust
import AlloyStack.Fatfs.FileList
import AlloyStack.Fdtab.Apis

/-! The two services over rcore-fs, `rcore_sfsfdtab` and `rcorefdtab`, as programs that take
their locks. They differ in `init` and in `open`; the rest of their functions is the same text.
The nodes of the mounted file system are its own: each method answers, changes the file system,
and accesses the block device a number of times, under the lock of the device. -/
namespace AlloyStack.Rcore
open Rust LockProgram AlloyStack.Fdtab AlloyStack.Fatfs

inductive Kind where
  | sfs
  | ramfs
  deriving DecidableEq, Repr

/-- `INIT_DONE`, `GLOBAL_LOCK` of feature `lock`, `FD_TABLE`, `NEXT_FD` and the block device. -/
inductive Lock where
  | initDone
  | globalLock
  | fdTable
  | nextFd
  | device
  deriving DecidableEq, Repr

inductive FileType where
  | file
  | dir
  | symLink
  | charDevice
  | blockDevice
  | namedPipe
  | socket
  deriving DecidableEq, Repr

/-- The fields of a node's metadata that the services look at, and those that `convert` copies. -/
structure Metadata (Stat : Type) where
  type : FileType
  inode : Nat
  stat : Stat

/-- An answer, the number of device accesses, and the file system afterwards. -/
abbrev Method (W α : Type) := W → α × Nat × W

/-- The methods of `rcore_fs::vfs::INode`; `mount` builds the file system and copies the image. -/
structure Vfs (I W E Stat Poll : Type) where
  mount : Method W (Option I)
  readAt : I → Nat → Size → Method W (Except E (List UInt8))
  writeAt : I → Nat → List UInt8 → Method W (Except E Size)
  metadata : I → Method W (Except E (Metadata Stat))
  lookup : I → String → Method W (Except E I)
  find : I → String → Method W (Except E I)
  list : I → Method W (Except E (List String))
  create : I → String → FileType → UInt32 → Method W (Except E I)
  link : I → String → I → Method W (Except E Unit)
  unlink : I → String → Method W (Except E Unit)
  move : I → String → I → String → Method W (Except E Unit)
  setMetadata : I → Metadata Stat → Method W (Except E Unit)
  syncAll : I → Method W (Except E Unit)
  syncData : I → Method W (Except E Unit)
  poll : I → Method W (Except E Poll)
  invalidParam : E
  debug : E → String

structure FileWrapper (I : Type) where
  inode : I
  offset : Nat
  readable : Bool
  writable : Bool

/-- The statics of a service. `globalFs` is the root node of the mounted file system. -/
structure Service (I W : Type) where
  table : Fd → Option (FileWrapper I)
  nextFd : Fd
  initDone : Bool
  globalFs : Option I
  world : W

structure Setup (I W E Stat Poll : Type) where
  kind : Kind
  build : Build
  lockFeature : Bool
  vfs : Vfs I W E Stat Poll
  stdout : List UInt8 → Size

structure DirEntry where
  dirPath : String
  entryName : String
  entryType : FileType

section
variable {I W E Stat Poll : Type}

abbrev Api (I W α : Type) := Prog Lock (Service I W) α

/-- A call of a method of the file system. -/
def call (method : Method W α) : Api I W α := do
  let s ← state
  let (answer, accesses, world) := method s.world
  times accesses (withLock .device (pure ()))
  put { s with world }
  pure answer

def insertFd (fd : Fd) (file : FileWrapper I) : Api I W Unit := do
  let s ← state
  put { s with table := Function.update s.table fd (some file) }

variable (v : Setup I W E Stat Poll)

/-- A standard stream of `rcorefdtab`: a device node, or the root where there is none. -/
def standardStream (root : I) (fd : Fd) (path : String) (readable writable : Bool) : Api I W Unit :=
  do
  let inode ← call (v.vfs.lookup root path)
  let inode := match inode with
    | .ok inode => inode
    | .error _ => root
  withLock .fdTable (insertFd fd ⟨inode, 0, readable, writable⟩)

def init : Api I W Unit := do
  let root ← call v.vfs.mount
  let s ← state
  put { s with globalFs := root }
  match v.kind, root with
  | .ramfs, some root => do
    standardStream v root 0 "/dev/stdin" true false
    standardStream v root 1 "/dev/stdout" false true
    standardStream v root 2 "/dev/stderr" false true
  | _, _ => pure ()

/-- `*INIT_DONE`. -/
def ensureInit : Api I W Unit := do
  let s ← state
  if s.initDone then pure ()
  else withLock .initDone do
    init v
    let s ← state
    put { s with initDone := true }

/-- The first lines of every exported function. -/
def exported (body : Api I W α) : Api I W α := do
  ensureInit v
  if v.lockFeature then withLock .globalLock body else body

def allocFd (inode : I) (readable writable : Bool) : Api I W Fd :=
  withLock .fdTable <| withLock .nextFd do
    let s ← state
    if v.build.overflowChecks ∧ s.nextFd.toNat + 1 = 2 ^ 32 then fail
    else do
      put { s with
        table := Function.update s.table s.nextFd (some ⟨inode, 0, readable, writable⟩)
        nextFd := s.nextFd + 1 }
      pure s.nextFd

def getFileWrapper (fd : Fd) : Api I W (Option (FileWrapper I)) :=
  withLock .fdTable do
    let s ← state
    pure (s.table fd)

def removeFd (fd : Fd) : Api I W Unit :=
  withLock .fdTable do
    let s ← state
    put { s with table := Function.update s.table fd none }

def readableMode (mode : UInt32) : Bool :=
  mode &&& OpenMode.RD == OpenMode.RD || mode &&& OpenMode.RDWR == OpenMode.RDWR
def writableMode (mode : UInt32) : Bool :=
  mode &&& OpenMode.WR == OpenMode.WR || mode &&& OpenMode.RDWR == OpenMode.RDWR

/-- `path.trim_start_matches('/')`. -/
def trimStart (path : String) : String := .ofList (path.toList.dropWhile (· == '/'))

/-- What `open` does when the path is not found. Only `rcore_sfsfdtab` creates files. -/
def openMissing (root : I) (path : String) (flags mode : UInt32) : Api I W (Except String Fd) :=
  match v.kind with
  | .sfs =>
    if flags &&& O_CREAT == O_CREAT then do
      match ← call (v.vfs.create root (trimStart path) .file 0o644) with
      | .error e => pure (.error s!"create failed: {v.vfs.debug e}")
      | .ok inode => do
        let fd ← allocFd v inode (readableMode mode) (writableMode mode)
        pure (.ok fd)
    else pure (.error "invalid fd")
  | .ramfs => pure (.error s!"file not found: {path}")

def openFile (path : String) (flags mode : UInt32) : Api I W (Except String Fd) :=
  exported v do
    let s ← state
    match s.globalFs with
    | none => pure (.error "global fs not initialized")
    | some root => do
      match ← call (v.vfs.lookup root path) with
      | .ok inode => do
        let _ ← call (v.vfs.metadata inode)
        let fd ← allocFd v inode (readableMode mode) (writableMode mode)
        pure (.ok fd)
      | .error _ => openMissing v root path flags mode

def FileWrapper.read (file : FileWrapper I) (len : Size) :
    Api I W (Except E (List UInt8) × FileWrapper I) :=
  if !file.readable then pure (.error v.vfs.invalidParam, file)
  else do
    match ← call (v.vfs.readAt file.inode file.offset len) with
    | .error e => pure (.error e, file)
    | .ok data => pure (.ok data, { file with offset := file.offset + data.length })

def FileWrapper.write (file : FileWrapper I) (buf : List UInt8) :
    Api I W (Except E Size × FileWrapper I) :=
  if !file.writable then pure (.error v.vfs.invalidParam, file)
  else do
    match ← call (v.vfs.writeAt file.inode file.offset buf) with
    | .error e => pure (.error e, file)
    | .ok len => pure (.ok len, { file with offset := file.offset + len })

/-- The functions that lock the table and look a descriptor up in it. -/
def onTable (fd : Fd) (missing : α) (body : FileWrapper I → Api I W α) : Api I W α :=
  withLock .fdTable do
    let s ← state
    match s.table fd with
    | none => pure missing
    | some file => body file

def read (fd : Fd) (len : Size) : Api I W (Except String (List UInt8)) :=
  exported v <| onTable fd (.error "invalid fd") fun file => do
    let (result, file) ← file.read v len
    insertFd fd file
    pure (result.mapError fun e => s!"read failed: {v.vfs.debug e}")

def write (fd : Fd) (buf : List UInt8) : Api I W (Except String Size) :=
  exported v <|
    if fd = 1 ∨ fd = 2 then pure (.ok (v.stdout buf))
    else onTable fd (.error "invalid fd") fun file => do
      let (result, file) ← file.write v buf
      insertFd fd file
      pure (result.mapError fun e => s!"write failed: {v.vfs.debug e}")

def close (fd : Fd) : Api I W (Except String Unit) :=
  exported v do
    removeFd fd
    pure (.ok ())

def lseek (fd : Fd) (pos : UInt32) : Api I W (Except String Unit) :=
  exported v <| onTable fd (.error "invalid fd") fun file => do
    insertFd fd { file with offset := pos.toNat }
    pure (.ok ())

def stat (fd : Fd) : Api I W (Except String Stat) :=
  exported v do
    match ← getFileWrapper fd with
    | none => pure (.error "invalid fd")
    | some file => do
      match ← call (v.vfs.metadata file.inode) with
      | .error e => pure (.error s!"stat failed: {v.vfs.debug e}")
      | .ok described => pure (.ok described.stat)

/-- The loop of `readdir`: names that cannot be found or described are left out. -/
def entries (dir : I) (path : String) : List String → Api I W (List DirEntry)
  | [] => pure []
  | name :: rest => do
    match ← call (v.vfs.find dir name) with
    | .error _ => entries dir path rest
    | .ok child => do
      match ← call (v.vfs.metadata child) with
      | .error _ => entries dir path rest
      | .ok described => do
        let later ← entries dir path rest
        pure (⟨path, name, described.type⟩ :: later)

def readdir (path : String) : Api I W (Except String (List DirEntry)) :=
  exported v do
    let s ← state
    match s.globalFs with
    | none => pure (.error "global fs not initialized")
    | some root => do
      let method :=
        if path.toList.head? = some '/' then v.vfs.lookup root path else v.vfs.find root path
      match ← call method with
      | .error e => pure (.error s!"readdir failed: {v.vfs.debug e}")
      | .ok dir => do
        match ← call (v.vfs.list dir) with
        | .error e => pure (.error s!"readdir failed: {v.vfs.debug e}")
        | .ok names => do
          let found ← entries v dir path names
          pure (.ok found)

/-- The guard of the table is alive when `alloc_fd` is called. -/
def create (parentFd : Nat) (name : String) (type : FileType) (mode : UInt32) :
    Api I W (Option Nat) :=
  exported v <| onTable (.ofNat parentFd) none fun parent => do
    match ← call (v.vfs.metadata parent.inode) with
    | .error _ => pure none
    | .ok described =>
      if described.type ≠ .dir then pure none
      else do
        match ← call (v.vfs.create parent.inode name type mode) with
        | .error _ => pure none
        | .ok inode => do
          let fd ← allocFd v inode true true
          pure (some fd.toNat)

/-- `is_ok()` of a method on the node of a descriptor. -/
def succeeds (method : Method W (Except E α)) : Api I W Bool := do
  match ← call method with
  | .error _ => pure false
  | .ok _ => pure true

def link (parentFd : Nat) (name : String) (targetFd : Nat) : Api I W Bool :=
  exported v <| onTable (.ofNat parentFd) false fun parent => do
    let s ← state
    match s.table (.ofNat targetFd) with
    | none => pure false
    | some target => succeeds (v.vfs.link parent.inode name target.inode)

def unlink (parentFd : Nat) (name : String) : Api I W Bool :=
  exported v <| onTable (.ofNat parentFd) false fun parent =>
    succeeds (v.vfs.unlink parent.inode name)

/-- The new parent moves a child that is named by the number of the old node. -/
def rename (oldFd newParentFd : Nat) (newName : String) : Api I W Bool :=
  exported v <| onTable (.ofNat oldFd) false fun old => do
    let s ← state
    match s.table (.ofNat newParentFd) with
    | none => pure false
    | some newParent => do
      match ← call (v.vfs.metadata old.inode) with
      | .error _ => pure false
      | .ok described =>
        succeeds (v.vfs.move newParent.inode (toString described.inode) newParent.inode newName)

def setMetadata (fd : Nat) (described : Metadata Stat) : Api I W Bool :=
  exported v <| onTable (.ofNat fd) false fun file =>
    succeeds (v.vfs.setMetadata file.inode described)

def flush (fd : Nat) : Api I W Bool :=
  exported v <| onTable (.ofNat fd) false fun file => succeeds (v.vfs.syncAll file.inode)

def sync (fd : Nat) : Api I W Bool :=
  exported v <| onTable (.ofNat fd) false fun file => succeeds (v.vfs.syncData file.inode)

def poll (fd : Nat) : Api I W (Option Poll) :=
  exported v <| onTable (.ofNat fd) none fun file => do
    match ← call (v.vfs.poll file.inode) with
    | .error _ => pure none
    | .ok status => pure (some status)

def setNonblocking (_fd : Nat) (_nonblocking : Bool) : Api I W Bool := pure true

end
end AlloyStack.Rcore
