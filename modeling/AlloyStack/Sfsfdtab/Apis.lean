import AlloyStack.Fatfs.Volume

/-! The fdtab service over rcore's simple file system. Descriptors are keys of a map and are never
given out again. The rcore-fs crates are taken to store what they are given; which node a path leads
to, and which name the root directory takes for a new file, are their own. -/
namespace AlloyStack.Sfsfdtab
open Rust AlloyStack.Fdtab AlloyStack.Fatfs

inductive INode (Name : Type) where
  | file (name : Name)
  | directory

structure FileWrapper (Name : Type) where
  inode : INode Name
  offset : Nat
  readable : Bool
  writable : Bool

/-- `FD_TABLE`, `NEXT_FD` and the files of the mounted file system. -/
structure Service (Name : Type) where
  table : Fd → Option (FileWrapper Name)
  nextFd : Fd
  files : Name → Option (List UInt8)

/-- How the file system reads paths: the node that `lookup` leads to, and the file that `create`
makes. -/
structure Paths (Name : Type) where
  lookup : String → Option (INode Name)
  create : String → Option Name

/-- `path.trim_start_matches('/')`. -/
def trimStart (path : String) : String := .ofList (path.toList.dropWhile (· == '/'))

variable {Name : Type}

/-- The file system after `init`, which copies the files of the image. -/
def Service.mounted (files : Name → Option (List UInt8)) : Service Name := ⟨fun _ => none, 3, files⟩

def Service.content (s : Service Name) (name : Name) : List UInt8 := (s.files name).getD []

/-- `none` is the panic of `*next += 1` in a checked build. -/
def allocFd (b : Build) (inode : INode Name) (readable writable : Bool) (s : Service Name) :
    Option (Fd × Service Name) :=
  if b.overflowChecks ∧ s.nextFd.toNat + 1 = 2 ^ 32 then none
  else some (s.nextFd,
    { s with
      table := Function.update s.table s.nextFd (some ⟨inode, 0, readable, writable⟩)
      nextFd := s.nextFd + 1 })

/-- The node that a path leads to, if it exists. -/
def Service.lookup (paths : Paths Name) (path : String) (s : Service Name) : Option (INode Name) :=
  match paths.lookup path with
  | some (.file name) => if (s.files name).isSome then some (.file name) else none
  | other => other

variable [DecidableEq Name]

def openFile (b : Build) (paths : Paths Name) (path : String) (flags mode : UInt32)
    (s : Service Name) :
    Option (Except String Fd × Service Name) :=
  let readable := mode &&& OpenMode.RD == OpenMode.RD || mode &&& OpenMode.RDWR == OpenMode.RDWR
  let writable := mode &&& OpenMode.WR == OpenMode.WR || mode &&& OpenMode.RDWR == OpenMode.RDWR
  match s.lookup paths path with
  | some inode => (allocFd b inode readable writable s).map fun (fd, s) => (.ok fd, s)
  | none =>
    if flags &&& O_CREAT == O_CREAT then
      match paths.create (trimStart path) with
      | some name =>
        if (s.files name).isSome then some (.error "create failed: EntryExist", s)
        else
          (allocFd b (.file name) readable writable
            { s with files := Function.update s.files name (some []) }).map
          fun (fd, s) => (.ok fd, s)
      | none => some (.error "create failed: InvalidParam", s)
    else some (.error "invalid fd", s)

omit [DecidableEq Name] in
/-- `read` with the bytes that it puts into the buffer. -/
def read (fd : Fd) (len : Size) (s : Service Name) : Except String (List UInt8) × Service Name :=
  match s.table fd with
  | none => (.error "invalid fd", s)
  | some file =>
    if !file.readable then (.error "read failed: InvalidParam", s)
    else match file.inode with
      | .directory => (.error "read failed: NotFile", s)
      | .file name =>
        let data := ((s.content name).drop file.offset).take len
        (.ok data,
          { s with
            table := Function.update s.table fd
              (some { file with offset := file.offset + data.length }) })

/-- A write beyond the end fills the gap with zeros. -/
def write (stdout : List UInt8 → Size) (fd : Fd) (buf : List UInt8) (s : Service Name) :
    Except String Size × Service Name :=
  if fd = 1 ∨ fd = 2 then (.ok (stdout buf), s)
  else match s.table fd with
    | none => (.error "invalid fd", s)
    | some file =>
      if !file.writable then (.error "write failed: InvalidParam", s)
      else match file.inode with
        | .directory => (.error "write failed: NotFile", s)
        | .file name =>
          let padded := s.content name ++ List.replicate (file.offset - (s.content name).length) 0
          (.ok buf.length,
            { s with
              table :=
                Function.update s.table fd (some { file with offset := file.offset + buf.length })
              files := Function.update s.files name (some (writeAt padded file.offset buf)) })

omit [DecidableEq Name] in
/-- A descriptor that is not open is closed without an error. -/
def close (fd : Fd) (s : Service Name) : Except String Unit × Service Name :=
  (.ok (), { s with table := Function.update s.table fd none })

omit [DecidableEq Name] in
def lseek (fd : Fd) (pos : UInt32) (s : Service Name) : Except String Unit × Service Name :=
  match s.table fd with
  | none => (.error "invalid fd", s)
  | some file =>
    (.ok (),
      { s with table := Function.update s.table fd (some { file with offset := pos.toNat }) })

end AlloyStack.Sfsfdtab
