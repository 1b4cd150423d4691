import AlloyStack.Library.Rust
import AlloyStack.Library.SlotTable

/-! The fdtab service: the table of open files and the operations of its interface. What the
file system, the network stack and stdio answer is part of the input of an operation, and each
operation returns the list of the backend calls it made. -/
namespace AlloyStack.Fdtab
open Rust SlotTable

abbrev Fd := UInt32
abbrev SockFd := UInt32
abbrev Size := Nat

inductive DataSource where
  | fatFS (rawFd : Fd)
  | net (socket : SockFd)
  deriving DecidableEq, Repr

namespace OpenMode
def RD : UInt32 := 1
def WR : UInt32 := 2
def RDWR : UInt32 := 3
end OpenMode

/-- The mode is a set of bits. -/
structure File where
  mode : UInt32
  src : DataSource
  deriving DecidableEq, Repr

def File.canRead (file : File) : Bool := file.mode &&& OpenMode.RD == OpenMode.RD
def File.canWrite (file : File) : Bool := file.mode &&& OpenMode.WR == OpenMode.WR

inductive FatfsError where
  | hostIOErr (message : String)
  | acquireLockErr (message : String)
  | badInputFd (fd : Fd)
  | unknown
  deriving DecidableEq, Repr

inductive SmoltcpError where
  | acquireLockErr (name reason : String)
  | smoltcpErr (message : String)
  | hostIOErr (message : String)
  | dnsQueryFailed
  | badTCPState (expect found : String)
  | noLocalEndpoint
  deriving DecidableEq, Repr

/-- The errors that fdtab itself returns. -/
inductive FdtabError where
  | badInputFd (expect : String) (fd : Fd)
  | noExistFd (fd : Fd)
  | noReadPerm (fd : Fd)
  | noWritePerm (fd : Fd)
  | fatfsError (e : FatfsError)
  | socketError (e : SmoltcpError)
  | undefinedOperation (op : String) (fd : Fd) (fdType : String)
  deriving DecidableEq, Repr

/-- `SocketAddrV4`. -/
structure SocketAddr where
  ip : UInt32
  port : UInt16
  deriving DecidableEq, Repr

/-- The size is the only field of `Stat` that differs from zero. -/
structure Stat where
  stSize : Size
  deriving DecidableEq, Repr

inductive Call where
  | fatfsOpen (path : String) (flags : UInt32)
  | fatfsRead (rawFd : Fd) (len : Size)
  | fatfsWrite (rawFd : Fd) (buf : List UInt8)
  | fatfsSeek (rawFd : Fd) (pos : UInt32)
  | fatfsStat (rawFd : Fd)
  | fatfsClose (rawFd : Fd)
  | recv (socket : SockFd) (len : Size)
  | send (socket : SockFd) (buf : List UInt8)
  | smolConnect (addr : SocketAddr)
  | smolBind (addr : SocketAddr)
  | smolAccept (socket : SockFd)
  | smolClose (socket : SockFd)
  | stdout (buf : List UInt8)
  deriving DecidableEq, Repr

abbrev FdTable := List (Option File)

/-- What `println!` of as_std writes to descriptor 1 if there is no file. -/
def absentText (fd : Fd) : List UInt8 := s!"file fd={fd} not exist?\n".toUTF8.data.toList

/-- The calls of `with_file` and `with_file_mut` before the closure. -/
def printed (fd : Fd) : Option File → List Call
  | some _ => []
  | none => [.stdout (absentText fd)]

/-- `FdTable::with_file`, where the closure is also told which calls were made before it; `none` is
the panic of `fd as usize - 3` in a checked build. -/
def FdTable.withFile (b : Build) (t : FdTable) (fd : Fd) (f : Option File → List Call → α) :
    Option α :=
  (b.sub fd.toNat 3).map fun idx => f (slot t idx) (printed fd (slot t idx))

/-- `FdTable::with_file_mut`, where the closure also returns what it leaves in the entry. -/
def FdTable.withFileMut (b : Build) (t : FdTable) (fd : Fd)
    (f : Option File → List Call → α × Option File) : Option (α × FdTable) :=
  (b.sub fd.toNat 3).map fun idx =>
    let entry := slot t idx
    let answer := f entry (printed fd entry)
    match entry with
    | some _ => (answer.1, t.set idx answer.2)
    | none => (answer.1, t)

def FdTable.addFile (t : FdTable) (file : File) : Fd × FdTable :=
  (UInt32.ofNat ((insert file t).1 + 3), (insert file t).2)

def FdTable.removeFile (b : Build) (t : FdTable) (fd : Fd) : Option (Option File × FdTable) :=
  (b.sub fd.toNat 3).map fun idx =>
    if t.length ≤ idx then (none, t) else (slot t idx, t.set idx none)

/-- What each backend function answers if an operation calls it. -/
structure Answers where
  fatfsOpen : Except FatfsError Fd
  fatfsRead : Except FatfsError Size
  fatfsWrite : Except FatfsError Size
  fatfsSeek : Except FatfsError Unit
  fatfsStat : Except FatfsError Stat
  fatfsClose : Except FatfsError Unit
  recv : Except SmoltcpError Size
  send : Except SmoltcpError Unit
  smolConnect : Except SmoltcpError SockFd
  smolBind : Except SmoltcpError SockFd
  smolAccept : Except SmoltcpError SockFd
  smolClose : Except SmoltcpError Unit
  stdout : Size

structure Done (α : Type) where
  result : Except FdtabError α
  calls : List Call
  table : FdTable

variable (b : Build) (ans : Answers)

def read (fd : Fd) (len : Size) (t : FdTable) : Option (Done Size) :=
  if fd.toNat ≤ 2 then some ⟨.error (.badInputFd ">2" fd), [], t⟩
  else t.withFile b fd fun
    | none, calls => ⟨.error (.noExistFd fd), calls, t⟩
    | some file, _ =>
      if !file.canRead then ⟨.error (.noReadPerm fd), [], t⟩
      else match file.src with
        | .fatFS rawFd => ⟨ans.fatfsRead.mapError .fatfsError, [.fatfsRead rawFd len], t⟩
        | .net socket => ⟨ans.recv.mapError .socketError, [.recv socket len], t⟩

def write (fd : Fd) (buf : List UInt8) (t : FdTable) : Option (Done Size) :=
  if fd.toNat = 0 then some ⟨.error (.badInputFd ">0" fd), [], t⟩
  else if fd.toNat ≤ 2 then some ⟨.ok ans.stdout, [.stdout buf], t⟩
  else t.withFile b fd fun
    | none, calls => ⟨.error (.noExistFd fd), calls, t⟩
    | some file, _ =>
      if !file.canWrite then ⟨.error (.noWritePerm fd), [], t⟩
      else match file.src with
        | .fatFS rawFd => ⟨ans.fatfsWrite.mapError .fatfsError, [.fatfsWrite rawFd buf], t⟩
        | .net sockfd =>
          ⟨(ans.send.map fun _ => buf.length).mapError .socketError, [.send sockfd buf], t⟩

def lseek (fd : Fd) (pos : UInt32) (t : FdTable) : Option (Done Unit) :=
  if fd.toNat ≤ 2 then some ⟨.error (.badInputFd ">2" fd), [], t⟩
  else t.withFile b fd fun
    | none, calls => ⟨.error (.noExistFd fd), calls, t⟩
    | some file, _ =>
      match file.src with
      | .fatFS rawFd => ⟨ans.fatfsSeek.mapError .fatfsError, [.fatfsSeek rawFd pos], t⟩
      | .net _ => ⟨.error (.undefinedOperation "lseek" fd "Net"), [], t⟩

def stat (fd : Fd) (t : FdTable) : Option (Done Stat) :=
  if fd.toNat ≤ 2 then some ⟨.error (.badInputFd ">2" fd), [], t⟩
  else t.withFile b fd fun
    | none, calls => ⟨.error (.noExistFd fd), calls, t⟩
    | some file, _ =>
      match file.src with
      | .fatFS rawFd => ⟨ans.fatfsStat.mapError .fatfsError, [.fatfsStat rawFd], t⟩
      | .net _ => ⟨.error (.undefinedOperation "stat" fd "Net"), [], t⟩

/-- The end of `open`, `connect` and `bind`: a backend that answered with a handle gets a new
descriptor. -/
def created (call : Call) (answer : Except FdtabError UInt32) (file : UInt32 → File) (t : FdTable) :
    Option (Done Fd) :=
  match answer with
  | .ok handle => some ⟨.ok (t.addFile (file handle)).1, [call], (t.addFile (file handle)).2⟩
  | .error e => some ⟨.error e, [call], t⟩

def openFile (path : String) (flags mode : UInt32) (t : FdTable) : Option (Done Fd) :=
  created (.fatfsOpen path flags) (ans.fatfsOpen.mapError .fatfsError)
    (fun rawFd => { mode, src := .fatFS rawFd }) t

def connect (addr : SocketAddr) (t : FdTable) : Option (Done Fd) :=
  created (.smolConnect addr) (ans.smolConnect.mapError .socketError)
    (fun sockfd => { mode := OpenMode.RDWR, src := .net sockfd }) t

def bind (addr : SocketAddr) (t : FdTable) : Option (Done Fd) :=
  created (.smolBind addr) (ans.smolBind.mapError .socketError)
    (fun listened => { mode := OpenMode.RD, src := .net listened }) t

/-- The entry is gone before the backend is called, whatever it answers. -/
def close (fd : Fd) (t : FdTable) : Option (Done Unit) :=
  if fd.toNat ≤ 2 then some ⟨.error (.badInputFd ">2" fd), [], t⟩
  else (t.removeFile b fd).map fun
    | (none, t) => ⟨.error (.noExistFd fd), [], t⟩
    | (some file, t) =>
      match file.src with
      | .fatFS rawFd => ⟨ans.fatfsClose.mapError .fatfsError, [.fatfsClose rawFd], t⟩
      | .net socket => ⟨ans.smolClose.mapError .socketError, [.smolClose socket], t⟩

/-- The closure of `accept`: the listening descriptor gets the new handle, the old handle is
the connection. -/
def acceptOn (fd : Fd) :
    Option File → List Call → (Except FdtabError SockFd × List Call) × Option File
  | none, calls => ((.error (.noExistFd fd), calls), none)
  | some file, _ =>
    match file.src with
    | .net sockfd =>
      match ans.smolAccept with
      | .ok handle => ((.ok sockfd, [.smolAccept sockfd]), some { file with src := .net handle })
      | .error e => ((.error (.socketError e), [.smolAccept sockfd]), some file)
    | .fatFS _ => ((.error (.undefinedOperation "accept" fd "Net"), []), some file)

def accept (fd : Fd) (t : FdTable) : Option (Done Fd) :=
  if fd.toNat ≤ 2 then some ⟨.error (.badInputFd ">2" fd), [], t⟩
  else (t.withFileMut b fd (acceptOn ans fd)).map fun
    | ((.error e, calls), t) => ⟨.error e, calls, t⟩
    | ((.ok sockfd, calls), t) =>
      let added := t.addFile { mode := OpenMode.RDWR, src := .net sockfd }
      ⟨.ok added.1, calls, added.2⟩

inductive Op where
  | open (path : String) (flags mode : UInt32)
  | connect (addr : SocketAddr)
  | bind (addr : SocketAddr)
  | accept (fd : Fd)
  | read (fd : Fd) (len : Size)
  | write (fd : Fd) (buf : List UInt8)
  | lseek (fd : Fd) (pos : UInt32)
  | stat (fd : Fd)
  | close (fd : Fd)
  deriving DecidableEq, Repr

inductive Reply where
  | fd (fd : Fd)
  | size (n : Size)
  | stat (s : Stat)
  | unit
  deriving DecidableEq, Repr

def Done.map (f : α → β) (d : Done α) : Done β := { d with result := d.result.map f }

def exec (op : Op) (t : FdTable) : Option (Done Reply) :=
  match op with
  | .open path flags mode => (openFile ans path flags mode t).map (Done.map .fd)
  | .connect addr => (connect ans addr t).map (Done.map .fd)
  | .bind addr => (bind ans addr t).map (Done.map .fd)
  | .accept fd => (accept b ans fd t).map (Done.map .fd)
  | .read fd len => (read b ans fd len t).map (Done.map .size)
  | .write fd buf => (write b ans fd buf t).map (Done.map .size)
  | .lseek fd pos => (lseek b ans fd pos t).map (Done.map fun _ => .unit)
  | .stat fd => (stat b ans fd t).map (Done.map .stat)
  | .close fd => (close b ans fd t).map (Done.map fun _ => .unit)

end AlloyStack.Fdtab
