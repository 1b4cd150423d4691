import Mathlib.Data.List.Nodup
import AlloyStack.Fatfs.FileList
import AlloyStack.Fdtab.FileMap

/-! The values of `File`, `TcpStream` and `TcpListener` in as_std. Each one is made by a call that
returns a descriptor, and its destructor closes the descriptor. Programs that turn descriptors into
files themselves, or forget a value, are left out. -/
namespace AlloyStack.AsStd.Handles
open Rust Transition
open AlloyStack.Fdtab
open AlloyStack.Fatfs (O_CREAT)

/-- How a value was made. -/
inductive Kind where
  | created
  | opened
  | stream
  | listener
  deriving DecidableEq, Repr

def Kind.mode : Kind → UInt32
  | .created | .stream => OpenMode.RDWR
  | .opened | .listener => OpenMode.RD

/-- The backend that a value has. -/
def Kind.Matches : Kind → DataSource → Prop
  | .created, .fatFS _ | .opened, .fatFS _ | .stream, .net _ | .listener, .net _ => True
  | _, _ => False

structure Handle where
  kind : Kind
  rawFd : Fd
  deriving DecidableEq, Repr

/-- The functions of the three types. -/
inductive Use where
  | create (path : String)
  | open (path : String)
  | connect (addr : SocketAddr)
  | bind (addr : SocketAddr)
  | next (h : Handle)
  | read (h : Handle) (len : Size)
  | write (h : Handle) (buf : List UInt8)
  | seek (h : Handle) (pos : UInt32)
  | metadata (h : Handle)
  | drop (h : Handle)
  deriving DecidableEq, Repr

def Use.op : Use → Op
  | .create path => .open path O_CREAT OpenMode.RDWR
  | .open path => .open path 0 OpenMode.RD
  | .connect addr => .connect addr
  | .bind addr => .bind addr
  | .next h => .accept h.rawFd
  | .read h len => .read h.rawFd len
  | .write h buf => .write h.rawFd buf
  | .seek h pos => .lseek h.rawFd pos
  | .metadata h => .stat h.rawFd
  | .drop h => .close h.rawFd

/-- The value that a function is called on. -/
def Use.handle : Use → Option Handle
  | .create _ | .open _ | .connect _ | .bind _ => none
  | .next h | .read h _ | .write h _ | .seek h _ | .metadata h | .drop h => some h

def Use.makes : Use → Option Kind
  | .create _ => some .created
  | .open _ => some .opened
  | .connect _ | .next _ => some .stream
  | .bind _ => some .listener
  | _ => none

/-- A program: the table of its descriptors, and the values that it has not dropped. -/
structure Program where
  table : FdTable
  live : List Handle

def Program.start : Program := ⟨[], []⟩

/-- The values after a call. A destructor that panics has used up its value, too. -/
def Use.after (u : Use) (result : Except FdtabError Reply) (live : List Handle) : List Handle :=
  match u.makes, result with
  | some kind, .ok (.fd fd) => ⟨kind, fd⟩ :: live
  | _, _ =>
    match u with
    | .drop h => live.erase h
    | _ => live

/-- The values have different descriptors, which are open for them, and no other one is open. -/
structure Owned (files : Files) (live : List Handle) : Prop where
  distinct : (live.map Handle.rawFd).Nodup
  holds : ∀ h ∈ live, ∃ src, h.kind.Matches src ∧ files h.rawFd.toNat = some ⟨h.kind.mode, src⟩
  only : ∀ n file, files n = some file → ∃ h ∈ live, h.rawFd.toNat = n

/-- A call on a value reaches the backend of its own file and returns what that answers; only a
write to a file that was opened for reading is refused before. A call that makes a value from
nothing returns what the backend answers, too. -/
def Reaches (u : Use) (o : Observation) : Prop :=
  (∀ h, u.handle = some h → ∃ src, h.kind.Matches src ∧
    ((∃ buf, u = .write h buf ∧ h.kind = .opened ∧ o.calls = [] ∧
        o.result = .error (.noWritePerm h.rawFd)) ∨
      ∃ call, u.op.call src = some call ∧ o.calls = [call] ∧
        ∃ new, u.op.answer o.ans new src = some o.result)) ∧
  ∀ call answer, u.op.creation o.ans = some (call, answer) →
    o.calls = [call] ∧ ∃ new, o.result = answer.map fun _ => .fd new

section Owners
variable {files : Files} {live : List Handle} {h : Handle} {fd : Fd} {kind : Kind}
  {src : DataSource}

/-- A value gets another handle of its backend. -/
theorem Owned.replace (owned : Owned files live) (member : h ∈ live)
    (matched : h.kind.Matches src) :
    Owned (Function.update files h.rawFd.toNat (some ⟨h.kind.mode, src⟩)) live where
  distinct := owned.distinct
  holds other listed := by
    by_cases same : other = h
    · subst same
      exact ⟨src, matched, Function.update_self ..⟩
    · obtain ⟨src', matched', found⟩ := owned.holds other listed
      refine ⟨src', matched', ?_⟩
      rw [Function.update_of_ne, found]
      intro equal
      exact same (List.inj_on_of_nodup_map owned.distinct listed member (UInt32.toNat_inj.mp equal))
  only n file found := by
    by_cases same : n = h.rawFd.toNat
    · exact ⟨h, member, same.symm⟩
    · rw [Function.update_of_ne same] at found
      exact owned.only n file found

theorem Owned.drop (owned : Owned files live) (member : h ∈ live) :
    Owned (Function.update files h.rawFd.toNat none) (live.erase h) where
  distinct := (List.erase_sublist.map _).nodup owned.distinct
  holds other listed := by
    have earlier := List.mem_of_mem_erase listed
    obtain ⟨src, matched, found⟩ := owned.holds other earlier
    refine ⟨src, matched, ?_⟩
    rw [Function.update_of_ne, found]
    intro equal
    have same := List.inj_on_of_nodup_map owned.distinct earlier member (UInt32.toNat_inj.mp equal)
    rw [same] at listed
    exact ((List.Nodup.mem_erase_iff (List.Nodup.of_map _ owned.distinct)).mp listed).1 rfl
  only n file found := by
    by_cases same : n = h.rawFd.toNat
    · rw [same, Function.update_self] at found
      cases found
    · rw [Function.update_of_ne same] at found
      obtain ⟨other, listed, here⟩ := owned.only n file found
      refine ⟨other, (List.mem_erase_of_ne ?_).mpr listed, here⟩
      rintro rfl
      exact same here.symm

end Owners

section Steps
variable {b : Build} {s : Program} {table : FdTable} {o : Observation} {u : Use} {h : Handle}

end Steps

/-- A call with what the backends above answer. -/
def served (u : Use) (result : Except FdtabError Reply) (call : Call) : Use × Observation :=
  (u, ⟨u.op, sevenAnswers, result, [call]⟩)

/-- The program while it listens, and while it has the connection. -/
def listening (handle : SockFd) (rest : FdTable) : Program :=
  ⟨some ⟨OpenMode.RD, .net handle⟩ :: rest, [⟨.listener, 3⟩]⟩

def connected : Program :=
  ⟨[some ⟨OpenMode.RD, .net 8⟩, some ⟨OpenMode.RDWR, .net 7⟩], [⟨.stream, 4⟩, ⟨.listener, 3⟩]⟩

end AlloyStack.AsStd.Handles
