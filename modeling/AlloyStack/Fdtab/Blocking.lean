import Mathlib.Data.List.Basic
import Mathlib.Logic.Function.Basic
import AlloyStack.Library.LockPhases
import AlloyStack.Library.Transition
import AlloyStack.Fdtab.Apis
import AlloyStack.Socket.Calls

/-! The threads of an isolation inside fdtab operations, with the three locks that these take:
`FD_TABLE` of fdtab, `IFACE` and `SOCKETS` of the socket service. A step goes from one use of a lock
to the next. The closures of `with_file` and `with_file_mut` run under `FD_TABLE`. -/
namespace AlloyStack.Fdtab.Blocking
open Rust Transition LockPhases
open AlloyStack.Socket.Calls (Guard Move Routine)

inductive Lock where
  | fdTable
  | guard (g : Guard)
  deriving DecidableEq, Repr

/-- Where a thread is: outside, at the lock of `with_file`, `with_file_mut` or `remove_file`, in a
function of fatfs, in one of the socket service, or at the lock of `add_file`. -/
inductive Place where
  | idle
  | table (op : Op)
  | fatfs (op : Op)
  | socket (op : Op) (call : Socket.Calls.Call)
  | adding (op : Op) (file : File)

/-- The descriptor that is passed to an operation. -/
def descriptor : Op → Option Fd
  | .accept fd | .read fd _ | .write fd _ | .lseek fd _ | .stat fd | .close fd => some fd
  | .open .. | .connect _ | .bind _ => none

/-- The operations whose backend is called in a closure on the table. -/
def inTable : Op → Bool
  | .accept _ | .read .. | .write .. | .lseek .. | .stat _ => true
  | .open .. | .connect _ | .bind _ | .close _ => false

/-- The operations that wait for the network, in `smol_recv`, `smol_send` and `smol_accept`. -/
def network : Op → Option Fd
  | .read fd _ | .write fd _ | .accept fd => some fd
  | _ => none

namespace Place

def op : Place → Option Op
  | idle => none
  | table op | fatfs op | socket op _ | adding op _ => some op

def holds : Place → Lock → Bool
  | fatfs op, .fdTable | socket op _, .fdTable => inTable op
  | socket _ call, .guard g => call.holds g
  | _, _ => false

def wants : Place → Option Lock
  | table _ | adding _ _ => some .fdTable
  | socket _ call => call.wants.map .guard
  | _ => none

/-- In the `phy_wait` of `smol_recv`, `smol_send` or `smol_accept`, called for a descriptor. -/
def Awaits : Place → Fd → Prop
  | socket op call, fd => call.point = .waiting ∧ network op = some fd
  | _, _ => False

/-- Outside the operations, or in a function of fatfs. -/
def quiet : Place → Bool
  | idle | fatfs _ => true
  | _ => false

end Place

/-- The first lines of an operation. Descriptors below 3 are refused, or are standard output. -/
def enter (op : Op) : Place :=
  match op with
  | .open .. => .fatfs op
  | .connect _ => .socket op Routine.smolConnect.start
  | .bind _ => .socket op Routine.smolBind.start
  | .accept fd | .read fd _ | .write fd _ | .lseek fd _ | .stat fd | .close fd =>
    if fd.toNat ≤ 2 then .idle else .table op

/-- A backend that is chosen by the source of the file. -/
def backend (op : Op) (routine : Routine) (file : File) : Place :=
  match file.src with
  | .fatFS _ => .fatfs op
  | .net _ => .socket op routine.start

/-- The section of an operation under the first lock of the table, up to the call of a backend. -/
def look (b : Build) (op : Op) (t : FdTable) : Option (Place × FdTable) :=
  let withFile (fd : Fd) (body : File → Place) : Option (Place × FdTable) :=
    t.withFile b fd fun file _ => ((file.map body).getD .idle, t)
  match op with
  | .read fd _ => withFile fd fun file => if file.canRead then backend op .smolRecv file else .idle
  | .write fd _ =>
    withFile fd fun file => if file.canWrite then backend op .smolSend file else .idle
  | .lseek fd _ | .stat fd => withFile fd fun file =>
    match file.src with
    | .fatFS _ => .fatfs op
    | .net _ => .idle
  | .accept fd => withFile fd fun file =>
    match file.src with
    | .fatFS _ => .idle
    | .net _ => .socket op Routine.smolAccept.start
  | .close fd =>
    (t.removeFile b fd).map fun (file, t) => ((file.map (backend op .smolClose)).getD .idle, t)
  | .open .. | .connect _ | .bind _ => none

/-- What follows a function of fatfs that answers without an error. -/
def afterFatfs (op : Op) (rawFd : Fd) : Place :=
  match op with
  | .open _ _ mode => .adding op { mode, src := .fatFS rawFd }
  | _ => .idle

/-- The end of the closure of `accept`: the old handle, and the new one in the entry. -/
def acceptFile (handle : SockFd) : Option File → Option SockFd × Option File
  | some { mode, src := .net old } => (some old, some { mode, src := .net handle })
  | file => (none, file)

/-- What follows a socket function that answers without an error. -/
def afterSocket (b : Build) (op : Op) (handle : SockFd) (t : FdTable) : Place × FdTable :=
  match op with
  | .connect _ => (.adding op { mode := OpenMode.RDWR, src := .net handle }, t)
  | .bind _ => (.adding op { mode := OpenMode.RD, src := .net handle }, t)
  | .accept fd =>
    match t.withFileMut b fd fun file _ => acceptFile handle file with
    | some (some old, t) => (.adding op { mode := OpenMode.RDWR, src := .net old }, t)
    | _ => (.idle, t)
  | _ => (.idle, t)

structure Isolation where
  table : FdTable := []
  places : Nat → Place := fun _ => .idle

def Isolation.place (s : Isolation) (i : Nat) (place : Place) : Isolation :=
  { s with places := Function.update s.places i place }

/-- No thread holds the lock that the place asks for. -/
def Isolation.Ready (s : Isolation) (place : Place) : Prop :=
  ∀ l, place.wants = some l → Unheld Place.holds s.places l

/-- `leave` is an operation that returns with an error or panics, and drops its guards. -/
inductive Event where
  | call (i : Nat) (op : Op)
  | look (i : Nat)
  | fatfs (i : Nat) (rawFd : Fd)
  | move (i : Nat) (move : Move) (handle : SockFd)
  | add (i : Nat)
  | leave (i : Nat)

inductive Step (b : Build) : Isolation → Event → Isolation → Prop where
  | call (s : Isolation) (i : Nat) (op : Op) : s.places i = .idle →
    Step b s (.call i op) (s.place i (enter op))
  | look (s : Isolation) (i : Nat) (op : Op) (place : Place) (table : FdTable) : s.places i =
    .table op →
    s.Ready (.table op) → look b op s.table = some (place, table) →
    Step b s (.look i) ({ s with table }.place i place)
  | fatfs (s : Isolation) (i : Nat) (op : Op) (rawFd : Fd) : s.places i = .fatfs op →
    Step b s (.fatfs i rawFd) (s.place i (afterFatfs op rawFd))
  | move (s : Isolation) (i : Nat) (op : Op) (call after : Socket.Calls.Call) (move : Move)
    (handle : SockFd) :
    s.places i = .socket op call → s.Ready (.socket op call) → call.next move = some (some after) →
    Step b s (.move i move handle) (s.place i (.socket op after))
  | answer (s : Isolation) (i : Nat) (op : Op) (call : Socket.Calls.Call) (move : Move)
    (handle : SockFd) :
    s.places i = .socket op call → call.next move = some none →
    Step b s (.move i move handle)
      ({ s with table := (afterSocket b op handle s.table).2 }.place i
        (afterSocket b op handle s.table).1)
  | add (s : Isolation) (i : Nat) (op : Op) (file : File) : s.places i = .adding op file →
    s.Ready (.adding op file) →
    Step b s (.add i) ({ s with table := (s.table.addFile file).2 }.place i .idle)
  | leave (s : Isolation) (i : Nat) : s.Ready (s.places i) → Step b s (.leave i) (s.place i .idle)

/-- No thread that waits for the network for one descriptor holds a lock that a thread in an
operation on another descriptor waits for. -/
def Isolation.Unblocked (s : Isolation) : Prop :=
  ∀ i j fd l, i ≠ j → (s.places i).Awaits fd → (s.places i).holds l = true →
    (s.places j).wants = some l →
    ∀ op, (s.places j).op = some op → descriptor op = some fd

/-- Outside the operations, in a function of fatfs, or in an operation on the descriptor. -/
def Place.Beside (place : Place) (fd : Fd) : Prop :=
  place.quiet = true ∨ ∀ op, place.op = some op → descriptor op = some fd

/-- Threads wait for the network only apart from operations on other descriptors: those begin while
no other thread waits for the network for another descriptor, an `open` comes back from fatfs while
no other thread does, and a thread begins to wait while the others are outside, in a function of
fatfs or in operations on its descriptor. -/
def Apart (s : Isolation) (e : Event) (_ : Isolation) : Prop :=
  match e with
  | .call i op =>
    ∀ j fd, j ≠ i → (s.places j).Awaits fd → (enter op).quiet = true ∨ descriptor op = some fd
  | .fatfs i rawFd => ∀ op j fd, s.places i = .fatfs op → j ≠ i → (s.places j).Awaits fd →
    (afterFatfs op rawFd).quiet = true
  | .move i .wait _ => ∀ op call fd, s.places i = .socket op call →
    (Place.socket op { call with point := .waiting }).Awaits fd → ∀ j, j ≠ i →
      (s.places j).Beside fd
  | _ => True

namespace Place
variable {place : Place}

/-- The wait for the network is made under all three locks. -/
theorem Awaits.holds (waits : place.Awaits fd) (l : Lock) : place.holds l = true := by
  cases place with
  | socket op call =>
    obtain ⟨point, same⟩ := waits
    cases l with
    | fdTable => cases op <;> first | rfl | cases same
    | guard g => cases g <;> simp [Place.holds, Socket.Calls.Call.holds, point]
  | _ => exact waits.elim

/-- A thread that is neither quiet nor at a lock holds `IFACE`. -/
theorem wants_or_holds (busy : place.quiet = false) :
    (∃ l, place.wants = some l) ∨ place.holds (.guard .iface) = true := by
  cases place with
  | idle => cases busy
  | fatfs op => cases busy
  | table op => exact .inl ⟨_, rfl⟩
  | adding op file => exact .inl ⟨_, rfl⟩
  | socket op call =>
    obtain ⟨routine, point⟩ := call
    cases point <;> simp [wants, holds, Socket.Calls.Call.wants, Socket.Calls.Call.holds]

theorem enter_beside (op : Op) (fd : Fd) :
    (enter op).Beside fd ↔ (enter op).quiet = true ∨ descriptor op = some fd := by
  have entered : (enter op).quiet = true ∨ (enter op).op = some op := by
    unfold enter
    split
    all_goals first | exact .inr rfl | skip
    all_goals split
    all_goals first | exact .inl rfl | exact .inr rfl
  unfold Beside
  rcases entered with quiet | same
  · simp [quiet]
  · simp [same]

end Place

section Operations

theorem enter_holds (op : Op) (l : Lock) : (enter op).holds l = false := by
  unfold enter
  split
  all_goals try split
  all_goals cases l with
    | fdTable => rfl
    | guard g => cases g <;> rfl

theorem enter_awaits (op : Op) (fd : Fd) : ¬ (enter op).Awaits fd := by
  intro waits
  have held := waits.holds .fdTable
  rw [enter_holds] at held
  cases held

/-- An operation that has looked its file up is over, or begins a call of its backend. -/
def Begins (op : Op) (place : Place) : Prop :=
  place = .idle ∨ place = .fatfs op ∨ ∃ routine : Routine, place = .socket op routine.start

theorem backend_begins (op : Op) (routine : Routine) (file : File) :
    Begins op (backend op routine file) := by
  unfold backend
  split
  · exact .inr (.inl rfl)
  · exact .inr (.inr ⟨routine, rfl⟩)

theorem withFile_begins {body : File → Place} (begins : ∀ file, Begins op (body file))
    (looked : FdTable.withFile b t fd (fun file _ => ((file.map body).getD .idle, t)) =
      some (place, table)) :
    Begins op place := by
  obtain ⟨idx, _, same⟩ := Option.map_eq_some_iff.mp looked
  cases same
  cases SlotTable.slot t idx with
  | none => exact .inl rfl
  | some file => exact begins file

theorem look_begins (looked : look b op t = some (place, table)) : Begins op place := by
  cases op with
  | read | write =>
    refine withFile_begins (fun file => ?_) looked
    split
    · exact backend_begins _ _ file
    · exact .inl rfl
  | lseek | stat =>
    refine withFile_begins (fun file => ?_) looked
    split
    · exact .inr (.inl rfl)
    · exact .inl rfl
  | accept fd =>
    refine withFile_begins (fun file => ?_) looked
    split
    · exact .inl rfl
    · exact .inr (.inr ⟨.smolAccept, rfl⟩)
  | close fd =>
    obtain ⟨⟨file, rest⟩, _, same⟩ := Option.map_eq_some_iff.mp looked
    cases same
    cases file with
    | none => exact .inl rfl
    | some file => exact backend_begins _ _ file
  | _ => cases looked

theorem look_holds (looked : look b op t = some (place, table)) (held : place.holds l = true) :
    l = .fdTable := by
  rcases look_begins looked with rfl | rfl | ⟨routine, rfl⟩
  · cases held
  · cases l with
    | fdTable => rfl
    | guard g => cases held
  · cases l with
    | fdTable => rfl
    | guard g => cases g <;> cases held

theorem look_awaits (looked : look b op t = some (place, table)) (fd : Fd) : ¬ place.Awaits fd := by
  intro waits
  cases look_holds looked (waits.holds (.guard .iface))

theorem afterSocket_holds (b : Build) (op : Op) (handle : SockFd) (t : FdTable) (l : Lock) :
    (afterSocket b op handle t).1.holds l = false := by
  unfold afterSocket
  split
  all_goals try split
  all_goals cases l <;> rfl

theorem afterFatfs_awaits (op : Op) (rawFd fd : Fd) : ¬ (afterFatfs op rawFd).Awaits fd := by
  cases op <;> exact id

theorem afterFatfs_beside (op : Op) (rawFd fd : Fd) :
    (afterFatfs op rawFd).Beside fd ↔ (afterFatfs op rawFd).quiet = true := by
  cases op <;> simp [Place.Beside, afterFatfs, Place.quiet, Place.op, descriptor]

theorem afterSocket_op (b : Build) (op : Op) (handle : SockFd) (t : FdTable) :
    (afterSocket b op handle t).1.quiet = true ∨ (afterSocket b op handle t).1.op = some op := by
  unfold afterSocket
  split
  all_goals try split
  all_goals first | exact .inl rfl | exact .inr rfl

theorem afterSocket_beside (b : Build) (handle : SockFd) (t : FdTable)
    (same : descriptor op = some fd) :
    (afterSocket b op handle t).1.Beside fd := by
  rcases afterSocket_op b op handle t with quiet | kept
  · exact .inl quiet
  · right
    intro other known
    rw [kept] at known
    cases known
    exact same

theorem socket_beside (call : Socket.Calls.Call) (same : descriptor op = some fd) :
    (Place.socket op call).Beside fd := by
  right
  intro other known
  cases known
  exact same

theorem afterSocket_awaits (b : Build) (op : Op) (handle : SockFd) (t : FdTable) (fd : Fd) :
    ¬ (afterSocket b op handle t).1.Awaits fd := by
  intro waits
  have held := waits.holds .fdTable
  rw [afterSocket_holds] at held
  cases held

end Operations

namespace Isolation
variable {s t : Isolation} {b : Build}

/-- The same without the locks: the threads beside one that waits for the network. -/
def Undisturbed (s : Isolation) : Prop :=
  ∀ i j fd, j ≠ i → (s.places i).Awaits fd → (s.places j).Beside fd

theorem unblocked_iff (exclusive : Exclusive Place.holds s.places) :
    s.Unblocked ↔ s.Undisturbed := by
  constructor
  · intro unblocked i j fd other waits
    by_cases busy : (s.places j).quiet = true
    · exact .inl busy
    · right
      rcases Place.wants_or_holds (Bool.not_eq_true _ ▸ busy) with ⟨l, wants⟩ | held
      · exact unblocked i j fd l other.symm waits (waits.holds l) wants
      · exact absurd (exclusive j i _ held (waits.holds _)) other
  · intro undisturbed i j fd l other waits _ wants
    rcases undisturbed i j fd other.symm waits with quiet | same
    · exfalso
      cases place : s.places j <;> simp [place, Place.quiet, Place.wants] at quiet wants
    · exact same

theorem undisturbed_place (undisturbed : s.Undisturbed) (i : Nat) (table : FdTable)
    (place : Place) :
    ({ s with table }.place i place).Undisturbed ↔
      (∀ fd, place.Awaits fd → ∀ j, j ≠ i → (s.places j).Beside fd) ∧
      (∀ j fd, j ≠ i → (s.places j).Awaits fd → place.Beside fd) := by
  have mine : ({ s with table }.place i place).places i = place := Function.update_self ..
  have others {j : Nat} (other : j ≠ i) : ({ s with table }.place i place).places j = s.places j :=
    Function.update_of_ne other ..
  constructor
  · intro after
    constructor
    · intro fd waits j other
      have beside := after i j fd other
      rw [mine, others other] at beside
      exact beside waits
    · intro j fd other waits
      have beside := after j i fd other.symm
      rw [mine, others other] at beside
      exact beside waits
  · rintro ⟨waiter, waited⟩ j k fd different waits
    by_cases first : j = i
    · subst first
      rw [mine] at waits
      rw [others different]
      exact waiter fd waits k different
    · rw [others first] at waits
      by_cases second : k = i
      · subst second
        rw [mine]
        exact waited j fd first waits
      · rw [others second]
        exact undisturbed j k fd different waits

theorem undisturbed_place_iff (undisturbed : s.Undisturbed) (i : Nat) (place : Place) :
    (s.place i place).Undisturbed ↔
      (∀ fd, place.Awaits fd → ∀ j, j ≠ i → (s.places j).Beside fd) ∧
      (∀ j fd, j ≠ i → (s.places j).Awaits fd → place.Beside fd) :=
  undisturbed_place undisturbed i s.table place

theorem Ready.no_wait {place : Place} (ready : s.Ready place) (wants : place.wants = some l)
    (j : Nat) (fd : Fd) :
    ¬ (s.places j).Awaits fd := by
  intro waits
  have free := ready l wants j
  rw [waits.holds l] at free
  cases free

/-- A thread in a socket function beside one that waits for the network is on the same
descriptor. -/
theorem Undisturbed.same (undisturbed : s.Undisturbed) (found : s.places i = .socket op call)
    (different : j ≠ i) (waits : (s.places j).Awaits fd) : descriptor op = some fd := by
  rcases undisturbed j i fd different.symm waits with quiet | same
  · rw [found] at quiet
    cases quiet
  · exact same op (by rw [found]; rfl)

theorem exclusive_step (exclusive : Exclusive Place.holds s.places) (step : Step b s e t) :
    Exclusive Place.holds t.places := by
  cases step with
  | call i op idle =>
    refine exclusive.update fun l held => ?_
    rw [enter_holds] at held
    cases held
  | look i op place table found ready looked =>
    refine exclusive.update fun l held => .inr ?_
    cases look_holds looked held
    exact ready _ rfl
  | fatfs i op rawFd found =>
    refine exclusive.update fun l held => ?_
    cases op <;> cases held
  | move i op call after move handle found ready next =>
    refine exclusive.update fun l held => ?_
    rw [found]
    cases l with
    | fdTable => exact .inl held
    | guard g =>
      rcases Socket.Calls.Call.next_holds next held with before | ⟨_, wants⟩
      · exact .inl before
      · exact .inr (ready _ (by simp [Place.wants, wants]))
  | answer i op call move handle found next =>
    refine exclusive.update fun l held => ?_
    rw [afterSocket_holds] at held
    cases held
  | add i op file found ready =>
    refine exclusive.update fun l held => ?_
    cases held
  | leave i ready =>
    refine exclusive.update fun l held => ?_
    cases held

/-- In a socket function, the move that matters is the one that begins a wait. -/
theorem undisturbed_move_iff (undisturbed : s.Undisturbed) (found : s.places i = .socket op call)
    (next : call.next move = some (some after)) :
    (s.place i (.socket op after)).Undisturbed ↔
      Apart s (.move i move handle) (s.place i (.socket op after)) := by
  obtain ⟨arrives, place⟩ := Socket.Calls.Call.next_waiting next
  have beside : ∀ j fd, j ≠ i → (s.places j).Awaits fd → (Place.socket op after).Beside fd :=
    fun j fd different waits => socket_beside after (undisturbed.same found different waits)
  rw [undisturbed_place_iff undisturbed]
  by_cases wait : move = .wait
  · subst wait
    cases place rfl
    constructor
    · rintro ⟨waiter, _⟩ other known fd same waits j different
      rw [found] at same
      cases same
      exact waiter fd waits j different
    · intro apart
      exact ⟨fun fd waits j different => apart op call fd found waits j different, beside⟩
  · constructor
    · intro _
      cases move with
      | wait => exact absurd rfl wait
      | _ => trivial
    · intro _
      exact ⟨fun fd waits => absurd (arrives.mpr waits.1) wait, beside⟩

theorem undisturbed_fatfs_iff (undisturbed : s.Undisturbed) (found : s.places i = .fatfs op) :
    (s.place i (afterFatfs op rawFd)).Undisturbed ↔
      Apart s (.fatfs i rawFd) (s.place i (afterFatfs op rawFd)) := by
  rw [undisturbed_place_iff undisturbed]
  constructor
  · rintro ⟨_, beside⟩ other j fd same different waits
    rw [found] at same
    cases same
    exact (afterFatfs_beside op rawFd fd).mp (beside j fd different waits)
  · intro apart
    constructor
    · exact fun fd waits => absurd waits (afterFatfs_awaits op rawFd fd)
    · exact fun j fd different waits =>
        (afterFatfs_beside op rawFd fd).mpr (apart op j fd found different waits)

/-- What one step does to the threads beside a waiting one, case by case: only the steps that
`Apart` speaks of can bring a thread to a lock beside one that waits, or begin a wait. -/
theorem undisturbed_step_iff (undisturbed : s.Undisturbed) (step : Step b s e t) :
    t.Undisturbed ↔ Apart s e t := by
  cases step with
  | call i op idle =>
    rw [undisturbed_place_iff undisturbed]
    simp only [Place.enter_beside]
    constructor
    · exact And.right
    · exact fun apart => ⟨fun fd waits => absurd waits (enter_awaits op fd), apart⟩
  | look i op place table found ready looked =>
    rw [undisturbed_place undisturbed]
    -- the table is free, so nobody waits for the network
    refine ⟨fun _ => trivial, fun _ => ⟨?_, ?_⟩⟩
    · exact fun fd waits => absurd waits (look_awaits looked fd)
    · exact fun j fd _ waits => absurd waits (ready.no_wait rfl j fd)
  | fatfs i op rawFd found => exact undisturbed_fatfs_iff undisturbed found
  | move i op call after move handle found ready next =>
    exact undisturbed_move_iff undisturbed found next
  | answer i op call move handle found next =>
    cases Socket.Calls.Call.next_returned next
    rw [undisturbed_place undisturbed]
    refine ⟨fun _ => trivial, fun _ => ⟨?_, ?_⟩⟩
    · exact fun fd waits => absurd waits (afterSocket_awaits b op handle s.table fd)
    · exact fun j fd different waits =>
        afterSocket_beside b handle s.table (undisturbed.same found different waits)
  | add i op file found ready =>
    rw [undisturbed_place undisturbed]
    exact ⟨fun _ => trivial, fun _ => ⟨fun fd waits => waits.elim, fun _ _ _ _ => .inl rfl⟩⟩
  | leave i ready =>
    rw [undisturbed_place_iff undisturbed]
    exact ⟨fun _ => trivial, fun _ => ⟨fun fd waits => waits.elim, fun _ _ _ _ => .inl rfl⟩⟩

end Isolation

/-- No thread that waits for the network blocks one on another descriptor, in every state of a run,
exactly when the waits of the run are apart from the operations on other descriptors. -/
theorem unblocked_iff_apart (b : Build) (es : List Event) (t : Isolation) :
    Run (Where (Step b) fun _ _ after => after.Unblocked) {} es t ↔
      Run (Where (Step b) Apart) {} es t := by
  have exact {s : Isolation} {e : Event} {t : Isolation}
      (holds : Exclusive Place.holds s.places ∧ s.Undisturbed)
      (step : Step b s e t) : t.Unblocked ↔ Apart s e t := by
    rw [Isolation.unblocked_iff (Isolation.exclusive_step holds.1 step)]
    exact Isolation.undisturbed_step_iff holds.2 step
  refine Run.where_iff (P := fun s => Exclusive Place.holds s.places ∧ s.Undisturbed) ?_ exact ?_
  · intro s e t holds step apart
    exact ⟨Isolation.exclusive_step holds.1 step,
      (Isolation.undisturbed_step_iff holds.2 step).mpr apart⟩
  · exact ⟨Exclusive.initial fun l i => rfl, fun i j fd _ waits => waits.elim⟩

theorem Place.wants_unheld (wants : Place.wants place = some l) : place.holds l = false := by
  cases place with
  | socket op call =>
    obtain ⟨routine, point⟩ := call
    cases point <;> cases wants <;> rfl
  | _ => cases wants <;> rfl

/-- Where one thread works, the lock that it wants is free. -/
theorem Isolation.ready_alone {s : Isolation} {place : Place} (mine : s.places 0 = place)
    (rest : ∀ j, s.places (j + 1) = .idle) : s.Ready place := by
  intro l wants j
  cases j with
  | zero =>
    rw [mine]
    exact Place.wants_unheld wants
  | succ j =>
    rw [rest j]
    cases l <;> rfl

/-- Thread 0 connects two sockets and reads from the first; thread 1 writes to the second. -/
def request : List Event :=
  [.call 0 (.connect ⟨1, 80⟩), .move 0 .acquire 0, .move 0 .acquire 0, .move 0 .finish 0, .add 0,
    .call 0 (.connect ⟨1, 81⟩), .move 0 .acquire 0, .move 0 .acquire 0, .move 0 .finish 1, .add 0,
    .call 0 (.read 3 16), .look 0, .move 0 .acquire 0, .move 0 .acquire 0, .move 0 .poll 0,
      .move 0 .wait 0,
    .call 1 (.write 4 [71])]

theorem request_run : ∃ t, Run (Step release) {} request t ∧
    t.places 0 = .socket (.read 3 16) ⟨.smolRecv, .waiting⟩ ∧ t.places 1 = .table (.write 4 [71]) :=
  ⟨_, .cons (.call _ 0 _ rfl) <|
    .cons (.move _ 0 _ ⟨.smolConnect, .iface⟩ _ .acquire 0 rfl
      (Isolation.ready_alone rfl fun _ => rfl) rfl) <|
    .cons (.move _ 0 _ ⟨.smolConnect, .sockets⟩ _ .acquire 0 rfl
      (Isolation.ready_alone rfl fun _ => rfl) rfl) <|
    .cons (.answer _ 0 _ ⟨.smolConnect, .locked⟩ .finish 0 rfl rfl) <|
    .cons (.add _ 0 _ ⟨OpenMode.RDWR, .net 0⟩ rfl (Isolation.ready_alone rfl fun _ => rfl)) <|
    .cons (.call _ 0 _ rfl) <|
    .cons (.move _ 0 _ ⟨.smolConnect, .iface⟩ _ .acquire 0 rfl
      (Isolation.ready_alone rfl fun _ => rfl) rfl) <|
    .cons (.move _ 0 _ ⟨.smolConnect, .sockets⟩ _ .acquire 0 rfl
      (Isolation.ready_alone rfl fun _ => rfl) rfl) <|
    .cons (.answer _ 0 _ ⟨.smolConnect, .locked⟩ .finish 1 rfl rfl) <|
    .cons (.add _ 0 _ ⟨OpenMode.RDWR, .net 1⟩ rfl (Isolation.ready_alone rfl fun _ => rfl)) <|
    .cons (.call _ 0 _ rfl) <|
    .cons (.look _ 0 (.read 3 16) _ _ rfl (Isolation.ready_alone rfl fun _ => rfl) rfl) <|
    .cons (.move _ 0 _ ⟨.smolRecv, .iface⟩ _ .acquire 0 rfl
      (Isolation.ready_alone rfl fun _ => rfl) rfl) <|
    .cons (.move _ 0 _ ⟨.smolRecv, .sockets⟩ _ .acquire 0 rfl
      (Isolation.ready_alone rfl fun _ => rfl) rfl) <|
    .cons (.move _ 0 _ ⟨.smolRecv, .locked⟩ _ .poll 0 rfl
      (Isolation.ready_alone rfl fun _ => rfl) rfl) <|
    .cons (.move _ 0 _ ⟨.smolRecv, .polled⟩ _ .wait 0 rfl
      (Isolation.ready_alone rfl fun _ => rfl) rfl) <|
    .cons (.call _ 1 _ rfl) (.nil _), rfl, rfl⟩

theorem reader_blocks_writer : ¬ ∀ t, Run (Step release) {} request t → t.Unblocked := by
  intro always
  obtain ⟨t, run, reader, writer⟩ := request_run
  have same := always t run 0 1 3 .fdTable (by decide)
  rw [reader, writer] at same
  have other := same ⟨rfl, rfl⟩ rfl rfl _ rfl
  cases other

end AlloyStack.Fdtab.Blocking
