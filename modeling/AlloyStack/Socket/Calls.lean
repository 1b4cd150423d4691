import Mathlib.Data.List.Basic

/-! Where a call of the socket service is with its two guards. The functions take `IFACE` before
`SOCKETS`, and those with a loop poll the interface and wait for the network under both. -/
namespace AlloyStack.Socket.Calls

inductive Routine where
  | addrinfo
  | smolConnect
  | smolSend
  | smolRecv
  | smolClose
  | smolBind
  | smolAccept
  deriving DecidableEq, Repr

inductive Guard where
  | iface
  | sockets
  deriving DecidableEq, Repr

/-- At `acquire_iface`; at the `acquire_sockets` of the first block of `addrinfo` and inside it; at
`acquire_sockets`; with both guards before `iface_poll`; after it; and in `phy_wait`. -/
inductive Point where
  | iface
  | query
  | starting
  | sockets
  | locked
  | polled
  | waiting
  deriving DecidableEq, Repr

structure Call where
  routine : Routine
  point : Point
  deriving DecidableEq, Repr

inductive Move where
  | acquire
  | started
  | poll
  | wait
  | wake
  | finish
  deriving DecidableEq, Repr

def Routine.start (routine : Routine) : Call := ⟨routine, .iface⟩

/-- The guard that a call is about to take. -/
def Call.wants (call : Call) : Option Guard :=
  match call.point with
  | .iface => some .iface
  | .query | .sockets => some .sockets
  | _ => none

def Call.holds (call : Call) : Guard → Bool
  | .iface => call.point ≠ .iface
  | .sockets =>
    call.point = .starting ∨ call.point = .locked ∨ call.point = .polled ∨ call.point = .waiting

/-- `smol_connect` and `smol_bind` have no loop. -/
def Routine.loops : Routine → Bool
  | .smolConnect | .smolBind => false
  | _ => true

/-- `addrinfo` and `smol_close` take `SOCKETS` anew in each round. -/
def Routine.rounds : Routine → Bool
  | .addrinfo | .smolClose => true
  | _ => false

/-- The next place of a call that meets no error, if it can make the move; `none` for one that
returns. `smol_accept` gives its guards back and calls `smol_bind`. -/
def Call.next (call : Call) (move : Move) : Option (Option Call) :=
  match call.point, move with
  | .iface, .acquire =>
    some (some ⟨call.routine, if call.routine = .addrinfo then .query else .sockets⟩)
  | .query, .acquire => some (some { call with point := .starting })
  | .starting, .started => some (some { call with point := .sockets })
  | .sockets, .acquire => some (some { call with point := .locked })
  | .locked, .poll =>
    if call.routine = .smolConnect then none else some (some { call with point := .polled })
  | .locked, .finish => if call.routine = .smolConnect then some none else none
  | .polled, .wait =>
    if call.routine.loops then some (some { call with point := .waiting }) else none
  | .waiting, .wake => some (some ⟨call.routine, if call.routine.rounds then .sockets else .locked⟩)
  | .polled, .finish =>
    some (if call.routine = .smolAccept then some Routine.smolBind.start else none)
  | _, _ => none

/-- The guards that a call holds after a move are held before it, or are the one it takes. -/
theorem Call.next_holds {call after : Call} {g : Guard}
    (moved : call.next move = some (some after)) (held : after.holds g = true) :
    call.holds g = true ∨ move = .acquire ∧ call.wants = some g := by
  obtain ⟨routine, point⟩ := call
  unfold Call.next at moved
  dsimp only at moved
  split at moved
  case h_1 =>
    cases moved
    cases g
    · exact .inr ⟨rfl, rfl⟩
    · split at held <;> simp [Call.holds] at held
  case h_9 =>
    split at moved <;> cases moved
    cases g <;> simp [Call.holds, Routine.start] at held
  all_goals try split at moved
  all_goals cases moved
  all_goals cases g <;> simp [Call.holds, Call.wants]

/-- A call comes to `phy_wait` by the move that says so, in the same function. -/
theorem Call.next_waiting {call after : Call} (moved : call.next move = some (some after)) :
    (move = .wait ↔ after.point = .waiting) ∧
      (move = .wait → after = { call with point := .waiting }) := by
  obtain ⟨routine, point⟩ := call
  unfold Call.next at moved
  dsimp only at moved
  split at moved
  case h_1 | h_8 =>
    cases moved
    constructor
    · split <;> simp
    · simp
  case h_9 =>
    split at moved <;> cases moved
    simp [Routine.start]
  all_goals try split at moved
  all_goals cases moved
  all_goals simp

theorem Call.next_returned {call : Call} (moved : call.next move = some none) : move = .finish := by
  obtain ⟨routine, point⟩ := call
  unfold Call.next at moved
  dsimp only at moved
  split at moved
  all_goals try split at moved
  all_goals first | rfl | cases moved

end AlloyStack.Socket.Calls
