import AlloyStack.Library.SlotTable
import AlloyStack.Library.Transition
import AlloyStack.Socket.Apis

/-! The sockets that calls leave in the set. A call adds its socket first, and most of its failures
return without removing it again. -/
namespace AlloyStack.Socket.Leftovers
open SlotTable Transition
open AlloyStack.Fdtab (SockFd SmoltcpError SocketAddr)

inductive Item where
  | dns
  | tcp (socket : Endpoint)

inductive Kind where
  | dns
  | tcp
  deriving DecidableEq

def Item.kind : Item → Kind
  | .dns => .dns
  | .tcp _ => .tcp

/-- smoltcp's `SocketSet`: `add` takes the first free slot, and `remove` frees one. -/
abbrev Sockets := List (Option Item)

/-- The sockets of the set, by their handles. -/
def members (sockets : Sockets) (handle : Nat) : Option Kind := (slot sockets handle).map Item.kind

/-- `get_mut::<tcp::Socket>`, where `none` is its panic. -/
def getTcp (sockets : Sockets) (handle : Nat) : Option Endpoint :=
  match slot sockets handle with
  | some (.tcp socket) => some socket
  | _ => none

/-- `Socket::is_active`. -/
def isActive : Endpoint → Bool
  | .client _ true | .server _ (.connected _) => true
  | _ => false

/-- A poll of the interface, which neither adds nor removes sockets. -/
structure Poll where
  poll : Sockets → Sockets
  dns : ∀ sockets handle, slot sockets handle = some .dns → slot (poll sockets) handle = some .dns
  tcp : ∀ sockets handle socket, slot sockets handle = some (.tcp socket) →
    ∃ next, slot (poll sockets) handle = some (.tcp next) ∧ socket.Polls next
  free : ∀ sockets handle, slot sockets handle = none → slot (poll sockets) handle = none

/-- The answer of `get_query_result`. -/
inductive QueryResult where
  | pending
  | failed (message : String)
  | found (addrs : List UInt32)

/-- The environment of one iteration of the loop of `addrinfo`. -/
structure Lookup where
  acquired : Except SmoltcpError Unit
  poll : Poll
  answer : QueryResult
  waited : Except String Unit

/-- The environment of one iteration of the loop of `smol_accept`. -/
structure Wait where
  poll : Poll
  waited : Except String Unit

/-- A call is still in its loop, has panicked or has returned. -/
inductive Outcome (α : Type) where
  | running
  | panics
  | returns (result : Except SmoltcpError α)

/-- The environment of one call: the answers of the locks, of smoltcp and of the host, and the texts
of errors. -/
structure Environment where
  acquired : Except SmoltcpError Unit
  started : Except String Unit
  lookups : List Lookup
  random : UInt16
  connected : Except String Unit
  waits : List Wait
  reacquired : Except SmoltcpError Unit
  poll : Poll
  message : String

def addrinfoLoop (handle : Nat) : List Lookup → Sockets → Outcome UInt32 × Sockets
  | [], sockets => (.running, sockets)
  | l :: lookups, sockets =>
    match l.acquired with
    | .error e => (.returns (.error e), sockets)
    | .ok () =>
      let sockets := l.poll.poll sockets
      match slot sockets handle with
      | some .dns =>
        match l.answer with
        | .found [] => (.returns (.error .dnsQueryFailed), sockets)
        | .found (addr :: _) => (.returns (.ok addr), sockets.set handle none)
        | .failed message => (.returns (.error (.smoltcpErr message)), sockets)
        | .pending =>
          match l.waited with
          | .error e => (.returns (.error (.hostIOErr e)), sockets)
          | .ok () => addrinfoLoop handle lookups sockets
      | _ => (.panics, sockets)

/-- The name is read by `start_query` only, whose answer is part of the environment. -/
def addrinfo (env : Environment) (_name : String) (sockets : Sockets) : Outcome UInt32 × Sockets :=
  match env.acquired with
  | .error e => (.returns (.error e), sockets)
  | .ok () =>
    let added := insert .dns sockets
    match env.started with
    | .error _ => (.returns (.error .dnsQueryFailed), added.2)
    | .ok () => addrinfoLoop added.1 env.lookups added.2

def smolConnect (env : Environment) (_addr : SocketAddr) (sockets : Sockets) :
    Outcome SockFd × Sockets :=
  match env.acquired with
  | .error e => (.returns (.error e), sockets)
  | .ok () =>
    let added := insert (.tcp .closed) sockets
    match getTcp added.2 added.1 with
    | none => (.panics, added.2)
    | some socket =>
      if isActive socket then (.returns (.error (.badTCPState "is_active" env.message)), added.2)
      else match env.connected with
        | .error e => (.returns (.error (.smoltcpErr e)), added.2)
        | .ok () => (.returns (.ok (toSockfd added.1)),
            added.2.set added.1 (some (.tcp (.client (49152 + env.random % 16384) true))))

/-- The locks are a parameter, since `smol_accept` calls this function after it has given its own
locks back. `listen` refuses the port 0. -/
def smolBind (env : Environment) (acquired : Except SmoltcpError Unit) (addr : SocketAddr)
    (sockets : Sockets) :
    Outcome SockFd × Sockets :=
  match acquired with
  | .error e => (.returns (.error e), sockets)
  | .ok () =>
    let added := insert (.tcp .closed) sockets
    let polled := env.poll.poll added.2
    match getTcp polled added.1 with
    | none => (.panics, polled)
    | some socket =>
      if socket.isOpen then (.returns (.error (.badTCPState "is_open" env.message)), polled)
      else if addr.port = 0 then (.returns (.error (.smoltcpErr env.message)), polled)
      else
        (.returns (.ok (toSockfd added.1)),
          polled.set added.1 (some (.tcp (.server addr.port .listening))))

def acceptLoop (env : Environment) (handle : SockFd) :
    List Wait → Sockets → Outcome SockFd × Sockets
  | [], sockets => (.running, sockets)
  | w :: waits, sockets =>
    let sockets := w.poll.poll sockets
    match getTcp sockets (fromSockfd handle) with
    | none => (.panics, sockets)
    | some socket =>
      if socket.isListen then
        match w.waited with
        | .error e => (.returns (.error (.hostIOErr e)), sockets)
        | .ok () => acceptLoop env handle waits sockets
      else match socket.localPort with
        | none => (.returns (.error .noLocalEndpoint), sockets)
        | some port => smolBind env env.reacquired ⟨0, port⟩ sockets

def smolAccept (env : Environment) (handle : SockFd) (sockets : Sockets) :
    Outcome SockFd × Sockets :=
  match env.acquired with
  | .error e => (.returns (.error e), sockets)
  | .ok () => acceptLoop env handle env.waits sockets

inductive Call where
  | addrinfo (name : String)
  | smolConnect (addr : SocketAddr)
  | smolBind (addr : SocketAddr)
  | smolAccept (handle : SockFd)

/-- Addresses and handles are both of 32 bits. -/
def exec (env : Environment) : Call → Sockets → Outcome UInt32 × Sockets
  | .addrinfo name, sockets => addrinfo env name sockets
  | .smolConnect addr, sockets => smolConnect env addr sockets
  | .smolBind addr, sockets => smolBind env env.acquired addr sockets
  | .smolAccept handle, sockets => smolAccept env handle sockets

/-- The calls after which the set has to be what it was: those that fail, and `addrinfo`. -/
def Restores (call : Call) (result : Except SmoltcpError UInt32) : Prop :=
  (∃ e, result = .error e) ∨ ∃ name, call = .addrinfo name

/-- An iteration that leads to the next one. -/
def Lookup.waits (l : Lookup) : Bool :=
  match l.acquired, l.answer, l.waited with
  | .ok (), .pending, .ok () => true
  | _, _, _ => false

/-- An iteration that has an address. -/
def Lookup.resolves (l : Lookup) : Bool :=
  match l.acquired, l.answer with
  | .ok (), .found (_ :: _) => true
  | _, _ => false

/-- A failure after the socket was added. For `addrinfo` the query cannot be started, or the first
iteration that does not wait has no address: its lock, its query or its wait fails, or there are no
addresses. -/
def LateFailure (env : Environment) : Call → Prop
  | .addrinfo _ => env.acquired = .ok () ∧ ((∃ e, env.started = .error e) ∨
      ∃ l, env.lookups.find? (!·.waits) = some l ∧ l.resolves = false)
  | .smolConnect _ => env.acquired = .ok () ∧ ∃ e, env.connected = .error e
  | .smolBind addr => env.acquired = .ok () ∧ addr.port = 0
  | .smolAccept _ => False

section Sets
variable {sockets : Sockets}

theorem Poll.members (p : Poll) (sockets : Sockets) :
    members (p.poll sockets) = members sockets := by
  funext handle
  unfold Leftovers.members
  cases found : slot sockets handle with
  | none => rw [p.free sockets handle found]
  | some item =>
    cases item with
    | dns => rw [p.dns sockets handle found]
    | tcp socket =>
      obtain ⟨next, there, _⟩ := p.tcp sockets handle socket found
      rw [there]
      rfl

theorem members_insert (item : Item) (sockets : Sockets) :
    members (insert item sockets).2 =
      Function.update (members sockets) (insert item sockets).1 (some item.kind) := by
  funext handle
  simp only [members, slot_insert, Function.update_apply]
  split <;> rfl

theorem members_free (item : Item) (sockets : Sockets) :
    members sockets (insert item sockets).1 = none := by
  rw [members, insert_free]
  rfl

/-- The set with a new socket is another one. -/
theorem members_insert_ne (item : Item) (sockets : Sockets) :
    members (insert item sockets).2 ≠ members sockets := by
  intro same
  have there := congrFun same (insert item sockets).1
  rw [members_insert, Function.update_self, members_free] at there
  exact Option.some_ne_none _ there

theorem getTcp_insert (socket : Endpoint) (sockets : Sockets) :
    getTcp (insert (.tcp socket) sockets).2 (insert (.tcp socket) sockets).1 = some socket := by
  simp [getTcp, slot_insert]

end Sets

section Ports

/-- The port of a socket that was opened is not 0. -/
def Ported : Endpoint → Prop
  | .closed => True
  | .client port _ | .server port _ => port ≠ 0

def AllPorted (sockets : Sockets) : Prop :=
  ∀ handle socket, slot sockets handle = some (.tcp socket) → Ported socket

theorem Ported.polls (ported : Ported socket) (polls : socket.Polls next) : Ported next := by
  induction polls with
  | same => exact ported
  | taken _ ih | reset _ ih | overServer _ ih | overClient _ ih => exact ih

theorem Ported.localPort (ported : Ported socket) (open_ : socket.localPort = some port) :
    port ≠ 0 := by
  cases socket with
  | closed => simp [Endpoint.localPort] at open_
  | client own alive =>
    cases alive with
    | false => simp [Endpoint.localPort] at open_
    | true => exact Option.some.inj open_ ▸ ported
  | server own stage =>
    cases stage with
    | connected => exact Option.some.inj open_ ▸ ported
    | _ => simp [Endpoint.localPort] at open_

theorem ephemeral_ne_zero (random : UInt16) : 49152 + random % 16384 ≠ 0 := by
  intro zero
  have value := congrArg UInt16.toNat zero
  simp only [UInt16.toNat_add, UInt16.toNat_mod, UInt16.reduceToNat] at value
  omega

variable {sockets : Sockets}

theorem AllPorted.poll (ported : AllPorted sockets) (p : Poll) : AllPorted (p.poll sockets) := by
  intro handle next found
  cases before : slot sockets handle with
  | none => simp [p.free sockets handle before] at found
  | some item =>
    cases item with
    | dns => simp [p.dns sockets handle before] at found
    | tcp socket =>
      obtain ⟨_, there, polls⟩ := p.tcp sockets handle socket before
      cases found.symm.trans there
      exact (ported handle socket before).polls polls

theorem AllPorted.update (ported : AllPorted sockets)
    (changed : slot after = Function.update (slot sockets) handle item)
    (new : ∀ socket, item = some (.tcp socket) → Ported socket) : AllPorted after := by
  intro other socket found
  rw [changed, Function.update_apply] at found
  split at found
  · exact new socket found
  · exact ported other socket found

theorem AllPorted.insert (ported : AllPorted sockets)
    (new : ∀ socket, item = .tcp socket → Ported socket) :
    AllPorted (insert item sockets).2 :=
  ported.update (slot_insert ..) fun socket same => new socket (Option.some.inj same)

theorem AllPorted.added (ported : AllPorted sockets) :
    AllPorted (SlotTable.insert (.tcp .closed) sockets).2 :=
  ported.insert (by simp +contextual [Ported])

theorem AllPorted.set (ported : AllPorted sockets) (handle : Nat)
    (new : ∀ socket, item = some (.tcp socket) → Ported socket) :
    AllPorted (sockets.set handle item) := by
  by_cases bound : handle < sockets.length
  · exact ported.update (slot_set bound item) new
  · rwa [List.set_eq_of_length_le (Nat.le_of_not_lt bound)]

theorem addrinfoLoop_ported (handle : Nat) (lookups : List Lookup) (ported : AllPorted sockets) :
    AllPorted (addrinfoLoop handle lookups sockets).2 := by
  induction lookups generalizing sockets with
  | nil => exact ported
  | cons l lookups ih =>
    unfold addrinfoLoop
    have polled := ported.poll l.poll
    split
    · exact ported
    · dsimp only
      split
      · split
        · exact polled
        · exact polled.set handle (by simp)
        · exact polled
        · split
          · exact polled
          · exact ih polled
      · exact polled

theorem smolBind_ported (env : Environment) (acquired : Except SmoltcpError Unit)
    (addr : SocketAddr) (ported : AllPorted sockets) :
    AllPorted (smolBind env acquired addr sockets).2 := by
  unfold smolBind
  split
  · exact ported
  · have polled := ported.added.poll env.poll
    dsimp only
    split
    · exact polled
    · split
      · exact polled
      · split
        · exact polled
        · next port =>
          refine polled.set _ fun socket same => ?_
          cases same
          exact port

theorem acceptLoop_ported (env : Environment) (handle : SockFd) (waits : List Wait)
    (ported : AllPorted sockets) :
    AllPorted (acceptLoop env handle waits sockets).2 := by
  induction waits generalizing sockets with
  | nil => exact ported
  | cons w waits ih =>
    unfold acceptLoop
    have polled := ported.poll w.poll
    dsimp only
    split
    · exact polled
    · split
      · split
        · exact polled
        · exact ih polled
      · split
        · exact polled
        · exact smolBind_ported env env.reacquired _ polled

theorem addrinfo_ported (env : Environment) (name : String) (ported : AllPorted sockets) :
    AllPorted (addrinfo env name sockets).2 := by
  unfold addrinfo
  have added : AllPorted (insert .dns sockets).2 := ported.insert (by simp)
  split
  · exact ported
  · dsimp only
    split
    · exact added
    · exact addrinfoLoop_ported _ _ added

theorem smolConnect_ported (env : Environment) (addr : SocketAddr) (ported : AllPorted sockets) :
    AllPorted (smolConnect env addr sockets).2 := by
  unfold smolConnect
  have added := ported.added
  split
  · exact ported
  · dsimp only
    split
    · exact added
    · split
      · exact added
      · split
        · exact added
        · refine added.set _ fun socket same => ?_
          cases same
          exact ephemeral_ne_zero env.random

theorem smolAccept_ported (env : Environment) (handle : SockFd) (ported : AllPorted sockets) :
    AllPorted (smolAccept env handle sockets).2 := by
  unfold smolAccept
  split
  · exact ported
  · exact acceptLoop_ported env handle env.waits ported

theorem exec_ported (env : Environment) (call : Call) (ported : AllPorted sockets) :
    AllPorted (exec env call sockets).2 := by
  cases call with
  | addrinfo name => exact addrinfo_ported env name ported
  | smolConnect addr => exact smolConnect_ported env addr ported
  | smolBind addr => exact smolBind_ported env env.acquired addr ported
  | smolAccept handle => exact smolAccept_ported env handle ported

/-- What the service does with its set: one of the four calls, and the polls and `close` of the
others. -/
inductive ServiceStep : Sockets → Option Call → Sockets → Prop where
  | call (env : Environment) (call : Call) (sockets : Sockets) : ServiceStep sockets (some call)
    (exec env call sockets).2
  | poll (p : Poll) (sockets : Sockets) : ServiceStep sockets none (p.poll sockets)
  | close (handle : Nat) (sockets : Sockets) : slot sockets handle = some (.tcp socket) →
      ServiceStep sockets none (sockets.set handle (some (.tcp socket.close)))

/-- A set of sockets that the service can have. -/
def Reached (sockets : Sockets) : Prop := ∃ calls, Run ServiceStep [] calls sockets

theorem step_ported (ported : AllPorted sockets) (stepped : ServiceStep sockets call after) :
    AllPorted after := by
  cases stepped with
  | call env call => exact exec_ported env call ported
  | poll p => exact ported.poll p
  | @close socket handle _ found =>
    refine ported.set handle fun next same => ?_
    cases same
    have before := ported handle socket found
    cases socket with
    | closed => trivial
    | client port alive => exact before
    | server port stage =>
      cases stage with
      | listening => trivial
      | _ => exact before

theorem Reached.ported (reached : Reached sockets) : AllPorted sockets := by
  obtain ⟨calls, run⟩ := reached
  exact run.stable step_ported (fun handle socket found => by simp at found)

end Ports

section Leftovers
variable {sockets : Sockets}

theorem addrinfoLoop_waits (lookups : List Lookup) (there : slot sockets handle = some .dns)
    (waits : l.waits = true) :
    addrinfoLoop handle (l :: lookups) sockets =
      addrinfoLoop handle lookups (l.poll.poll sockets) := by
  have found := l.poll.dns sockets handle there
  unfold Lookup.waits at waits
  split at waits
  · next acquired pending waited => simp [addrinfoLoop, found, acquired, pending, waited]
  · simp at waits

/-- An iteration that does not wait ends the call, and removes the socket only if it has an
address. -/
theorem addrinfoLoop_decides (lookups : List Lookup) (there : slot sockets handle = some .dns)
    (decides : l.waits = false) :
    ∃ result, (addrinfoLoop handle (l :: lookups) sockets).1 = .returns result ∧
      members (addrinfoLoop handle (l :: lookups) sockets).2 =
        if l.resolves then Function.update (members sockets) handle none else members sockets := by
  have found := l.poll.dns sockets handle there
  have polled := l.poll.members sockets
  have bound := lt_length_of_slot (found ▸ Option.some_ne_none Item.dns)
  unfold addrinfoLoop
  cases acquired : l.acquired with
  | error e => exact ⟨_, rfl, by simp [Lookup.resolves, acquired]⟩
  | ok =>
    dsimp only
    rw [found]
    cases answer : l.answer with
    | failed message => exact ⟨_, rfl, by simpa [Lookup.resolves, acquired, answer] using polled⟩
    | found addrs =>
      cases addrs with
      | nil => exact ⟨_, rfl, by simpa [Lookup.resolves, acquired, answer] using polled⟩
      | cons addr rest =>
        refine ⟨_, rfl, ?_⟩
        simp only [Lookup.resolves, acquired, answer, if_true, ← polled]
        funext other
        simp only [members, slot_set bound, Function.update_apply]
        split <;> rfl
    | pending =>
      cases waited : l.waited with
      | error e => exact ⟨_, rfl, by simpa [Lookup.resolves, acquired, answer] using polled⟩
      | ok => simp [Lookup.waits, acquired, answer, waited] at decides

/-- The loop of `addrinfo` goes on, or its first iteration that does not wait ends the call. -/
theorem addrinfoLoop_cases (lookups : List Lookup) (there : slot sockets handle = some .dns) :
    (lookups.find? (!·.waits) = none ∧ (addrinfoLoop handle lookups sockets).1 = .running) ∨
    ∃ l result, lookups.find? (!·.waits) = some l ∧
      (addrinfoLoop handle lookups sockets).1 = .returns result ∧
      members (addrinfoLoop handle lookups sockets).2 =
        if l.resolves then Function.update (members sockets) handle none else members sockets := by
  induction lookups generalizing sockets with
  | nil => exact .inl ⟨rfl, rfl⟩
  | cons l lookups ih =>
    cases waits : l.waits with
    | true =>
      rw [addrinfoLoop_waits lookups there waits, List.find?_cons_of_neg (by simp [waits]),
        ← l.poll.members sockets]
      exact ih (l.poll.dns sockets handle there)
    | false =>
      obtain ⟨result, returns, left⟩ := addrinfoLoop_decides lookups there waits
      exact .inr ⟨l, result, List.find?_cons_of_pos (by simp [waits]), returns, left⟩

/-- `addrinfo` leaves the set as it was unless it fails late. -/
theorem addrinfo_leaves (env : Environment) (name : String)
    (done : addrinfo env name sockets = (.returns result, after)) :
    members after = members sockets ↔ ¬ LateFailure env (.addrinfo name) := by
  unfold addrinfo at done
  unfold LateFailure
  have another := members_insert_ne .dns sockets
  cases acquired : env.acquired with
  | error e =>
    rw [acquired] at done
    cases done
    simp
  | ok =>
    simp only [acquired] at done
    cases started : env.started with
    | error e =>
      simp only [started] at done
      cases done
      simpa using another
    | ok =>
      simp only [started] at done
      have there : slot (insert .dns sockets).2 (insert .dns sockets).1 = some Item.dns := by
        rw [slot_insert, Function.update_self]
      rcases addrinfoLoop_cases env.lookups there with ⟨_, running⟩ | ⟨l, _, found, _, left⟩
      · rw [done] at running
        cases running
      · rw [done] at left
        cases resolves : l.resolves with
        | true =>
          have restored : members after = members sockets := by
            rw [left, resolves, if_pos rfl, members_insert, Function.update_idem,
              ← members_free .dns sockets, Function.update_eq_self]
          simp [restored, found, resolves]
        | false =>
          rw [left, resolves, if_neg (by simp)]
          simpa [found, resolves] using another

/-- A failed `smol_bind` leaves its socket if the locks were there. -/
theorem smolBind_leaves (env : Environment) (acquired : Except SmoltcpError Unit)
    (addr : SocketAddr) (done : smolBind env acquired addr sockets = (.returns result, after)) :
    (∀ e, result = .error e → members after = members sockets) ↔
      ¬ (acquired = .ok () ∧ addr.port = 0) := by
  unfold smolBind at done
  cases acquired with
  | error e =>
    cases done
    simp
  | ok =>
    have closed : getTcp (env.poll.poll (insert (.tcp .closed) sockets).2)
        (insert (.tcp .closed) sockets).1 = some .closed := by
      obtain ⟨next, found, polls⟩ :=
        env.poll.tcp _ (insert (.tcp .closed) sockets).1 .closed
          (by rw [slot_insert, Function.update_self])
      rw [getTcp, found, polls_closed polls]
    simp only [closed, Endpoint.isOpen, Bool.false_eq_true, if_false] at done
    split at done
    · next zero =>
      cases done
      rw [env.poll.members]
      simpa [zero] using members_insert_ne (.tcp .closed) sockets
    · next port =>
      cases done
      simp [port]

theorem smolConnect_leaves (env : Environment) (addr : SocketAddr)
    (done : smolConnect env addr sockets = (.returns result, after)) :
    (∀ e, result = .error e → members after = members sockets) ↔
      ¬ LateFailure env (.smolConnect addr) := by
  unfold smolConnect at done
  unfold LateFailure
  cases acquired : env.acquired with
  | error e =>
    rw [acquired] at done
    cases done
    simp
  | ok =>
    simp only [acquired, getTcp_insert, isActive, Bool.false_eq_true, if_false] at done
    cases connected : env.connected with
    | error e =>
      simp only [connected] at done
      cases done
      simpa using members_insert_ne (.tcp .closed) sockets
    | ok =>
      simp only [connected] at done
      cases done
      simp

theorem acceptLoop_leaves (env : Environment) (handle : SockFd) (waits : List Wait)
    (ported : AllPorted sockets)
    (done : acceptLoop env handle waits sockets = (.returns (.error e), after)) :
    members after = members sockets := by
  induction waits generalizing sockets with
  | nil => simp [acceptLoop] at done
  | cons w waits ih =>
    unfold acceptLoop at done
    have polled := ported.poll w.poll
    dsimp only at done
    split at done
    · cases done
    · next socket found =>
      split at done
      · split at done
        · cases done
          exact w.poll.members sockets
        · rw [ih polled done, w.poll.members]
      · split at done
        · cases done
          exact w.poll.members sockets
        · next port bound =>
          have own : Ported socket := by
            unfold getTcp at found
            split at found
            · next there => exact Option.some.inj found ▸ polled _ _ there
            · cases found
          rw [← w.poll.members sockets]
          exact (smolBind_leaves env env.reacquired ⟨0, port⟩ done).mpr
            (fun late => own.localPort bound late.2) e rfl

/-- A failed `smol_accept` leaves nothing, since its listener has a port. -/
theorem smolAccept_leaves (env : Environment) (handle : SockFd) (ported : AllPorted sockets)
    (done : smolAccept env handle sockets = (.returns (.error e), after)) :
    members after = members sockets := by
  unfold smolAccept at done
  split at done
  · cases done
    rfl
  · exact acceptLoop_leaves env handle env.waits ported done

end Leftovers

/-- A call that fails, and every `addrinfo`, leaves the set of sockets as it was if and only if it
does not fail after it has added its socket. -/
theorem failed_calls_leave_nothing_iff (sockets : Sockets) (reached : Reached sockets)
    (env : Environment) (call : Call) (result : Except SmoltcpError UInt32) (after : Sockets)
    (done : exec env call sockets = (.returns result, after)) :
    (Restores call result → members after = members sockets) ↔ ¬ LateFailure env call := by
  cases call with
  | addrinfo name =>
    rw [← addrinfo_leaves env name done]
    simp [Restores]
  | smolConnect addr =>
    rw [← smolConnect_leaves env addr done]
    simp [Restores]
  | smolBind addr =>
    rw [LateFailure, ← smolBind_leaves env env.acquired addr done]
    simp [Restores]
  | smolAccept handle =>
    simp only [LateFailure, not_false_eq_true, iff_true]
    rintro (⟨e, rfl⟩ | ⟨name, same⟩)
    · exact smolAccept_leaves env handle reached.ported done
    · cases same

/-- A poll without traffic. -/
def Poll.idle : Poll where
  poll sockets := sockets
  dns _ _ there := there
  tcp _ _ socket there := ⟨socket, there, .same⟩
  free _ _ there := there

/-- A lookup with one query, which has an answer in the second iteration. -/
def lookingUp (answer : QueryResult) : Environment where
  acquired := .ok ()
  started := .ok ()
  lookups := [⟨.ok (), .idle, .pending, .ok ()⟩, ⟨.ok (), .idle, answer, .ok ()⟩]
  random := 0
  connected := .ok ()
  waits := []
  reacquired := .ok ()
  poll := .idle
  message := ""

/-- A name that is found leaves no socket behind. -/
theorem found_name_leaves_nothing :
    ∃ after, exec (lookingUp (.found [1])) (.addrinfo "host") [] = (.returns (.ok 1), after) ∧
    members after = members [] := by
  refine ⟨_, rfl, (failed_calls_leave_nothing_iff [] ⟨[], .nil _⟩ (lookingUp (.found [1]))
    (.addrinfo "host") (.ok 1) _ rfl).mpr ?_
    (.inr ⟨"host", rfl⟩)⟩
  rintro ⟨_, ⟨e, failed⟩ | ⟨l, found, unresolved⟩⟩
  · cases failed
  · obtain rfl := Option.some.inj found
    cases unresolved

/-- The query for a name fails: the DNS socket stays. -/
theorem failed_query_leaves_socket :
    ¬ ∀ sockets, Reached sockets → ∀ env call result after,
    exec env call sockets = (.returns result, after) → Restores call result →
      members after = members sockets := by
  intro all
  have same :=
    all [] ⟨[], .nil _⟩ (lookingUp (.failed "Query failed")) (.addrinfo "host") _ _ rfl
      (.inr ⟨"host", rfl⟩)
  cases congrFun same 0

end AlloyStack.Socket.Leftovers
