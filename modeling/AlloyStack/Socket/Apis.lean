import AlloyStack.Fdtab.Apis

/-! The connections and listeners of the socket service. smoltcp keeps its sockets in a set that
the service only adds to, and a handle is a position in it. -/
namespace AlloyStack.Socket
open AlloyStack.Fdtab (SockFd SmoltcpError SocketAddr)

/-- A listening socket that takes a connection becomes that connection; `peer` tells the connections
apart that it takes one after the other. -/
inductive Stage where
  | listening
  | connected (peer : Nat)
  | ended (peer : Nat)
  deriving DecidableEq

/-- smoltcp's TCP socket: not opened or closed while it listened, opened by `connect`, or opened by
`listen`. The local port of a connection that a listener takes is the port it listens on. -/
inductive Endpoint where
  | closed
  | client (localPort : UInt16) (alive : Bool)
  | server (port : UInt16) (stage : Stage)
  deriving DecidableEq

namespace Endpoint

/-- The port of `local_endpoint`, which a socket has during a connection. -/
def localPort : Endpoint → Option UInt16
  | .client port true => some port
  | .server port (.connected _) => some port
  | _ => none

def isListen : Endpoint → Bool
  | .server _ .listening => true
  | _ => false

def isOpen : Endpoint → Bool
  | .closed | .client _ false | .server _ (.ended _) => false
  | _ => true

/-- `close`; a connection is over only when the peer has closed it too. -/
def close : Endpoint → Endpoint
  | .server _ .listening => .closed
  | socket => socket

/-- What polls of the interface make of a socket: a listener takes a connection, a handshake is
reset, a connection ends. -/
inductive Polls (socket : Endpoint) : Endpoint → Prop where
  | same : Polls socket socket
  | taken : Polls socket (.server port .listening) → Polls socket (.server port (.connected peer))
  | reset : Polls socket (.server port (.connected peer)) → Polls socket (.server port .listening)
  | overServer : Polls socket (.server port (.connected peer)) →
      Polls socket (.server port (.ended peer))
  | overClient : Polls socket (.client port true) → Polls socket (.client port false)

end Endpoint

abbrev SocketSet := List Endpoint

def toSockfd (handle : Nat) : SockFd := UInt32.ofNat handle

def fromSockfd (fd : SockFd) : Nat := fd.toNat

/-- Polls keep the sockets of the set in their places. -/
structure Polled (sockets after : SocketSet) : Prop where
  length : after.length = sockets.length
  polls : ∀ (handle : Nat) socket, sockets[handle]? = some socket →
    ∃ next, after[handle]? = some next ∧ socket.Polls next

/-- The environment of one call: whether the locks are taken, what the polls of its loops make of
the sockets, the random number and the answer of `connect`, whether all data is sent before a
`close`, and the texts of smoltcp's and the host's errors. -/
structure Network where
  acquired : Except SmoltcpError Unit
  poll : SocketSet → SocketSet
  polled : ∀ sockets, Polled sockets (poll sockets)
  reacquired : Except SmoltcpError Unit
  repoll : SocketSet → SocketSet
  repolled : ∀ sockets, Polled sockets (repoll sockets)
  random : UInt16
  connected : Except String Unit
  flushed : Bool
  message : String

/-- A new socket is not active, so the test of `is_active` does not fail. -/
def smolConnect (net : Network) (_addr : SocketAddr) (sockets : SocketSet) :
    Except SmoltcpError SockFd × SocketSet :=
  match net.acquired with
  | .error e => (.error e, sockets)
  | .ok () =>
    match net.connected with
    | .error message => (.error (.smoltcpErr message), sockets ++ [.closed])
    | .ok () =>
      (.ok (toSockfd sockets.length), sockets ++ [.client (49152 + net.random % 16384) true])

/-- The locks and the poll are parameters, since `smol_accept` calls this function after it has
given its own locks back. `none` is the panic of `get_mut`. -/
def smolBind (acquired : Except SmoltcpError Unit) (poll : SocketSet → SocketSet) (message : String)
    (addr : SocketAddr) (sockets : SocketSet) : Option (Except SmoltcpError SockFd × SocketSet) :=
  match acquired with
  | .error e => some (.error e, sockets)
  | .ok () =>
    let polled := poll (sockets ++ [.closed])
    polled[sockets.length]?.map fun socket =>
      if socket.isOpen then (.error (.badTCPState "is_open" message), polled)
      else if addr.port = 0 then (.error (.smoltcpErr message), polled)
      else (.ok (toSockfd sockets.length), polled.set sockets.length (.server addr.port .listening))

/-- The loop ends with a socket that does not listen, or with an error of `try_phy_wait`. -/
def smolAccept (net : Network) (handle : SockFd) (sockets : SocketSet) :
    Option (Except SmoltcpError SockFd × SocketSet) :=
  match net.acquired with
  | .error e => some (.error e, sockets)
  | .ok () =>
    let polled := net.poll sockets
    polled[fromSockfd handle]?.bind fun socket =>
      if socket.isListen then some (.error (.hostIOErr net.message), polled)
      else match socket.localPort with
        | none => some (.error .noLocalEndpoint, polled)
        | some port => smolBind net.reacquired net.repoll net.message ⟨0, port⟩ polled

/-- The sockets after the first poll of `smol_close`; a socket with unsent data is not closed
yet. -/
def Network.closing (net : Network) (handle : SockFd) (sockets : SocketSet) : SocketSet :=
  if net.flushed then (net.poll sockets).modify (fromSockfd handle) Endpoint.close
  else net.poll sockets

def smolClose (net : Network) (handle : SockFd) (sockets : SocketSet) :
    Option (Except SmoltcpError Unit × SocketSet) :=
  match net.acquired with
  | .error e => some (.error e, sockets)
  | .ok () =>
    let polled := net.repoll (net.closing handle sockets)
    polled[fromSockfd handle]?.map fun socket =>
      if socket.isOpen then (.error (.hostIOErr net.message), polled) else (.ok (), polled)

/-- The socket listens on the port, or has taken a connection for it. -/
def Listens (sockets : SocketSet) (handle : Nat) (port : UInt16) : Prop :=
  sockets[handle]? = some (.server port .listening) ∨
    ∃ peer, sockets[handle]? = some (.server port (.connected peer))

/-- A TCP connection: one that was dialled from a local port, or one that was taken on a port. -/
inductive Connection where
  | dialled (localPort : UInt16)
  | taken (port : UInt16) (peer : Nat)
  deriving DecidableEq

/-- The connection that a socket has or had. -/
def Endpoint.connection : Endpoint → Option Connection
  | .client localPort _ => some (.dialled localPort)
  | .server port (.connected peer) | .server port (.ended peer) => some (.taken port peer)
  | _ => none

def carried (sockets : SocketSet) (handle : Nat) : Option Connection :=
  sockets[handle]?.bind Endpoint.connection

/-- The sockets that are watched: those that listen for a descriptor, and those of connections with
a descriptor. -/
structure Watch where
  listener : Nat → Prop
  connection : Nat → Prop

/-- The socket is not watched. -/
def Watch.without (watch : Watch) (handle : Nat) : Watch :=
  ⟨fun other => watch.listener other ∧ other ≠ handle,
    fun other => watch.connection other ∧ other ≠ handle⟩

/-- The socket of a listener becomes that of a connection. -/
def Watch.accepting (watch : Watch) (handle : Nat) : Watch :=
  ⟨fun other => watch.listener other ∧ other ≠ handle,
    fun other => watch.connection other ∨ other = handle⟩

/-- What the network does not do in a poll: end a connection that a listener has taken before it is
accepted, and reset the handshake of an accepted connection. -/
structure Steady (watch : Watch) (sockets after : SocketSet) : Prop where
  lasting : ∀ handle port peer, watch.listener handle →
    after[handle]? ≠ some (.server port (.ended peer))
  kept : ∀ handle port peer, watch.connection handle →
    sockets[handle]? = some (.server port (.connected peer)) →
    carried after handle = some (.taken port peer)

/-- The watched sockets of a set still listen, and have the same connections, in another one. -/
structure Grows (watch : Watch) (sockets after : SocketSet) : Prop where
  length : sockets.length ≤ after.length
  listens : ∀ handle port, watch.listener handle → Listens sockets handle port →
    Listens after handle port
  carries : ∀ handle connection, watch.connection handle →
    carried sockets handle = some connection → carried after handle = some connection

section Growing
variable {watch : Watch} {sockets after : SocketSet}

theorem Grows.refl (sockets : SocketSet) : Grows watch sockets sockets :=
  ⟨Nat.le_refl _, fun _ _ _ => id, fun _ _ _ => id⟩

theorem Grows.trans (first : Grows watch a b) (second : Grows watch b c) : Grows watch a c :=
  ⟨Nat.le_trans first.length second.length,
    fun h p watched listens => second.listens h p watched (first.listens h p watched listens),
    fun h p watched carries => second.carries h p watched (first.carries h p watched carries)⟩

theorem Grows.mono {watch' : Watch} (grows : Grows watch sockets after)
    (listener : ∀ handle, watch'.listener handle → watch.listener handle)
    (connection : ∀ handle, watch'.connection handle → watch.connection handle) :
    Grows watch' sockets after :=
  ⟨grows.length, fun h p watched => grows.listens h p (listener h watched),
    fun h c watched => grows.carries h c (connection h watched)⟩

/-- The sockets keep their places when the set gets longer or another socket changes. -/
theorem Grows.of_same (length : sockets.length ≤ after.length)
    (same : ∀ handle : Nat, watch.listener handle ∨ watch.connection handle →
      handle < sockets.length → after[handle]? = sockets[handle]?) : Grows watch sockets after where
  length := length
  listens handle port watched listens := by
    have inside : handle < sockets.length := by
      rcases listens with found | ⟨peer, found⟩
      · exact (List.getElem?_eq_some_iff.mp found).1
      · exact (List.getElem?_eq_some_iff.mp found).1
    rw [Listens, same handle (.inl watched) inside]
    exact listens
  carries handle connection watched carries := by
    obtain ⟨socket, found, _⟩ := Option.bind_eq_some_iff.mp carries
    rw [carried, same handle (.inr watched) (List.getElem?_eq_some_iff.mp found).1]
    exact carries

theorem Grows.snoc (sockets : SocketSet) (socket : Endpoint) :
    Grows watch sockets (sockets ++ [socket]) :=
  .of_same (by simp) fun _ _ inside => List.getElem?_append_left inside

theorem Endpoint.Polls.server (polls : Endpoint.Polls (.server port stage) next) :
    ∃ stage, next = .server port stage := by
  induction polls with
  | same => exact ⟨_, rfl⟩
  | taken _ ih | reset _ ih | overServer _ ih =>
    obtain ⟨_, same⟩ := ih
    cases same
    exact ⟨_, rfl⟩
  | overClient _ ih =>
    obtain ⟨_, same⟩ := ih
    nomatch same

/-- What polls make of a client is the same client. -/
theorem Endpoint.Polls.client (polls : Endpoint.Polls (.client port alive) next) :
    ∃ alive, next = .client port alive := by
  induction polls with
  | same => exact ⟨_, rfl⟩
  | taken _ ih | reset _ ih | overServer _ ih =>
    obtain ⟨_, same⟩ := ih
    nomatch same
  | overClient _ ih =>
    obtain ⟨_, same⟩ := ih
    cases same
    exact ⟨_, rfl⟩

/-- A connection that is over stays so. -/
theorem Endpoint.Polls.ended (polls : Endpoint.Polls (.server port (.ended peer)) next) :
    next = .server port (.ended peer) := by
  induction polls with
  | same => rfl
  | taken _ ih | reset _ ih | overServer _ ih | overClient _ ih => nomatch ih

theorem Polled.grows (polled : Polled sockets after) (steady : Steady watch sockets after) :
    Grows watch sockets after where
  length := Nat.le_of_eq polled.length.symm
  listens handle port watched listens := by
    obtain ⟨stage, found⟩ : ∃ stage, sockets[handle]? = some (.server port stage) := by
      rcases listens with found | ⟨peer, found⟩
      · exact ⟨_, found⟩
      · exact ⟨_, found⟩
    obtain ⟨next, there, polls⟩ := polled.polls handle _ found
    obtain ⟨stage, rfl⟩ := polls.server
    cases stage with
    | listening => exact .inl there
    | connected peer => exact .inr ⟨peer, there⟩
    | ended peer => exact absurd there (steady.lasting handle port peer watched)
  carries handle connection watched carries := by
    obtain ⟨socket, found, same⟩ := Option.bind_eq_some_iff.mp carries
    obtain ⟨next, there, polls⟩ := polled.polls handle _ found
    cases socket with
    | closed => cases same
    | client localPort alive =>
      obtain ⟨_, rfl⟩ := polls.client
      rw [carried, there]
      exact same
    | server port stage =>
      cases stage with
      | listening => cases same
      | connected peer =>
        cases same
        exact steady.kept handle port peer watched found
      | ended peer =>
        obtain rfl := polls.ended
        rw [carried, there]
        exact same

/-- Polls leave a socket closed that is not open yet. -/
theorem polls_closed (polls : Endpoint.Polls .closed next) : next = .closed := by
  induction polls with
  | same => rfl
  | taken _ ih | reset _ ih | overServer _ ih | overClient _ ih => nomatch ih

end Growing

/-- A call that answers with a handle has put a new socket at the end of the set. -/
structure Opens (watch : Watch) (sockets : SocketSet) (answer : Except SmoltcpError SockFd)
    (after : SocketSet) : Prop where
  grows : Grows watch sockets after
  handle : ∀ fd, answer = .ok fd → fd = toSockfd sockets.length ∧ sockets.length < after.length

section Calls
variable {watch : Watch} {sockets after : SocketSet} {net : Network} {handle : SockFd}

theorem smolConnect_opens (watch : Watch) (net : Network) (addr : SocketAddr)
    (sockets : SocketSet) :
    Opens watch sockets (smolConnect net addr sockets).1 (smolConnect net addr sockets).2 ∧
      ∀ fd, (smolConnect net addr sockets).1 = .ok fd →
        ∃ connection, carried (smolConnect net addr sockets).2 sockets.length =
          some connection := by
  unfold smolConnect
  cases net.acquired with
  | error e => exact ⟨⟨.refl _, nofun⟩, nofun⟩
  | ok =>
    cases net.connected with
    | error message => exact ⟨⟨.snoc .., nofun⟩, nofun⟩
    | ok =>
      refine ⟨⟨.snoc .., ?_⟩, ?_⟩
      · rintro fd ⟨⟩
        exact ⟨rfl, by simp⟩
      · rintro fd ⟨⟩
        exact ⟨.dialled (49152 + net.random % 16384), by simp [carried, Endpoint.connection]⟩

/-- A listener answered by `smol_bind` is a new socket, on the port asked for; the port is not 0. -/
theorem smolBind_opens (polls : ∀ sockets, Polled sockets (poll sockets))
    (steady : Steady watch (sockets ++ [.closed]) (poll (sockets ++ [.closed])))
    (fresh : ∀ handle, watch.listener handle ∨ watch.connection handle → handle < sockets.length)
    (bound : smolBind acquired poll message addr sockets = some (answer, after)) :
    Opens watch sockets answer after ∧ ∀ fd, answer = .ok fd →
      Listens after sockets.length addr.port ∧ addr.port ≠ 0 := by
  unfold smolBind at bound
  cases acquired with
  | error e =>
    cases bound
    exact ⟨⟨.refl _, nofun⟩, nofun⟩
  | ok =>
    have polled := polls (sockets ++ [.closed])
    have grows := (Grows.snoc sockets .closed).trans (polled.grows steady)
    have length : (poll (sockets ++ [.closed])).length = sockets.length + 1 := by
      simp [polled.length]
    obtain ⟨socket, found, result⟩ := Option.map_eq_some_iff.mp bound
    split at result
    · cases result
      exact ⟨⟨grows, nofun⟩, nofun⟩
    · split at result
      · cases result
        exact ⟨⟨grows, nofun⟩, nofun⟩
      · rename_i valid
        cases result
        refine ⟨⟨grows.trans (.of_same (by simp) fun handle watched _ => ?_), ?_⟩, ?_⟩
        · have inside := fresh handle watched
          exact List.getElem?_set_ne (by omega)
        · rintro fd ⟨⟩
          exact ⟨rfl, by rw [List.length_set, length]; omega⟩
        · rintro fd ⟨⟩
          exact ⟨.inl (List.getElem?_set_self (by omega)), valid⟩

/-- The socket that `smol_accept` leaves its loop with. -/
theorem smolAccept_ends (accepted : smolAccept net handle sockets = some (answer, after)) :
    (∃ e, answer = .error e ∧ (after = sockets ∨ after = net.poll sockets)) ∨
    ∃ socket port, (net.poll sockets)[fromSockfd handle]? = some socket ∧
      socket.localPort = some port ∧
      smolBind net.reacquired net.repoll net.message ⟨0, port⟩ (net.poll sockets) =
        some (answer, after) := by
  unfold smolAccept at accepted
  cases acquired : net.acquired with
  | error e =>
    rw [acquired] at accepted
    cases accepted
    exact .inl ⟨e, rfl, .inl rfl⟩
  | ok =>
    simp only [acquired] at accepted
    obtain ⟨socket, found, result⟩ := Option.bind_eq_some_iff.mp accepted
    split at result
    · cases result
      exact .inl ⟨_, rfl, .inr rfl⟩
    · split at result
      · cases result
        exact .inl ⟨_, rfl, .inr rfl⟩
      · rename_i port localPort
        exact .inr ⟨socket, port, found, localPort, result⟩

/-- A bind that fails after its poll was asked for port 0. -/
theorem smolBind_error (polls : ∀ sockets, Polled sockets (poll sockets))
    (bound : smolBind acquired poll message addr sockets = some (.error e, after)) :
    after = sockets ∨ addr.port = 0 ∧ after = poll (sockets ++ [.closed]) := by
  unfold smolBind at bound
  cases acquired with
  | error e =>
    cases bound
    exact .inl rfl
  | ok =>
    obtain ⟨socket, found, result⟩ := Option.map_eq_some_iff.mp bound
    obtain ⟨next, there, polled⟩ :=
      (polls (sockets ++ [.closed])).polls sockets.length .closed (by simp)
    obtain rfl := Option.some.inj (found.symm.trans there)
    rw [polls_closed polled, if_neg (by simp [Endpoint.isOpen])] at result
    split at result
    · rename_i zero
      cases result
      exact .inr ⟨zero, rfl⟩
    · cases result

variable (steady : Steady watch sockets (net.poll sockets))
  (resteady : Steady (watch.accepting (fromSockfd handle)) (net.poll sockets ++ [.closed])
    (net.repoll (net.poll sockets ++ [.closed])))
include steady resteady

/-- An `accept` that fails leaves the watched sockets as they are. -/
theorem smolAccept_fails
    (listens : watch.listener (fromSockfd handle) →
      ∃ port, port ≠ 0 ∧ Listens sockets (fromSockfd handle) port)
    (accepted : smolAccept net handle sockets = some (.error e, after)) :
    Grows watch sockets after := by
  have grows := (net.polled sockets).grows steady
  rcases smolAccept_ends accepted with ⟨_, _, rfl | rfl⟩ | ⟨socket, port, found, local_, bound⟩
  · exact .refl _
  · exact grows
  · rcases smolBind_error net.repolled bound with rfl | ⟨zero, rfl⟩
    · exact grows
    · have other : ¬ watch.listener (fromSockfd handle) := by
        intro watched
        obtain ⟨own, valid, listening⟩ := listens watched
        rcases grows.listens _ own watched listening with there | ⟨peer, there⟩
        · cases found.symm.trans there
          cases local_
        · cases found.symm.trans there
          exact valid ((Option.some.inj local_).trans zero)
      refine grows.trans ((Grows.snoc _ .closed).trans ?_)
      refine ((net.repolled _).grows resteady).mono (fun h watched => ⟨watched, ?_⟩) fun _ => .inl
      rintro rfl
      exact other watched

/-- An `accept` that goes through hands over the connection of the socket, and the new listener has
the port of the old one. -/
theorem smolAccept_opens
    (fresh : ∀ handle, watch.listener handle ∨ watch.connection handle → handle < sockets.length)
    (accepted : smolAccept net handle sockets = some (.ok fd, after)) :
    (fd = toSockfd sockets.length ∧ sockets.length < after.length) ∧
      (∃ connection, carried (net.poll sockets) (fromSockfd handle) = some connection ∧
        carried after (fromSockfd handle) = some connection) ∧
      (∀ port, watch.listener (fromSockfd handle) → Listens sockets (fromSockfd handle) port →
        Listens after sockets.length port) ∧
      Grows ⟨(watch.without (fromSockfd handle)).listener, watch.connection⟩ sockets after := by
  have polled := net.polled sockets
  have grows := polled.grows steady
  rcases smolAccept_ends accepted with ⟨_, failed, _⟩ | ⟨socket, port, found, local_, bound⟩
  · cases failed
  have inside : fromSockfd handle < sockets.length :=
    polled.length ▸ (List.getElem?_eq_some_iff.mp found).1
  obtain ⟨opens, listens⟩ := smolBind_opens net.repolled resteady (fun other watched => by
    rw [polled.length]
    rcases watched with ⟨watched, _⟩ | watched | rfl
    · exact fresh other (.inl watched)
    · exact fresh other (.inr watched)
    · exact inside) bound
  have own : ∃ connection, carried (net.poll sockets) (fromSockfd handle) = some connection := by
    rw [carried, found, Option.bind_some]
    match socket, local_ with
    | .client port true, _ => exact ⟨_, rfl⟩
    | .server port (.connected peer), _ => exact ⟨_, rfl⟩
  obtain ⟨connection, carries⟩ := own
  refine ⟨?_, ⟨connection, carries, opens.grows.carries _ _ (.inr rfl) carries⟩, ?_, ?_⟩
  · simpa only [polled.length] using opens.handle fd rfl
  · intro own watched listening
    have same : port = own := by
      rcases grows.listens _ own watched listening with there | ⟨peer, there⟩
      · cases found.symm.trans there
        cases local_
      · cases found.symm.trans there
        exact (Option.some.inj local_).symm
    rw [← same, ← polled.length]
    exact (listens fd rfl).1
  · have early : Grows ⟨(watch.without (fromSockfd handle)).listener, watch.connection⟩ sockets
        (net.poll sockets) :=
      grows.mono (fun _ watched => watched.1) fun _ => id
    exact early.trans (opens.grows.mono (fun _ => id) fun _ => .inl)

omit steady resteady

/-- Only the socket that is closed changes. -/
theorem smolClose_keeps
    (steady : Steady (watch.without (fromSockfd handle)) sockets (net.poll sockets))
    (resteady : Steady (watch.without (fromSockfd handle)) (net.closing handle sockets)
      (net.repoll (net.closing handle sockets)))
    (closed : smolClose net handle sockets = some (answer, after)) :
    Grows (watch.without (fromSockfd handle)) sockets after := by
  unfold smolClose at closed
  cases acquired : net.acquired with
  | error e =>
    rw [acquired] at closed
    cases closed
    exact .refl _
  | ok =>
    simp only [acquired] at closed
    obtain ⟨socket, found, result⟩ := Option.map_eq_some_iff.mp closed
    have same : after = net.repoll (net.closing handle sockets) := by
      split at result <;> cases result <;> rfl
    rw [same]
    have middle : Grows (watch.without (fromSockfd handle)) (net.poll sockets)
        (net.closing handle sockets) := by
      unfold Network.closing
      split
      · refine .of_same (by simp) fun other watched _ => ?_
        have apart : other ≠ fromSockfd handle := watched.elim And.right And.right
        rw [List.getElem?_modify_ne _ _ apart.symm]
      · exact .refl _
    exact ((net.polled sockets).grows steady).trans
      (middle.trans ((net.repolled _).grows resteady))

end Calls

end AlloyStack.Socket
