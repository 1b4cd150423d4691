import AlloyStack.Fdtab.FileMap
import AlloyStack.Socket.Apis

/-! Network descriptors: the fdtab service over the socket service. A descriptor stands for the
connection or the listener that it was returned for; the table knows only the handle that a
descriptor has at the moment, and a socket of smoltcp only the connection that it has at the
moment. -/
namespace AlloyStack.Socket
open Rust Transition
open AlloyStack.Fdtab

/-- What a descriptor was returned for: the connection that a socket had then, or listening on a
port. -/
inductive Role where
  | connection (handle : SockFd) (which : Option Connection)
  | listener (port : UInt16)

abbrev Roles := Nat → Option Role

/-- The roles after an operation. The connection that `accept` returns is the one that the socket
had when `smol_accept` left its loop. -/
def assign (net : Network) (sockets after : SocketSet) (o : Observation) (roles : Roles) : Roles :=
  match o.op, o.result with
  | .connect _, .ok (.fd fd) =>
    match o.ans.smolConnect with
    | .ok handle =>
      Function.update roles fd.toNat
        (some (.connection handle (carried after (fromSockfd handle))))
    | .error _ => roles
  | .bind addr, .ok (.fd fd) => Function.update roles fd.toNat (some (.listener addr.port))
  | .accept _, .ok (.fd fd) =>
    match o.calls with
    | [.smolAccept handle] =>
      Function.update roles fd.toNat
        (some (.connection handle (carried (net.poll sockets) (fromSockfd handle))))
    | _ => roles
  | .close fd, _ => Function.update roles fd.toNat none
  | _, _ => roles

/-- The two services, and the roles of the descriptors so far. -/
structure Services where
  table : FdTable
  sockets : SocketSet
  roles : Roles

def Services.start : Services := ⟨[], [], fun _ => none⟩

/-- The calls of an operation are answered by the socket service. -/
def Answered (net : Network) (sockets : SocketSet) (ans : Answers) (after : SocketSet) :
    List Call → Prop
  | [.smolConnect addr] => smolConnect net addr sockets = (ans.smolConnect, after)
  | [.smolBind addr] =>
    smolBind net.acquired net.poll net.message addr sockets = some (ans.smolBind, after)
  | [.smolAccept handle] => smolAccept net handle sockets = some (ans.smolAccept, after)
  | [.smolClose handle] => smolClose net handle sockets = some (ans.smolClose, after)
  | [.recv _ _] | [.send _ _] => after = net.poll sockets
  | _ => after = sockets

inductive ServiceEvent where
  | poll (net : Network)
  | call (o : Observation) (net : Network)

/-- An operation through fdtab, or a poll on behalf of something else. -/
inductive ServiceStep (b : Build) : Services → ServiceEvent → Services → Prop where
  | poll : ServiceStep b s (.poll net) { s with sockets := net.poll s.sockets }
  | call : FdStep b s.table o table → Answered net s.sockets o.ans sockets o.calls →
      ServiceStep b s (.call o net) ⟨table, sockets, assign net s.sockets sockets o s.roles⟩

/-- The descriptor has the handle. -/
def Services.Denotes (s : Services) (n : Nat) (handle : SockFd) : Prop :=
  ∃ file, s.table.files n = some file ∧ file.src = .net handle

/-- The descriptor is what its role says. -/
def Services.Fits (s : Services) (n : Nat) : Option Role → Prop
  | none => ∀ handle, ¬ s.Denotes n handle
  | some (.connection handle which) =>
    s.Denotes n handle ∧ ∃ connection, which = some connection ∧
      carried s.sockets (fromSockfd handle) = some connection
  | some (.listener port) =>
    ∃ handle, s.Denotes n handle ∧ Listens s.sockets (fromSockfd handle) port

/-- The socket that a call is about. -/
def Call.socket : Call → Option SockFd
  | .recv socket _ | .send socket _ | .smolAccept socket | .smolClose socket => some socket
  | _ => none

/-- Every descriptor is what it was returned for, an operation on a connection goes to the socket
of the connection, and `accept` on anything but a listener fails and changes no descriptor. -/
def Identified (s : Services) (e : ServiceEvent) (t : Services) : Prop :=
  (∀ n role, t.roles n = some role → t.Fits n (some role)) ∧
  match e with
  | .poll _ => True
  | .call o _ =>
    (∀ fd handle which, o.op.target = some fd →
      s.roles fd.toNat = some (.connection handle which) →
      ∀ call ∈ o.calls, Call.socket call = some handle) ∧
    ∀ fd, o.op = .accept fd → (∀ port, s.roles fd.toNat ≠ some (.listener port)) →
      (∃ e, o.result = .error e) ∧ t.table.files = s.table.files

/-- `smol_accept` fails on the socket: a lock is poisoned, or the socket has no connection (any
more). -/
def Network.Refuses (net : Network) (sockets : SocketSet) (handle : SockFd) : Prop :=
  net.acquired ≠ .ok () ∨ net.reacquired ≠ .ok () ∨
    ∀ socket port, (net.poll sockets)[fromSockfd handle]? = some socket →
      socket.localPort = some port → port = 0

/-- There are descriptors and handles left. -/
def Services.Room (s : Services) : Prop := s.table.Room ∧ s.sockets.length < 2 ^ 32

/-- `accept` is not called on a descriptor that was returned for a connection which still has its
local endpoint. -/
def OnListeners (s : Services) : ServiceEvent → Prop
  | .poll _ => True
  | .call o net => ∀ fd handle which, o.op = .accept fd →
      s.roles fd.toNat = some (.connection handle which) → net.Refuses s.sockets handle

/-- The sockets of the descriptors. -/
def Services.watch (s : Services) : Watch where
  listener h := ∃ n port handle, s.roles n = some (.listener port) ∧ s.Denotes n handle ∧
    fromSockfd handle = h
  connection h := ∃ n handle which, s.roles n = some (.connection handle which) ∧
    fromSockfd handle = h

/-- In its polls the network ends no connection that a listener has taken before it is accepted, and
resets no connection that has a descriptor back to listening. -/
def Calm (s : Services) : ServiceEvent → Prop
  | .poll net => Steady s.watch s.sockets (net.poll s.sockets)
  | .call o net =>
    match o.calls with
    | [.smolBind _] => Steady s.watch (s.sockets ++ [.closed]) (net.poll (s.sockets ++ [.closed]))
    | [.smolAccept handle] => Steady s.watch s.sockets (net.poll s.sockets) ∧
        Steady (s.watch.accepting (fromSockfd handle)) (net.poll s.sockets ++ [.closed])
          (net.repoll (net.poll s.sockets ++ [.closed]))
    | [.smolClose handle] =>
        Steady (s.watch.without (fromSockfd handle)) s.sockets (net.poll s.sockets) ∧
        Steady (s.watch.without (fromSockfd handle)) (net.closing handle s.sockets)
          (net.repoll (net.closing handle s.sockets))
    | [.recv _ _] | [.send _ _] => Steady s.watch s.sockets (net.poll s.sockets)
    | _ => True

def Orderly (s : Services) (e : ServiceEvent) (_ : Services) : Prop :=
  s.Room ∧ Calm s e ∧ OnListeners s e

/-- Besides the roles, the invariant says that no two descriptors share a socket. -/
structure Consistent (s : Services) : Prop where
  valid : ∀ n handle, s.Denotes n handle → fromSockfd handle < s.sockets.length
  sole : ∀ m n handle, s.Denotes m handle → s.Denotes n handle → m = n
  fits : ∀ n, s.Fits n (s.roles n)
  ports : ∀ n port, s.roles n = some (.listener port) → port ≠ 0

theorem consistent_start : Consistent .start where
  valid n handle denotes := by
    obtain ⟨file, found, _⟩ := denotes
    simp [Services.start, FdTable.files] at found
  sole m n handle denotes _ := by
    obtain ⟨file, found, _⟩ := denotes
    simp [Services.start, FdTable.files] at found
  fits n handle denotes := by
    obtain ⟨file, found, _⟩ := denotes
    simp [Services.start, FdTable.files] at found
  ports n port role := nomatch role

section Updates
variable {s t : Services}

theorem denotes_same (files : t.table.files = Function.update s.table.files k (some file)) :
    t.Denotes k handle ↔ file.src = .net handle := by
  simp [Services.Denotes, files]

theorem denotes_congr (files : t.table.files = s.table.files) (n : Nat) (handle : SockFd) :
    t.Denotes n handle ↔ s.Denotes n handle := by
  simp [Services.Denotes, files]

theorem denotes_other (files : t.table.files = Function.update s.table.files k v) (other : n ≠ k) :
    t.Denotes n handle ↔ s.Denotes n handle := by
  simp [Services.Denotes, files, other]

theorem denotes_eq (first : s.Denotes n handle) (second : s.Denotes n other) : handle = other := by
  obtain ⟨file, found, source⟩ := first
  obtain ⟨file', found', source'⟩ := second
  obtain rfl := Option.some.inj (found.symm.trans found')
  exact DataSource.net.inj (source.symm.trans source')

theorem not_denotes (free : s.table.files n = none) : ¬ s.Denotes n handle := by
  rintro ⟨file, found, _⟩
  nomatch free.symm.trans found

theorem Services.Fits.frame (fits : s.Fits n role)
    (same : ∀ handle, t.Denotes n handle ↔ s.Denotes n handle)
    (listens : ∀ handle port, role = some (.listener port) → s.Denotes n handle →
      Listens s.sockets (fromSockfd handle) port → Listens t.sockets (fromSockfd handle) port)
    (carries : ∀ handle which connection, role = some (.connection handle which) →
      s.Denotes n handle → carried s.sockets (fromSockfd handle) = some connection →
      carried t.sockets (fromSockfd handle) = some connection) :
    t.Fits n role := by
  cases role with
  | none => exact fun handle denotes => fits handle ((same handle).mp denotes)
  | some role =>
    cases role with
    | connection handle which =>
      obtain ⟨denotes, connection, which, carrying⟩ := fits
      exact ⟨(same handle).mpr denotes, connection, which, carries _ _ _ rfl denotes carrying⟩
    | listener port =>
      obtain ⟨handle, denotes, listening⟩ := fits
      exact ⟨handle, (same handle).mpr denotes, listens handle port rfl denotes listening⟩

theorem Consistent.watched (consistent : Consistent s) (h : Nat)
    (watched : s.watch.listener h ∨ s.watch.connection h) : h < s.sockets.length := by
  rcases watched with ⟨n, port, handle, _, denotes, rfl⟩ | ⟨n, handle, which, role, rfl⟩
  · exact consistent.valid n handle denotes
  · have fits := consistent.fits n
    rw [role] at fits
    exact consistent.valid n handle fits.1

/-- A descriptor whose socket is watched keeps its role while the set of sockets grows. -/
theorem Consistent.framed (consistent : Consistent s) (grows : Grows s.watch s.sockets t.sockets)
    (n : Nat) (same : ∀ handle, t.Denotes n handle ↔ s.Denotes n handle) :
    t.Fits n (s.roles n) :=
  (consistent.fits n).frame same
    (fun handle port role denotes => grows.listens _ _ ⟨n, port, handle, role, denotes, rfl⟩)
    fun handle which _ role _ => grows.carries _ _ ⟨n, handle, which, role, rfl⟩

/-- Nothing happens to the network descriptors. -/
theorem Consistent.keep (consistent : Consistent s)
    (same : ∀ n handle, t.Denotes n handle ↔ s.Denotes n handle) (roles : t.roles = s.roles)
    (grows : Grows s.watch s.sockets t.sockets) : Consistent t where
  valid n handle denotes :=
    Nat.lt_of_lt_of_le (consistent.valid n handle ((same n handle).mp denotes)) grows.length
  sole m n handle left right :=
    consistent.sole m n handle ((same m handle).mp left) ((same n handle).mp right)
  fits n := by
    rw [roles]
    exact consistent.framed grows n (same n)
  ports n port role := consistent.ports n port (roles ▸ role)

/-- A descriptor is returned for a new socket. -/
theorem Consistent.extend (consistent : Consistent s) (free : s.table.files k = none)
    (files : t.table.files = Function.update s.table.files k (some file))
    (source : file.src = .net handle) (roles : t.roles = Function.update s.roles k (some role))
    (grows : Grows s.watch s.sockets t.sockets) (new : fromSockfd handle = s.sockets.length)
    (added : s.sockets.length < t.sockets.length) (fits : t.Fits k (some role))
    (ported : ∀ port, role = .listener port → port ≠ 0) : Consistent t := by
  have old {n : Nat} {other : SockFd} (denotes : s.Denotes n other) : other ≠ handle := by
    rintro rfl
    exact absurd (consistent.valid n _ denotes) (by omega)
  have here (other : SockFd) (denotes : t.Denotes k other) : other = handle :=
    DataSource.net.inj (((denotes_same files).mp denotes).symm.trans source)
  refine ⟨fun n other denotes => ?_, fun m n other left right => ?_, fun n => ?_,
    fun n port assigned => ?_⟩
  · by_cases same : n = k
    · subst same
      rw [here other denotes]
      omega
    · exact Nat.lt_of_lt_of_le
        (consistent.valid n other ((denotes_other files same).mp denotes)) grows.length
  · by_cases first : m = k <;> by_cases second : n = k
    · rw [first, second]
    · subst first
      exact absurd (here other left) (old ((denotes_other files second).mp right))
    · subst second
      exact absurd (here other right) (old ((denotes_other files first).mp left))
    · exact consistent.sole m n other ((denotes_other files first).mp left)
        ((denotes_other files second).mp right)
  · by_cases same : n = k
    · subst same
      rw [roles, Function.update_self]
      exact fits
    · rw [roles, Function.update_of_ne same]
      exact consistent.framed grows n fun _ => denotes_other files same
  · by_cases same : n = k
    · subst same
      rw [roles, Function.update_self] at assigned
      exact ported port (Option.some.inj assigned)
    · rw [roles, Function.update_of_ne same] at assigned
      exact consistent.ports n port assigned

/-- A descriptor is closed, and with it its socket. -/
theorem Consistent.remove (consistent : Consistent s)
    (files : t.table.files = Function.update s.table.files k none)
    (roles : t.roles = Function.update s.roles k none)
    (grows : Grows s.watch s.sockets t.sockets ∨ ∃ handle, s.Denotes k handle ∧
      Grows (s.watch.without (fromSockfd handle)) s.sockets t.sockets) :
    Consistent t := by
  have gone (handle : SockFd) : ¬ t.Denotes k handle :=
    not_denotes (by rw [files, Function.update_self])
  have kept {n : Nat} {handle : SockFd} (denotes : t.Denotes n handle) : n ≠ k ∧
      s.Denotes n handle := by
    have apart : n ≠ k := by
      rintro rfl
      exact gone handle denotes
    exact ⟨apart, (denotes_other files apart).mp denotes⟩
  have length : s.sockets.length ≤ t.sockets.length := by
    rcases grows with grows | ⟨_, _, grows⟩ <;> exact grows.length
  refine ⟨fun n handle denotes => ?_, fun m n handle left right => ?_, fun n => ?_,
    fun n port role => ?_⟩
  · exact Nat.lt_of_lt_of_le (consistent.valid n handle (kept denotes).2) length
  · exact consistent.sole m n handle (kept left).2 (kept right).2
  · by_cases same : n = k
    · subst same
      rw [roles, Function.update_self]
      exact gone
    · rw [roles, Function.update_of_ne same]
      rcases grows with grows | ⟨closed, own, grows⟩
      · exact consistent.framed grows n fun _ => denotes_other files same
      · have apart (handle : SockFd) (denotes : s.Denotes n handle) :
            fromSockfd handle ≠ fromSockfd closed := by
          intro equal
          obtain rfl : handle = closed := UInt32.toNat_inj.mp equal
          exact same (consistent.sole n k handle denotes own)
        exact (consistent.fits n).frame (fun _ => denotes_other files same)
          (fun handle port role denotes => grows.listens _ _
            ⟨⟨n, port, handle, role, denotes, rfl⟩, apart handle denotes⟩)
          fun handle which _ role denotes => grows.carries _ _
            ⟨⟨n, handle, which, role, rfl⟩, apart handle denotes⟩
  · by_cases same : n = k
    · subst same
      rw [roles, Function.update_self] at role
      cases role
    · rw [roles, Function.update_of_ne same] at role
      exact consistent.ports n port role

/-- `accept` on a listener: the new descriptor gets its socket, and it gets the new listener. -/
theorem Consistent.swap (consistent : Consistent s)
    (listener : s.roles fd = some (.listener port)) (denotes : s.Denotes fd socket)
    (free : s.table.files new = none)
    (files : t.table.files =
      Function.update (Function.update s.table.files fd (some listening)) new (some connected))
    (source : listening.src = .net handle) (source' : connected.src = .net socket)
    (roles : t.roles = Function.update s.roles new (some (.connection socket (some connection))))
    (grows : Grows ⟨(s.watch.without (fromSockfd socket)).listener, s.watch.connection⟩ s.sockets
      t.sockets)
    (fresh : fromSockfd handle = s.sockets.length) (added : s.sockets.length < t.sockets.length)
    (listens : Listens t.sockets s.sockets.length port)
    (carries : carried t.sockets (fromSockfd socket) = some connection) : Consistent t := by
  have apart : fd ≠ new := by
    rintro rfl
    exact not_denotes free denotes
  have here (n : Nat) (other : SockFd) : t.Denotes n other ↔
      n = fd ∧ other = handle ∨ n = new ∧ other = socket ∨ n ≠ fd ∧ n ≠ new ∧
        s.Denotes n other := by
    by_cases first : n = fd
    · subst first
      simp [Services.Denotes, files, source, apart, eq_comm]
    · by_cases second : n = new
      · subst second
        simp [Services.Denotes, files, source', Ne.symm apart, eq_comm]
      · simp [Services.Denotes, files, first, second]
  have old {n : Nat} {other : SockFd} (denotes : s.Denotes n other) : other ≠ handle := by
    rintro rfl
    exact absurd (consistent.valid n _ denotes) (by omega)
  refine ⟨fun n other there => ?_, fun m n other left right => ?_, fun n => ?_,
    fun n port role => ?_⟩
  · rcases (here n other).mp there with ⟨_, rfl⟩ | ⟨_, rfl⟩ | ⟨_, _, before⟩
    · omega
    · exact Nat.lt_of_lt_of_le (consistent.valid fd other denotes) grows.length
    · exact Nat.lt_of_lt_of_le (consistent.valid n other before) grows.length
  · rcases (here m other).mp left with ⟨rfl, rfl⟩ | ⟨rfl, rfl⟩ | ⟨notFd, _, before⟩ <;>
      rcases (here n _).mp right with ⟨rfl, same⟩ | ⟨rfl, same⟩ | ⟨notFd', _, before'⟩
    · rfl
    · exact absurd same.symm (old denotes)
    · exact absurd rfl (old before')
    · exact absurd same (old denotes)
    · rfl
    · exact absurd (consistent.sole n fd _ before' denotes) notFd'
    · exact absurd same (old before)
    · exact absurd (consistent.sole m fd _ before (same ▸ denotes)) notFd
    · exact consistent.sole m n _ before before'
  · rw [roles]
    by_cases first : n = fd
    · subst first
      rw [Function.update_of_ne apart, listener]
      exact ⟨handle, (here n handle).mpr (.inl ⟨rfl, rfl⟩), fresh ▸ listens⟩
    · by_cases second : n = new
      · subst second
        rw [Function.update_self]
        exact ⟨(here n socket).mpr (.inr (.inl ⟨rfl, rfl⟩)), connection, rfl, carries⟩
      · rw [Function.update_of_ne second]
        refine (consistent.fits n).frame (fun other => ?_) (fun other port role there => ?_)
          fun other which _ role _ => grows.carries _ _ ⟨n, other, which, role, rfl⟩
        · simp [here, first, second]
        · refine grows.listens _ _ ⟨⟨n, port, other, role, there, rfl⟩, fun equal => ?_⟩
          obtain rfl : other = socket := UInt32.toNat_inj.mp equal
          exact first (consistent.sole n fd other there denotes)
  · by_cases same : n = new
    · subst same
      rw [roles, Function.update_self] at role
      cases role
    · rw [roles, Function.update_of_ne same] at role
      exact consistent.ports n port role

end Updates

section Steps
variable {b : Build} {s t : Services} {e : ServiceEvent}

theorem fromSockfd_toSockfd (small : n < 2 ^ 32) : fromSockfd (toSockfd n) = n :=
  UInt32.toNat_ofNat_of_lt' small

theorem Consistent.listening (consistent : Consistent s) (h : Nat) (watched : s.watch.listener h) :
    ∃ port, port ≠ 0 ∧ Listens s.sockets h port := by
  obtain ⟨n, port, handle, role, denotes, rfl⟩ := watched
  have fits := consistent.fits n
  rw [role] at fits
  obtain ⟨socket, denotes', listening⟩ := fits
  obtain rfl := denotes_eq denotes denotes'
  exact ⟨port, consistent.ports n port role, listening⟩

/-- Only `smol_close` and an `accept` that goes through change what the watched sockets are. -/
theorem Answered.grows (answered : Answered net s.sockets o.ans after o.calls)
    (consistent : Consistent s) (calm : Calm s (.call o net))
    (open_ : ∀ handle, o.calls ≠ [.smolClose handle])
    (fails : ∀ handle fd, o.calls = [.smolAccept handle] → o.ans.smolAccept ≠ .ok fd) :
    Grows s.watch s.sockets after := by
  unfold Answered at answered
  dsimp only [Calm] at calm
  split at answered
  · rename_i addr only
    have opens := (smolConnect_opens s.watch net addr s.sockets).1
    rw [answered] at opens
    exact opens.grows
  · rename_i addr only
    rw [only] at calm
    exact (smolBind_opens net.polled calm consistent.watched answered).1.grows
  · rename_i handle only
    rw [only] at calm
    cases answer : o.ans.smolAccept with
    | ok fd => exact absurd answer (fails handle fd only)
    | error e =>
      rw [answer] at answered
      exact smolAccept_fails calm.1 calm.2 (consistent.listening _) answered
  · rename_i handle only
    exact absurd only (open_ handle)
  · rename_i only
    rw [only] at calm
    exact answered ▸ (net.polled s.sockets).grows calm
  · rename_i only
    rw [only] at calm
    exact answered ▸ (net.polled s.sockets).grows calm
  · rw [answered]
    exact .refl s.sockets

/-- `smol_accept` on a connection answers with a handle only if nothing refuses it. -/
theorem smolAccept_refused (refuses : net.Refuses sockets handle)
    (accepted : smolAccept net handle sockets = some (.ok fd, after)) : False := by
  unfold smolAccept at accepted
  cases acquired : net.acquired with
  | error e => simp [acquired] at accepted
  | ok =>
    simp only [acquired] at accepted
    obtain ⟨socket, found, result⟩ := Option.bind_eq_some_iff.mp accepted
    split at result
    · nomatch result
    · split at result
      · nomatch result
      · rename_i port localPort
        unfold smolBind at result
        rcases refuses with locked | locked | none
        · exact locked acquired
        · cases reacquired : net.reacquired with
          | error e => simp [reacquired] at result
          | ok => exact locked reacquired
        · obtain rfl := none socket port found localPort
          cases reacquired : net.reacquired with
          | error e => simp [reacquired] at result
          | ok =>
            simp only [reacquired] at result
            obtain ⟨_, _, ended⟩ := Option.map_eq_some_iff.mp result
            split at ended <;> simp at ended

/-- Only `close` calls `smol_close`. -/
theorem not_smolClose (served : Served m o after) (target : o.op.target = some fd)
    (other : ∀ fd, o.op ≠ .close fd) (handle : SockFd) : o.calls ≠ [.smolClose handle] := by
  intro only
  obtain ⟨_, buf, same⟩ | ⟨file, _, called⟩ :=
    served.calls target _ (only ▸ List.mem_singleton_self _)
  · nomatch same
  · obtain ⟨op, ans, result, calls⟩ := o
    cases op <;> cases source : file.src <;> simp_all [Op.call]

/-- Only `accept` calls `smol_accept`. -/
theorem not_smolAccept (served : Served m o after) (target : o.op.target = some fd)
    (other : ∀ fd, o.op ≠ .accept fd) (handle : SockFd) : o.calls ≠ [.smolAccept handle] := by
  intro only
  obtain ⟨_, buf, same⟩ | ⟨file, _, called⟩ :=
    served.calls target _ (only ▸ List.mem_singleton_self _)
  · nomatch same
  · obtain ⟨op, ans, result, calls⟩ := o
    cases op <;> cases source : file.src <;> simp_all [Op.call]

section Calls
variable {o : Observation} {net : Network} {table : FdTable} {sockets : SocketSet} {fd : Fd}
  (consistent : Consistent s) (room : s.Room) (stepped : FdStep b s.table o table)
  (answered : Answered net s.sockets o.ans sockets o.calls) (calm : Calm s (.call o net))
include consistent room stepped answered calm

theorem connect_consistent (op : o.op = .connect addr) :
    Consistent ⟨table, sockets, assign net s.sockets sockets o s.roles⟩ := by
  obtain ⟨_, ans, result, calls⟩ := o
  dsimp only at op
  subst op
  obtain ⟨rfl, ⟨e, _, rfl, rfl⟩ | ⟨handle, fd, answer, rfl, free, files⟩⟩ :=
    created_step room.1 stepped rfl
  · exact consistent.keep (fun _ _ => .rfl) rfl (answered.grows consistent calm nofun nofun)
  · have connected : ans.smolConnect = .ok handle := mapError_eq_ok.mp answer
    obtain ⟨opens, carries⟩ := smolConnect_opens s.watch net addr s.sockets
    have done : smolConnect net addr s.sockets = (ans.smolConnect, sockets) := answered
    rw [done] at opens carries
    obtain ⟨rfl, added⟩ := opens.handle handle connected
    obtain ⟨connection, carries⟩ := carries _ connected
    have fresh := fromSockfd_toSockfd room.2
    have roles : assign net s.sockets sockets
        ⟨.connect addr, ans, .ok (.fd fd), [.smolConnect addr]⟩ s.roles =
        Function.update s.roles fd.toNat
          (some (.connection (toSockfd s.sockets.length) (some connection))) := by
      simp [assign, connected, fresh, carries]
    refine consistent.extend free files rfl roles opens.grows fresh added ?_ nofun
    exact ⟨(denotes_same files).mpr rfl, connection, rfl, by rw [fresh]; exact carries⟩

theorem bind_consistent (op : o.op = .bind addr) :
    Consistent ⟨table, sockets, assign net s.sockets sockets o s.roles⟩ := by
  obtain ⟨_, ans, result, calls⟩ := o
  dsimp only at op
  subst op
  obtain ⟨rfl, ⟨e, _, rfl, rfl⟩ | ⟨handle, fd, answer, rfl, free, files⟩⟩ :=
    created_step room.1 stepped rfl
  · exact consistent.keep (fun _ _ => .rfl) rfl (answered.grows consistent calm nofun nofun)
  · have bound : ans.smolBind = .ok handle := mapError_eq_ok.mp answer
    have fresh := fromSockfd_toSockfd room.2
    obtain ⟨opens, listens⟩ := smolBind_opens net.polled calm consistent.watched answered
    obtain ⟨rfl, added⟩ := opens.handle handle bound
    obtain ⟨listening, valid⟩ := listens _ bound
    have fits : Services.Fits
        ⟨table, sockets, Function.update s.roles fd.toNat (some (.listener addr.port))⟩ fd.toNat
        (some (.listener addr.port)) :=
      ⟨_, (denotes_same files).mpr rfl, fresh.symm ▸ listening⟩
    refine consistent.extend free files rfl rfl opens.grows fresh added fits ?_
    rintro port ⟨⟩
    exact valid

omit room stepped answered calm in
/-- A descriptor whose `accept` goes through is a listener. -/
theorem accepted_listener (denotes : s.Denotes n socket)
    (accepted : smolAccept net socket s.sockets = some (.ok handle, sockets))
    (listeners : ∀ handle which, s.roles n = some (.connection handle which) →
      net.Refuses s.sockets handle) :
    ∃ port, s.roles n = some (.listener port) ∧ Listens s.sockets (fromSockfd socket) port := by
  have fits := consistent.fits n
  rcases role : s.roles n with _ | ⟨connected, which⟩ | port <;> rw [role] at fits
  · exact absurd denotes (fits socket)
  · obtain rfl := denotes_eq denotes fits.1
    exact (smolAccept_refused (listeners socket which role) accepted).elim
  · obtain ⟨socket', denotes', listening⟩ := fits
    obtain rfl := denotes_eq denotes denotes'
    exact ⟨port, rfl, listening⟩

theorem accept_consistent (op : o.op = .accept fd)
    (listeners : ∀ handle which, s.roles fd.toNat = some (.connection handle which) →
      net.Refuses s.sockets handle) :
    Consistent ⟨table, sockets, assign net s.sockets sockets o s.roles⟩ := by
  have served := step_served room.1 stepped
  obtain ⟨_, ans, result, calls⟩ := o
  dsimp only at op
  subst op
  obtain ⟨⟨e, rfl⟩, files, unanswered⟩ |
      ⟨file, socket, handle, new, found, source, answer, rfl, rfl, free, files⟩ :=
    accept_step room.1 stepped rfl
  · refine consistent.keep (denotes_congr files) rfl
      (answered.grows consistent calm (not_smolClose served rfl nofun) fun handle new only => ?_)
    obtain ⟨_, _, same⟩ | ⟨file, found, called⟩ :=
      served.calls rfl _ (only ▸ List.mem_singleton_self _)
    · nomatch same
    · cases source : file.src with
      | fatFS rawFd => simp [Op.call, source] at called
      | net socket => exact unanswered file socket new found source
  · have denotes : s.Denotes fd.toNat socket := ⟨file, found, source⟩
    have accepted : smolAccept net socket s.sockets = some (.ok handle, sockets) :=
      answer ▸ answered
    obtain ⟨port, role, listening⟩ := accepted_listener consistent denotes accepted listeners
    obtain ⟨⟨rfl, added⟩, ⟨connection, before, after⟩, listens, grows⟩ :=
      smolAccept_opens calm.1 calm.2 consistent.watched accepted
    have roles : assign net s.sockets sockets ⟨.accept fd, ans, .ok (.fd new),
        [.smolAccept socket]⟩ s.roles =
        Function.update s.roles new.toNat (some (.connection socket (some connection))) := by
      simp [assign, before]
    exact consistent.swap role denotes free files rfl rfl roles grows
      (fromSockfd_toSockfd room.2) added
      (listens port ⟨_, port, socket, role, denotes, rfl⟩ listening) after

theorem open_consistent (op : o.op = .open path flags mode) :
    Consistent ⟨table, sockets, assign net s.sockets sockets o s.roles⟩ := by
  obtain ⟨_, ans, result, calls⟩ := o
  dsimp only at op
  subst op
  obtain ⟨rfl, ⟨e, _, rfl, rfl⟩ | ⟨handle, fd, _, rfl, free, files⟩⟩ :=
    created_step room.1 stepped rfl
  · exact consistent.keep (fun _ _ => .rfl) rfl (answered.grows consistent calm nofun nofun)
  · refine consistent.keep (fun n handle => ?_) rfl (answered.grows consistent calm nofun nofun)
    by_cases same : n = fd.toNat
    · subst same
      exact iff_of_false (fun denotes => nomatch (denotes_same files).mp denotes) (not_denotes free)
    · exact denotes_other files same

theorem close_consistent (op : o.op = .close fd) :
    Consistent ⟨table, sockets, assign net s.sockets sockets o s.roles⟩ := by
  have served := step_served room.1 stepped
  obtain ⟨_, ans, result, calls⟩ := o
  dsimp only at op
  subst op
  by_cases closes : ∃ socket, calls = [.smolClose socket]
  · obtain ⟨socket, rfl⟩ := closes
    obtain ⟨_, buf, same⟩ | ⟨file, found, called⟩ := served.calls rfl _ (List.mem_singleton_self _)
    · cases same
    have denotes : s.Denotes fd.toNat socket := by
      refine ⟨file, found, ?_⟩
      cases source : file.src <;> simp_all [Op.call]
    exact consistent.remove served.history rfl
      (.inr ⟨socket, denotes, smolClose_keeps calm.1 calm.2 answered⟩)
  · refine consistent.remove served.history rfl (.inl ?_)
    exact answered.grows consistent calm (fun handle only => closes ⟨handle, only⟩)
      fun handle _ only => absurd only (not_smolAccept served rfl (by simp) handle)

end Calls

theorem consistent_step (consistent : Consistent s) (stepped : ServiceStep b s e t)
    (orderly : Orderly s e t) :
    Consistent t := by
  obtain ⟨room, calm, listeners⟩ := orderly
  cases stepped with
  | poll => exact consistent.keep (fun _ _ => .rfl) rfl ((Network.polled _ _).grows calm)
  | @call o table net sockets _ stepped answered =>
    have served := step_served room.1 stepped
    have same (fd : Fd) (target : o.op.target = some fd) (closes : ∀ fd, o.op ≠ .close fd)
        (accepts : ∀ fd, o.op ≠ .accept fd) (files : o.apply s.table.files = s.table.files)
        (roles : assign net s.sockets sockets o s.roles = s.roles) :
        Consistent ⟨table, sockets, assign net s.sockets sockets o s.roles⟩ :=
      consistent.keep (denotes_congr (served.history.trans files)) roles
        (answered.grows consistent calm (not_smolClose served target closes)
          fun handle _ only => absurd only (not_smolAccept served target accepts handle))
    cases op : o.op with
    | connect addr => exact connect_consistent consistent room stepped answered calm op
    | bind addr => exact bind_consistent consistent room stepped answered calm op
    | accept fd =>
      exact accept_consistent consistent room stepped answered calm op fun handle which =>
        listeners fd handle which op
    | «open» path flags mode => exact open_consistent consistent room stepped answered calm op
    | close fd => exact close_consistent consistent room stepped answered calm op
    | read fd len | write fd buf | lseek fd pos | stat fd =>
      exact same fd (by rw [op]; rfl) (by simp [op]) (by simp [op])
        (by simp [Observation.apply, op])
        (by simp [assign, op])

theorem identified_step (consistent : Consistent s) (stepped : ServiceStep b s e t)
    (orderly : Orderly s e t) :
    Identified s e t := by
  have after := consistent_step consistent stepped orderly
  refine ⟨fun n role same => same ▸ after.fits n, ?_⟩
  obtain ⟨room, calm, listeners⟩ := orderly
  cases stepped with
  | poll => trivial
  | @call o table net sockets _ stepped answered =>
    have served := step_served room.1 stepped
    refine ⟨fun fd handle which target role call member => ?_, fun fd op other => ?_⟩
    · have fits := consistent.fits fd.toNat
      rw [role] at fits
      have denotes : s.Denotes fd.toNat handle := fits.1
      obtain ⟨file, found, source⟩ := denotes
      obtain ⟨free, _⟩ | ⟨file', found', called⟩ := served.calls target call member
      · nomatch found.symm.trans free
      · obtain rfl := Option.some.inj (found.symm.trans found')
        rw [source] at called
        cases op : o.op <;> rw [op] at called <;> cases called <;> rfl
    · obtain ⟨failed, files, _⟩ | ⟨file, socket, handle, new, found, source, answer, calls, _⟩ :=
        accept_step room.1 stepped op
      · exact ⟨failed, files⟩
      · have denotes : s.Denotes fd.toNat socket := ⟨file, found, source⟩
        have accepted : smolAccept net socket s.sockets = some (.ok handle, sockets) := by
          rw [calls] at answered
          exact answer ▸ answered
        obtain ⟨port, role, _⟩ :=
          accepted_listener consistent denotes accepted fun handle which =>
            listeners fd handle which op
        exact absurd role (other port)

theorem smolAccept_unrefused (accepting : ¬ net.Refuses sockets handle)
    (accepted : smolAccept net handle sockets = some (answer, after)) : ∃ fd, answer = .ok fd := by
  simp only [Network.Refuses, ne_eq, not_or, not_not, not_forall] at accepting
  obtain ⟨acquired, reacquired, socket, port, found, localPort, valid⟩ := accepting
  have apart : socket.isListen = false := by
    cases socket with
    | server _ stage => cases stage <;> first | rfl | nomatch localPort
    | _ => rfl
  unfold smolAccept at accepted
  simp only [acquired, found, Option.bind_some, apart, Bool.false_eq_true, if_false, localPort,
    smolBind, reacquired] at accepted
  obtain ⟨new, there, result⟩ := Option.map_eq_some_iff.mp accepted
  obtain ⟨next, there', polls⟩ :=
    (net.repolled (net.poll sockets ++ [.closed])).polls (net.poll sockets).length .closed (by simp)
  obtain rfl := Option.some.inj (there.symm.trans there')
  rw [polls_closed polls, if_neg (by simp [Endpoint.isOpen]), if_neg valid] at result
  cases result
  exact ⟨_, rfl⟩

/-- `accept` on a connection goes through, and takes its descriptor for the new listener. -/
theorem accepted_connection (consistent : Consistent s) (stepped : ServiceStep b s e t)
    (room : s.Room) (other : ¬ OnListeners s e) : ¬ Identified s e t := by
  cases stepped with
  | poll => exact absurd trivial other
  | @call o table net sockets _ stepped answered =>
    simp only [OnListeners, not_forall] at other
    obtain ⟨fd, socket, which, op, role, accepting⟩ := other
    rintro ⟨_, _, fails⟩
    obtain ⟨⟨e, failed⟩, _⟩ := fails fd op (by simp [role])
    have fits := consistent.fits fd.toNat
    rw [role] at fits
    obtain ⟨file, found, source⟩ : s.Denotes fd.toNat socket := fits.1
    obtain ⟨_, _, unanswered⟩ | ⟨_, _, _, _, _, _, _, _, passed, _⟩ := accept_step room.1 stepped op
    · have calls : o.calls = [.smolAccept socket] := by
        have present := (step_served room.1 stepped).present fd file (by rw [op]; rfl) found
        simp only [Observation.Present, op, Op.forbidden, Op.call, source] at present
        exact present.1
      rw [calls] at answered
      obtain ⟨handle, answer⟩ := smolAccept_unrefused accepting answered
      exact unanswered file socket handle found source answer
    · cases failed.symm.trans passed

end Steps

/-- As long as `accept` is called on no descriptor of a live connection, the network drops no
connection too early and there is room, every descriptor stays what it was returned for. With room
and a calm network, an `accept` on a live connection breaks it. -/
theorem descriptors_identified_when (b : Build) (es : List ServiceEvent) (s : Services)
    (run : Run (Where (ServiceStep b) Orderly) .start es s) :
    Run (Where (ServiceStep b) Identified) .start es s ∧
      ∀ e t, ServiceStep b s e t → s.Room → Calm s e →
        (Identified s e t ↔ OnListeners s e) := by
  refine ⟨run.where_of consistent_step identified_step consistent_start,
    fun e t stepped room calm => ?_⟩
  have consistent : Consistent s :=
    run.stable (fun held stepped => consistent_step held stepped.1 stepped.2) consistent_start
  constructor
  · intro identified
    by_contra other
    exact accepted_connection consistent stepped room other identified
  · exact fun listeners => identified_step consistent stepped ⟨room, calm, listeners⟩

/-- The polls of a network that does nothing but let listeners take a connection. -/
theorem Steady.of_taken (lasting : ∀ port peer, Endpoint.server port (.ended peer) ∉ after)
    (kept : ∀ (handle : Nat) port peer, sockets[handle]? = some (.server port (.connected peer)) →
      after[handle]? = some (.server port (.connected peer))) :
    Steady watch sockets after where
  lasting handle port peer _ found := lasting port peer (List.mem_of_getElem? found)
  kept handle port peer _ found := by rw [carried, kept handle port peer found]; rfl

/-- A poll in which the listeners take the connection 9. -/
def Endpoint.rung : Endpoint → Endpoint
  | .server port .listening => .server port (.connected 9)
  | socket => socket

theorem rung_polls (socket : Endpoint) : socket.Polls socket.rung := by
  unfold Endpoint.rung
  split
  · exact .taken .same
  · exact .same

/-- A network on which nothing happens, or only the first poll brings a connection. -/
def network (rings : Bool) : Network where
  acquired := .ok ()
  poll := if rings then List.map Endpoint.rung else id
  polled sockets := by
    cases rings with
    | false => exact ⟨rfl, fun _ socket found => ⟨socket, found, .same⟩⟩
    | true =>
      exact ⟨List.length_map _, fun _ socket found => ⟨_, by simp [found], rung_polls socket⟩⟩
  reacquired := .ok ()
  repoll := id
  repolled _ := ⟨rfl, fun _ socket found => ⟨socket, found, .same⟩⟩
  random := 0
  connected := .ok ()
  flushed := true
  message := ""

def serverAddr : SocketAddr := ⟨0, 80⟩

/-- The socket service answers with the handles 0 and 1. -/
def firstHandles : Answers :=
  { sevenAnswers with smolConnect := .ok 0, smolBind := .ok 0, smolAccept := .ok 1 }

/-- A server that binds its port and accepts a connection. -/
def served : List ServiceEvent :=
  [.call ⟨.bind serverAddr, firstHandles, .ok (.fd 3), [.smolBind serverAddr]⟩ (network false),
    .call ⟨.accept 3, firstHandles, .ok (.fd 4), [.smolAccept 0]⟩ (network true)]

def bound : Services where
  table := [some ⟨OpenMode.RD, .net 0⟩]
  sockets := [.server 80 .listening]
  roles := Function.update (fun _ => none) 3 (some (.listener 80))

def accepted : Services where
  table := [some ⟨OpenMode.RD, .net 1⟩, some ⟨OpenMode.RDWR, .net 0⟩]
  sockets := [.server 80 (.connected 9), .server 80 .listening]
  roles := Function.update bound.roles 4 (some (.connection 0 (some (.taken 80 9))))

theorem connection_identified : Run (Where (ServiceStep debug) Orderly) .start served accepted ∧
    Run (Where (ServiceStep debug) Identified) .start served accepted := by
  have early : Services.start.Room ∧ bound.Room := by
    simp [Services.Room, Services.start, bound, FdTable.Room, SlotTable.used]
  have binds : Where (ServiceStep debug) Orderly .start
      (.call ⟨.bind serverAddr, firstHandles, .ok (.fd 3), [.smolBind serverAddr]⟩ (network false))
      bound := by
    refine ⟨.call rfl rfl, early.1, .of_taken ?_ fun _ _ _ found => found, ?_⟩
    · simp [network, Services.start]
    · intro fd handle which same
      cases same
  have accepts : Where (ServiceStep debug) Orderly bound
      (.call ⟨.accept 3, firstHandles, .ok (.fd 4), [.smolAccept 0]⟩ (network true)) accepted := by
    refine ⟨.call rfl rfl, early.2, ⟨.of_taken ?_ ?_, .of_taken ?_ fun _ _ _ found => found⟩, ?_⟩
    · simp [network, bound, Endpoint.rung]
    · intro handle port peer found
      have member := List.mem_of_getElem? found
      simp [bound] at member
    · simp [network, bound, Endpoint.rung]
    · rintro fd handle which ⟨⟩ role
      simp [bound] at role
  have run := Run.cons binds (Run.cons accepts (.nil _))
  exact ⟨run, (descriptors_identified_when debug _ _ run).1⟩

/-- After `connect` has returned 3, `accept(3)` returns 4, and 3 is a listener on the local port of
the connection. -/
theorem connection_replaced : ¬ ∀ b es s, Run (ServiceStep b) .start es s →
    Run (Where (ServiceStep b) Identified) .start es s := by
  intro all
  have dials : ServiceStep debug .start
      (.call ⟨.connect serverAddr, firstHandles, .ok (.fd 3), [.smolConnect serverAddr]⟩
        (network false))
      ⟨[some ⟨OpenMode.RDWR, .net 0⟩], [.client 49152 true], Function.update (fun _ => none) 3
        (some (.connection 0 (some (.dialled 49152))))⟩ := .call rfl rfl
  have accepts : ServiceStep debug
      ⟨[some ⟨OpenMode.RDWR, .net 0⟩], [.client 49152 true], Function.update (fun _ => none) 3
        (some (.connection 0 (some (.dialled 49152))))⟩
      (.call ⟨.accept 3, firstHandles, .ok (.fd 4), [.smolAccept 0]⟩ (network false))
      ⟨[some ⟨OpenMode.RDWR, .net 1⟩, some ⟨OpenMode.RDWR, .net 0⟩],
        [.client 49152 true, .server 49152 .listening], _⟩ :=
    .call rfl rfl
  cases all debug _ _ (.cons dials (.cons accepts (.nil _))) with
  | cons _ rest =>
    cases rest with
    | cons second last =>
      cases last
      obtain ⟨⟨file, found, source⟩, _⟩ := second.2.1 3 (.connection 0 (some (.dialled 49152))) rfl
      cases found
      nomatch source

end AlloyStack.Socket
