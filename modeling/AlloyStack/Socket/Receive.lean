import Mathlib.Data.List.Basic
import AlloyStack.Library.Transition

/-! Reception over an established TCP socket. Every `smol_recv` polls the interface until it has
copied something or finds the connection closed by the peer, and other calls of the service poll
the interface in between. -/
namespace AlloyStack.Socket
open Transition

/-- The states of a socket that the local side does not close. -/
inductive State where
  | established
  | closeWait
  deriving DecidableEq

/-- smoltcp's socket, as far as reception reads it. -/
structure TcpSocket where
  state : State
  capacity : Nat
  rx : List UInt8

/-- What a poll of the interface takes from the peer, in order. -/
structure Arrival where
  bytes : List UInt8
  fin : Bool

namespace TcpSocket

def established (capacity : Nat) : TcpSocket := ⟨.established, capacity, []⟩

/-- Nothing follows the peer's FIN, and the receive window is kept. -/
def Admits (s : TcpSocket) (a : Arrival) : Prop :=
  s.rx.length + a.bytes.length ≤ s.capacity ∧ (s.state = .closeWait → a.bytes = [] ∧ a.fin = false)

def poll (s : TcpSocket) (a : Arrival) : TcpSocket :=
  { s with state := if a.fin then .closeWait else s.state, rx := s.rx ++ a.bytes }

def mayRecv (s : TcpSocket) : Bool := s.state == .established || !s.rx.isEmpty

def canRecv (s : TcpSocket) : Bool := s.mayRecv && !s.rx.isEmpty

/-- `recv` hands its closure the readable bytes up to the end of the ring buffer, which are
`slice + 1` here, and the closure takes at most `free` of them. -/
def recv (s : TcpSocket) (free slice : Nat) : List UInt8 × TcpSocket :=
  let size := min free (s.rx.take (slice + 1)).length
  (s.rx.take size, { s with rx := s.rx.drop size })

end TcpSocket

/-- The environment of one iteration of the loop: what its poll takes from the peer, where the
ring buffer wraps, and whether `try_phy_wait` succeeds. -/
structure Round where
  arrival : Arrival
  slice : Nat
  waited : Bool

/-- The end of an iteration: the loop goes on with the bytes copied so far, or the call returns
`Ok` of them, or it returns the error of `try_phy_wait`. -/
inductive Iteration where
  | continues (copied : List UInt8)
  | returns (copied : List UInt8)
  | fails

/-- The body of the loop of `smol_recv`, for a buffer of `len` bytes whose first ones are
`copied`. -/
def smolRecv (len : Nat) (copied : List UInt8) (s : TcpSocket) (r : Round) :
    TcpSocket × Iteration :=
  let s := s.poll r.arrival
  if !copied.isEmpty || !s.mayRecv || s.state == .closeWait then
    (s, .returns copied)
  else
    let (data, s) := if s.canRecv then s.recv (len - copied.length) r.slice else ([], s)
    if r.waited then (s, .continues (copied ++ data)) else (s, .fails)

/-- The socket with the call that is in progress, the bytes that the peer sent and the data that
calls have returned. -/
structure Reception where
  socket : TcpSocket
  call : Option (Nat × List UInt8)
  sent : List UInt8
  returned : List UInt8

namespace Reception

def start (capacity : Nat) : Reception := ⟨.established capacity, none, [], []⟩

def copied (s : Reception) : List UInt8 := (s.call.map Prod.snd).getD []

/-- A poll by another call. -/
def arrive (s : Reception) (a : Arrival) : Reception :=
  { s with socket := s.socket.poll a, sent := s.sent ++ a.bytes }

/-- The state after an iteration of a call with a buffer of `len` bytes. -/
def iterate (s : Reception) (len : Nat) (a : Arrival) (socket : TcpSocket) : Iteration → Reception
  | .continues data => ⟨socket, some (len, data), s.sent ++ a.bytes, s.returned⟩
  | .returns data => ⟨socket, none, s.sent ++ a.bytes, s.returned ++ data⟩
  | .fails => ⟨socket, none, s.sent ++ a.bytes, s.returned⟩

end Reception

inductive ReceiveEvent where
  | call (len : Nat)
  | refused (len : Nat)
  | arrive (a : Arrival)
  | iterate (r : Round) (result : Iteration)

/-- One step of a caller that passes non-empty buffers, or of the other calls. -/
inductive ReceiveStep : Reception → ReceiveEvent → Reception → Prop where
  | call : s.call = none → 0 < len → ReceiveStep s (.call len) { s with call := some (len, []) }
  -- `acquire_iface` or `acquire_sockets` finds its lock poisoned
  | refused : s.call = none → 0 < len → ReceiveStep s (.refused len) s
  | arrive : s.call = none → s.socket.Admits a → ReceiveStep s (.arrive a) (s.arrive a)
  | iterate : s.call = some (len, copied) → s.socket.Admits r.arrival →
      smolRecv len copied s.socket r = (socket, result) →
      ReceiveStep s (.iterate r result) (s.iterate len r.arrival socket result)

/-- A FIN comes to a socket without unread bytes. -/
def Drained (s : TcpSocket) (a : Arrival) : Prop := a.fin = true → s.rx ++ a.bytes = []

/-- A FIN comes to a socket without unread bytes, and `try_phy_wait` does not fail in an iteration
that has just copied bytes of an established socket. -/
def Timely (s : Reception) : ReceiveEvent → Reception → Prop
  | .call _, _ | .refused _, _ => True
  | .arrive a, _ => Drained s.socket a
  | .iterate r _, _ => Drained s.socket r.arrival ∧
      (r.waited = false → s.copied = [] → s.socket.state = .established →
        s.socket.rx ++ r.arrival.bytes = [])

namespace TcpSocket
variable {s : TcpSocket} {a : Arrival}

@[simp] theorem poll_rx : (s.poll a).rx = s.rx ++ a.bytes := rfl

theorem poll_state : (s.poll a).state = .closeWait ↔ a.fin = true ∨ s.state = .closeWait := by
  cases fin : a.fin <;> simp [poll, fin]

theorem recv_split (s : TcpSocket) (free slice : Nat) :
    (s.recv free slice).1 ++ (s.recv free slice).2.rx = s.rx :=
  List.take_append_drop ..

theorem recv_nonempty (slice : Nat) (free : 0 < n) (unread : s.rx ≠ []) :
    (s.recv n slice).1 ≠ [] := by
  have size := List.length_pos_iff.mpr unread
  apply List.ne_nil_of_length_pos
  simp only [recv, List.length_take]
  omega

end TcpSocket

/-- What an iteration does. A call with something copied returns without another look at the
receive buffer, and so does one that finds the FIN. -/
theorem smolRecv_cases (h : smolRecv len copied s r = (t, result)) (positive : 0 < len) :
    (result = .returns copied ∧ t = s.poll r.arrival ∧ (copied ≠ [] ∨ t.state = .closeWait)) ∨
    (copied = [] ∧ (s.poll r.arrival).state ≠ .closeWait ∧ t.state ≠ .closeWait ∧
      ∃ data, data ++ t.rx = s.rx ++ r.arrival.bytes ∧ (data = [] → t.rx = []) ∧
        (r.waited = true ∧ result = .continues data ∨ r.waited = false ∧ result = .fails)) := by
  unfold smolRecv at h
  dsimp only at h
  split at h
  case isTrue stops =>
    obtain ⟨rfl, rfl⟩ := Prod.mk.inj h
    refine .inl ⟨rfl, rfl, ?_⟩
    simp only [TcpSocket.mayRecv, Bool.or_eq_true, Bool.not_eq_true', beq_iff_eq] at stops
    cases state : (s.poll r.arrival).state <;> simp_all
  case isFalse goes =>
    simp only [Bool.or_eq_true, Bool.not_eq_true', beq_iff_eq, not_or, Bool.not_eq_false,
      List.isEmpty_iff] at goes
    obtain ⟨⟨rfl, may⟩, opened⟩ := goes
    by_cases unread : (s.poll r.arrival).rx = []
    · simp only [TcpSocket.canRecv, unread, List.isEmpty_nil, Bool.not_true, Bool.and_false,
        Bool.false_eq_true, if_false, List.append_nil] at h
      refine .inr ⟨rfl, opened, ?_⟩
      cases waited : r.waited <;> rw [waited] at h <;> obtain ⟨rfl, rfl⟩ := Prod.mk.inj h <;>
        exact ⟨opened, [], rfl, fun _ => unread, by simp⟩
    · have can : (s.poll r.arrival).canRecv = true := by
        rw [TcpSocket.canRecv, may, Bool.true_and, Bool.not_eq_true', List.isEmpty_eq_false_iff];
          exact unread
      simp only [can, if_true, List.length_nil, Nat.sub_zero, List.nil_append] at h
      have split := TcpSocket.recv_split (s.poll r.arrival) len r.slice
      have taken := TcpSocket.recv_nonempty r.slice positive unread
      refine .inr ⟨rfl, opened, ?_⟩
      cases waited : r.waited <;> rw [waited] at h <;> obtain ⟨rfl, rfl⟩ := Prod.mk.inj h <;>
        exact ⟨opened, _, split, fun none => absurd none taken, by simp⟩

/-- The buffer of a call in progress is not empty. -/
def Reception.Positive (s : Reception) : Prop := ∀ len copied, s.call = some (len, copied) → 0 < len

/-- The bytes that calls have taken from the socket. -/
def Reception.taken (s : Reception) : List UInt8 := s.returned ++ s.copied

/-- What a step does with the stream: bytes arrive, bytes are taken from the receive buffer, and
some of these are dropped. -/
structure Moved (s : Reception) (e : ReceiveEvent) (t : Reception) (arrived dropped : List UInt8) :
    Prop where
  positive : t.Positive
  sent : t.sent = s.sent ++ arrived
  total : s.taken ++ (s.socket.rx ++ arrived) = t.taken ++ (dropped ++ t.socket.rx)
  closed : s.socket.state = .closeWait → arrived = [] ∧ dropped = [] ∧ t.socket.state = .closeWait ∧
    t.socket.rx = s.socket.rx
  timely : Timely s e t ↔ dropped = [] ∧
    (t.socket.state = .closeWait → s.socket.state = .closeWait ∨ t.socket.rx = [])

section Steps
variable {s t : Reception} {e : ReceiveEvent}

theorem poll_closed (admitted : s.socket.Admits a) (closed : s.socket.state = .closeWait) :
    a.bytes = [] ∧ (s.socket.poll a).state = .closeWait ∧ (s.socket.poll a).rx = s.socket.rx := by
  obtain ⟨none, _⟩ := admitted.2 closed
  exact ⟨none, TcpSocket.poll_state.mpr (.inr closed),
    by rw [TcpSocket.poll_rx, none, List.append_nil]⟩

theorem drained_iff (admitted : s.socket.Admits a) :
    Drained s.socket a ↔
    ((s.socket.poll a).state = .closeWait → s.socket.state = .closeWait ∨
      (s.socket.poll a).rx = []) := by
  rw [TcpSocket.poll_state, TcpSocket.poll_rx]
  constructor
  · intro drained closed
    exact closed.symm.imp_right drained
  · intro after fin
    refine (after (.inl fin)).resolve_left fun closed => ?_
    simp [(admitted.2 closed).2] at fin

theorem step_moved (positive : s.Positive) (stepped : ReceiveStep s e t) :
    ∃ arrived dropped, Moved s e t arrived dropped := by
  cases stepped with
  | call idle nonempty =>
    refine ⟨[], [], ?_, by simp, ?_, fun closed => ⟨rfl, rfl, closed, rfl⟩,
      by simp +contextual [Timely]⟩
    · rintro _ _ ⟨⟩
      exact nonempty
    · simp [Reception.taken, Reception.copied, idle]
  | refused =>
    exact ⟨[], [], positive, by simp, by simp, fun closed => ⟨rfl, rfl, closed, rfl⟩,
      by simp +contextual [Timely]⟩
  | arrive idle admitted =>
    refine ⟨_, [], positive, rfl, rfl, fun closed => ?_, ?_⟩
    · obtain ⟨none, after⟩ := poll_closed admitted closed
      exact ⟨none, rfl, after⟩
    · simpa [Timely, Reception.arrive] using drained_iff admitted
  | @iterate len copied r socket result _ entered admitted computed =>
    have own : s.copied = copied := by simp [Reception.copied, entered]
    have opens := drained_iff admitted
    rcases smolRecv_cases computed (positive len copied entered) with
      ⟨rfl, rfl, stops⟩ | ⟨rfl, opened, stays, data, split, none, ⟨waited, rfl⟩ | ⟨failed, rfl⟩⟩
    · refine ⟨r.arrival.bytes, [], nofun, rfl, ?_, fun closed => ?_, ?_⟩
      · simp [Reception.iterate, Reception.taken, Reception.copied, entered]
      · obtain ⟨none, after⟩ := poll_closed admitted closed
        exact ⟨none, rfl, after⟩
      · simp only [Timely, true_and]
        refine Iff.trans ⟨And.left, fun drained => ⟨drained, fun _ empty before => ?_⟩⟩ opens
        rcases stops with copied | closed
        · exact absurd (own.symm.trans empty) copied
        · exact (opens.mp drained closed).resolve_left (by simp [before])
    · have fresh : s.socket.state ≠ .closeWait :=
        fun closed => opened (poll_closed admitted closed).2.1
      refine ⟨r.arrival.bytes, [], ?_, rfl, ?_, fun closed => absurd closed fresh, ?_⟩
      · rintro _ _ ⟨⟩
        exact positive len [] entered
      · simp [Reception.iterate, Reception.taken, Reception.copied, entered, split]
      · simp [Timely, waited, opens, opened, Reception.iterate, stays]
    · have fresh : s.socket.state ≠ .closeWait :=
        fun closed => opened (poll_closed admitted closed).2.1
      refine ⟨r.arrival.bytes, data, nofun, rfl, ?_, fun closed => absurd closed fresh, ?_⟩
      · simp [Reception.iterate, Reception.taken, Reception.copied, entered, split]
      · constructor
        · intro timely
          have established : s.socket.state = .established := by
            cases state : s.socket.state with
            | established => rfl
            | closeWait => exact absurd state fresh
          have nothing := timely.2 failed own established
          exact ⟨(List.append_eq_nil_iff.mp (split.trans nothing)).1,
            fun closed => absurd closed stays⟩
        · rintro ⟨rfl, _⟩
          refine ⟨opens.mpr fun closed => absurd closed opened, fun _ _ _ => ?_⟩
          rw [← split, none rfl, List.append_nil]

end Steps

/-- What the receiver has never exceeds what was sent. -/
structure Bounded (s : Reception) : Prop where
  positive : s.Positive
  total : s.taken.length + s.socket.rx.length ≤ s.sent.length

/-- Nothing is missing, and nothing is unread behind the FIN. -/
structure Lossless (s : Reception) : Prop where
  positive : s.Positive
  total : s.taken ++ s.socket.rx = s.sent
  drained : s.socket.state = .closeWait → s.socket.rx = []

/-- Bytes were dropped, or are unread behind the FIN. -/
def Lost (s : Reception) : Prop :=
  s.taken.length + s.socket.rx.length < s.sent.length ∨ s.socket.state = .closeWait ∧
    s.socket.rx ≠ []

section Runs
variable {s t : Reception} {e : ReceiveEvent}

theorem Moved.length (moved : Moved s e t arrived dropped) :
    s.taken.length + s.socket.rx.length + arrived.length =
      t.taken.length + dropped.length + t.socket.rx.length ∧
      t.sent.length = s.sent.length + arrived.length := by
  have total := congrArg List.length moved.total
  have sent := congrArg List.length moved.sent
  simp only [List.length_append] at total sent
  omega

theorem bounded_step (bounded : Bounded s) (stepped : ReceiveStep s e t) : Bounded t := by
  obtain ⟨arrived, dropped, moved⟩ := step_moved bounded.positive stepped
  have lengths := moved.length
  have before := bounded.total
  exact ⟨moved.positive, by omega⟩

theorem lossless_step (sound : Lossless s) (stepped : ReceiveStep s e t) (timely : Timely s e t) :
    Lossless t := by
  obtain ⟨arrived, dropped, moved⟩ := step_moved sound.positive stepped
  obtain ⟨rfl, after⟩ := moved.timely.mp timely
  refine ⟨moved.positive, ?_, fun closed => ?_⟩
  · calc t.taken ++ t.socket.rx = s.taken ++ (s.socket.rx ++ arrived) := moved.total.symm
      _ = t.sent := by rw [← List.append_assoc, sound.total, moved.sent]
  · rcases after closed with before | empty
    · rw [(moved.closed before).2.2.2, sound.drained before]
    · exact empty

theorem untimely_lost (bounded : Bounded s) (stepped : ReceiveStep s e t)
    (untimely : ¬ Timely s e t) : Lost t := by
  obtain ⟨arrived, dropped, moved⟩ := step_moved bounded.positive stepped
  by_cases none : dropped = []
  · simp only [moved.timely, none, true_and, Classical.not_imp, not_or] at untimely
    exact .inr ⟨untimely.1, untimely.2.2⟩
  · have lengths := moved.length
    have before := bounded.total
    have some := List.length_pos_iff.mpr none
    exact .inl (by omega)

theorem lost_step (bounded : Bounded s) (lost : Lost s) (stepped : ReceiveStep s e t) : Lost t := by
  obtain ⟨arrived, dropped, moved⟩ := step_moved bounded.positive stepped
  rcases lost with short | ⟨closed, unread⟩
  · have lengths := moved.length
    exact .inl (by omega)
  · obtain ⟨_, _, after, same⟩ := moved.closed closed
    exact .inr ⟨after, same ▸ unread⟩

theorem returned_lossless (bounded : Bounded t) (all : t.returned = t.sent) : ¬ Lost t := by
  have total := bounded.total
  simp only [Reception.taken, List.length_append, all] at total
  rintro (short | ⟨_, unread⟩)
  · simp only [Reception.taken, List.length_append, all] at short
    omega
  · have := List.length_pos_iff.mpr unread
    omega

/-- A call returns `Ok(0)` only once the FIN is there. -/
theorem closed_of_empty (positive : s.Positive)
    (stepped : ReceiveStep s (.iterate r (.returns [])) t) :
    t.socket.state = .closeWait ∧ t.copied = [] := by
  cases stepped with
  | @iterate len copied _ socket _ _ entered admitted computed =>
    rcases smolRecv_cases computed (positive len copied entered) with ⟨same, rfl, stops⟩ |
      ⟨_, _, _, _, _, _, ⟨_, eq⟩ | ⟨_, eq⟩⟩
    · cases same
      exact ⟨stops.resolve_left (absurd rfl), rfl⟩
    · nomatch eq
    · nomatch eq

end Runs

theorem bounded_start (capacity : Nat) : Bounded (.start capacity) := ⟨nofun, Nat.le_refl _⟩

theorem lossless_start (capacity : Nat) : Lossless (.start capacity) := ⟨nofun, rfl, nofun⟩

/-- At a call that returns `Ok(0)`, the peer has closed, and the calls have returned its whole
stream if and only if the FIN came to an empty receive buffer and no call failed with bytes
copied. -/
theorem stream_received_iff (capacity : Nat) (es : List ReceiveEvent) (r : Round) (t : Reception)
    (run : Run ReceiveStep (.start capacity) (es ++ [.iterate r (.returns [])]) t) :
    t.socket.state = .closeWait ∧ (t.returned = t.sent ↔
      Run (Where ReceiveStep Timely) (.start capacity) (es ++ [.iterate r (.returns [])]) t) := by
  have bounded : Bounded t := run.stable bounded_step (bounded_start capacity)
  obtain ⟨s, first, last⟩ := run.split
  have before : Bounded s := first.stable bounded_step (bounded_start capacity)
  obtain ⟨closed, none⟩ : t.socket.state = .closeWait ∧ t.copied = [] := by
    cases last with
    | cons stepped rest =>
      cases rest
      exact closed_of_empty before.positive stepped
  refine ⟨closed, fun all => ?_, fun timely => ?_⟩
  · exact run.where_of_lasting bounded_step untimely_lost lost_step (bounded_start capacity)
      (returned_lossless bounded all)
  · have sound : Lossless t :=
      timely.stable (fun sound stepped => lossless_step sound stepped.1 stepped.2)
        (lossless_start capacity)
    simpa [Reception.taken, none, sound.drained closed] using sound.total

/-- The data and the FIN come in different polls. -/
def apart : List ReceiveEvent :=
  [.call 16, .iterate ⟨⟨[7], false⟩, 0, true⟩ (.continues [7]),
    .iterate ⟨⟨[], true⟩, 0, true⟩ (.returns [7]), .call 16]

theorem stream_received_apart :
    ∃ t, Run ReceiveStep (.start 1024)
    (apart ++ [.iterate ⟨⟨[], false⟩, 0, true⟩ (.returns [])]) t ∧ t.returned = t.sent ∧
      t.sent = [7] := by
  have timely : Run (Where ReceiveStep Timely) (.start 1024)
      (apart ++ [.iterate ⟨⟨[], false⟩, 0, true⟩ (.returns [])])
        ⟨⟨.closeWait, 1024, []⟩, none, [7], [7]⟩ :=
    .cons ⟨.call rfl (by decide), trivial⟩
      (.cons ⟨.iterate rfl ⟨by decide, nofun⟩ rfl, nofun, nofun⟩
      (.cons ⟨.iterate rfl ⟨by decide, nofun⟩ rfl, fun _ => rfl, nofun⟩
        (.cons ⟨.call rfl (by decide), trivial⟩
        (.cons ⟨.iterate rfl ⟨by decide, fun _ => ⟨rfl, rfl⟩⟩ rfl, nofun, nofun⟩ (.nil _)))))
  have run := timely.unguarded
  exact ⟨_, run, (stream_received_iff 1024 apart _ _ run).2.mpr timely, rfl⟩

/-- One poll takes the data and the FIN from the peer: the call returns `Ok(0)` and the data stays
in the receive buffer. -/
theorem stream_lost :
    ¬ ∀ capacity es r t,
    Run ReceiveStep (.start capacity) (es ++ [.iterate r (.returns [])]) t →
      t.returned = t.sent := by
  intro all
  have run : Run ReceiveStep (.start 1024)
      ([.call 16] ++ [.iterate ⟨⟨[7], true⟩, 0, true⟩ (.returns [])])
      ⟨⟨.closeWait, 1024, [7]⟩, none, [7], []⟩ :=
    .cons (.call rfl (by decide)) (.cons (.iterate rfl ⟨by decide, nofun⟩ rfl) (.nil _))
  simpa using all _ _ _ _ run

end AlloyStack.Socket
