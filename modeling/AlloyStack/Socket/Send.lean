import Mathlib.Data.List.Infix
import AlloyStack.Library.SlotTable
import AlloyStack.Socket.Apis

/-! Sending over a TCP socket. `smol_send` offers smoltcp what is left of its data after every poll
of the interface, until all of it is queued. -/
namespace AlloyStack.Socket.Send
open SlotTable
open AlloyStack.Fdtab (SockFd SmoltcpError Size)

/-- The part of smoltcp's TCP socket that `smol_send` uses. Errors are their texts. -/
structure Tcp (Sock : Type) where
  maySend : Sock → Bool
  sendSlice : List UInt8 → Sock → Except String Size × Sock

/-- `send_slice` enqueues exactly the first bytes of its argument, as many as it returns; `queued`
is all that has ever been enqueued on a socket. -/
structure Enqueues (tcp : Tcp Sock) (queued : Sock → List UInt8) : Prop where
  ok : tcp.sendSlice data s = (.ok size, t) → size ≤ data.length ∧
    queued t = queued s ++ data.take size
  error : tcp.sendSlice data s = (.error e, t) → queued t = queued s

/-- What has been enqueued on the TCP socket with a handle. -/
def streams (queued : Sock → List UInt8) (sockets : List (Option Sock)) (handle : Nat) :
    Option (List UInt8) :=
  (slot sockets handle).map queued

/-- The environment of one iteration of the loop: what its poll makes of the sockets, where it
enqueues nothing, and the answer of `try_phy_wait`. -/
structure Round (queued : Sock → List UInt8) where
  poll : List (Option Sock) → List (Option Sock)
  quiet : ∀ sockets, streams queued (poll sockets) = streams queued sockets
  waited : Except String Unit

/-- The end of an iteration. The slice of the data and `get_mut` can panic. -/
inductive Iteration where
  | continues (cursor : Nat)
  | returns (result : Except SmoltcpError Unit)
  | panics

section Calls
variable {Sock : Type} {queued : Sock → List UInt8} (tcp : Tcp Sock)

/-- The part of the loop's body after `send_slice`. -/
def afterSend (data : List UInt8) (waited : Except String Unit) (cursor : Nat) : Iteration :=
  if cursor = data.length then .returns (.ok ())
  else match waited with
    | .error e => .returns (.error (.hostIOErr e))
    | .ok () => .continues cursor

/-- The body of the loop of `smol_send`. -/
def sendOnce (handle : SockFd) (data : List UInt8) (cursor : Nat) (r : Round queued)
    (sockets : List (Option Sock)) :
    Iteration × List (Option Sock) :=
  let sockets := r.poll sockets
  match slot sockets (fromSockfd handle) with
  | none => (.panics, sockets)
  | some socket =>
    if tcp.maySend socket then
      if data.length < cursor then (.panics, sockets)
      else match tcp.sendSlice (data.drop cursor) socket with
        | (.error e, socket) =>
          (.returns (.error (.smoltcpErr e)), sockets.set (fromSockfd handle) (some socket))
        | (.ok size, socket) =>
          (afterSend data r.waited (cursor + size), sockets.set (fromSockfd handle) (some socket))
    else (afterSend data r.waited cursor, sockets)

/-- The loop, for as many iterations as there are rounds. -/
def sendLoop (handle : SockFd) (data : List UInt8) (cursor : Nat) :
    List (Round queued) → List (Option Sock) → Iteration × List (Option Sock)
  | [], sockets => (.continues cursor, sockets)
  | r :: rounds, sockets =>
    match sendOnce tcp handle data cursor r sockets with
    | (.continues cursor, sockets) => sendLoop handle data cursor rounds sockets
    | (ended, sockets) => (ended, sockets)

/-- `acquired` is the answer of `acquire_iface` and `acquire_sockets`. -/
def smolSend (acquired : Except SmoltcpError Unit) (handle : SockFd) (data : List UInt8)
    (rounds : List (Round queued)) (sockets : List (Option Sock)) :
    Iteration × List (Option Sock) :=
  match acquired with
  | .error e => (.returns (.error e), sockets)
  | .ok () => sendLoop tcp handle data 0 rounds sockets

/-- The bytes are enqueued on one socket, and nothing on the others. -/
def Queued (queued : Sock → List UInt8) (handle : SockFd) (bytes : List UInt8)
    (sockets after : List (Option Sock)) : Prop :=
  streams queued after = Function.update (streams queued sockets) (fromSockfd handle)
    ((streams queued sockets (fromSockfd handle)).map (· ++ bytes))

variable {tcp} {handle : SockFd} {data : List UInt8} {sockets after : List (Option Sock)}

theorem Queued.nil (same : streams queued after = streams queued sockets) :
    Queued queued handle [] sockets after := by
  simp [Queued, same]

theorem Queued.trans (first : Queued queued handle xs sockets middle)
    (second : Queued queued handle ys middle after) :
    Queued queued handle (xs ++ ys) sockets after := by
  rw [Queued, second, first]
  simp [Function.comp_def]

/-- The socket of the call is replaced by one with more bytes. -/
theorem Queued.set (found : slot sockets (fromSockfd handle) = some s)
    (grown : queued t = queued s ++ bytes) :
    Queued queued handle bytes sockets (sockets.set (fromSockfd handle) (some t)) := by
  have bound := lt_length_of_slot (found ▸ Option.some_ne_none s)
  funext other
  simp only [streams, slot_set bound]
  by_cases same : other = fromSockfd handle
  · simp [same, found, grown]
  · simp [Function.update_of_ne same, streams]

/-- The cursor of the next iteration counts the bytes that are enqueued; the last one leaves all of
the data enqueued when it returns `Ok`. -/
def Iteration.Advances (data : List UInt8) (cursor size : Nat) : Iteration → Prop
  | .continues next => next = cursor + size
  | .returns (.ok ()) => cursor + size = data.length
  | _ => True

theorem afterSend_advances (data : List UInt8) (waited : Except String Unit) (cursor size : Nat) :
    (afterSend data waited (cursor + size)).Advances data cursor size := by
  unfold afterSend
  split
  · assumption
  · cases waited with
    | error e => trivial
    | ok => rfl

/-- One iteration enqueues bytes from the cursor on. -/
theorem sendOnce_queues (enqueues : Enqueues tcp queued) (inside : cursor ≤ data.length)
    (r : Round queued) (done : sendOnce tcp handle data cursor r sockets = (ended, after)) :
    ∃ size, cursor + size ≤ data.length ∧
      Queued queued handle ((data.drop cursor).take size) sockets after ∧
      ended.Advances data cursor size ∧
      (ended ≠ .panics → streams queued sockets (fromSockfd handle) ≠ none) := by
  have polled : Queued queued handle [] sockets (r.poll sockets) := .nil (r.quiet sockets)
  unfold sendOnce at done
  dsimp only at done
  split at done
  · obtain ⟨rfl, rfl⟩ := Prod.mk.inj done
    exact ⟨0, inside, polled, trivial, fun returned => absurd rfl returned⟩
  · next socket found =>
    have there : streams queued sockets (fromSockfd handle) ≠ none := by
      rw [← r.quiet sockets]
      simp [streams, found]
    split at done
    · rw [if_neg (Nat.not_lt.mpr inside)] at done
      split at done
      · next e socket' sent =>
        obtain ⟨rfl, rfl⟩ := Prod.mk.inj done
        have grown : queued socket' = queued socket ++ [] := by
          rw [enqueues.error sent, List.append_nil]
        exact ⟨0, inside, polled.trans (.set found grown), trivial, fun _ => there⟩
      · next size socket' sent =>
        obtain ⟨rfl, rfl⟩ := Prod.mk.inj done
        obtain ⟨fits, grown⟩ := enqueues.ok sent
        rw [List.length_drop] at fits
        exact ⟨size, Nat.add_le_of_le_sub' inside fits, polled.trans (.set found grown),
          afterSend_advances .., fun _ => there⟩
    · obtain ⟨rfl, rfl⟩ := Prod.mk.inj done
      exact ⟨0, inside, polled, afterSend_advances data r.waited cursor 0, fun _ => there⟩

/-- The loop enqueues the data from the cursor on up to some place. -/
theorem sendLoop_queues (enqueues : Enqueues tcp queued) (rounds : List (Round queued))
    (inside : cursor ≤ data.length)
    (done : sendLoop tcp handle data cursor rounds sockets = (ended, after)) :
    ∃ size, cursor + size ≤ data.length ∧
      Queued queued handle ((data.drop cursor).take size) sockets after ∧
      ended.Advances data cursor size ∧
      (ended = .returns (.ok ()) → streams queued sockets (fromSockfd handle) ≠ none) := by
  induction rounds generalizing cursor sockets with
  | nil =>
    obtain ⟨rfl, rfl⟩ := Prod.mk.inj done
    exact ⟨0, inside, .nil rfl, rfl, by simp⟩
  | cons r rounds ih =>
    rw [sendLoop] at done
    obtain ⟨size, fits, first, advances, there⟩ :=
      sendOnce_queues enqueues inside r (Prod.eta _).symm
    split at done
    · next next middle once =>
      rw [once] at first advances there
      obtain rfl : next = cursor + size := advances
      obtain ⟨more, fits, rest, advances, _⟩ := ih fits done
      refine ⟨size + more, by omega, ?_, ?_, fun _ => there (by simp)⟩
      · rw [List.take_add, List.drop_drop]
        exact first.trans rest
      · cases ended with
        | continues last => exact advances.trans (Nat.add_assoc ..)
        | returns result =>
          cases result with
          | error e => trivial
          | ok => exact (Nat.add_assoc ..).symm.trans advances
        | panics => trivial
    · next once =>
      obtain ⟨rfl, rfl⟩ := Prod.mk.inj done
      rw [once] at first advances there
      exact ⟨size, fits, first, advances, fun returned => there (by simp [returned])⟩

/-- At every moment of a call the bytes that it has enqueued on its socket are a prefix of the data,
and they are the whole of it once the call returns `Ok`. -/
theorem smolSend_queues (enqueues : Enqueues tcp queued) (acquired : Except SmoltcpError Unit)
    (handle : SockFd) (data : List UInt8) (rounds : List (Round queued))
    (sockets : List (Option Sock)) :
    ∃ sent, sent <+: data ∧
      Queued queued handle sent sockets (smolSend tcp acquired handle data rounds sockets).2 ∧
      ((smolSend tcp acquired handle data rounds sockets).1 = .returns (.ok ()) →
        sent = data ∧ streams queued sockets (fromSockfd handle) ≠ none) := by
  cases acquired with
  | error e => exact ⟨[], List.nil_prefix, .nil rfl, by simp [smolSend]⟩
  | ok =>
    obtain ⟨size, _, enqueued, advances, there⟩ :=
      sendLoop_queues enqueues rounds (Nat.zero_le data.length)
        (Prod.eta (sendLoop tcp handle data 0 rounds sockets)).symm
    refine ⟨data.take size, List.take_prefix .., enqueued, fun returned => ⟨?_, there returned⟩⟩
    have whole : Iteration.Advances data 0 size (.returns (.ok ())) := returned ▸ advances
    exact List.take_of_length_le (by simp [Iteration.Advances] at whole; omega)

/-- fdtab's `write` reports the whole length when `send` succeeds, and no length otherwise. -/
theorem write_sends (written : Fdtab.write b ans fd data t = some done)
    (sends : done.calls = [.send handle data]) (answered : done.result = .ok size) :
    ans.send = .ok () ∧ size = data.length := by
  unfold Fdtab.write Fdtab.FdTable.withFile at written
  split at written
  · cases written
    simp at sends
  split at written
  · cases written
    simp at sends
  obtain ⟨idx, -, written⟩ := Option.map_eq_some_iff.mp written
  dsimp only at written
  split at written
  · subst written
    cases answered
  split at written
  · subst written
    simp at sends
  split at written
  · subst written
    simp at sends
  · subst written
    cases sent : ans.send with
    | error e => simp [sent, Except.map, Except.mapError] at answered
    | ok =>
      simp only [sent, Except.map, Except.mapError, Except.ok.injEq] at answered
      exact ⟨rfl, answered.symm⟩

end Calls

/-- A call enqueues a prefix of its data, and the whole of it if it returns `Ok`. A `write` of fdtab
that returns a length has enqueued all of its buffer. -/
theorem smolSend_queues_prefix {Sock : Type} (tcp : Tcp Sock) (queued : Sock → List UInt8)
    (enqueues : Enqueues tcp queued) (acquired : Except SmoltcpError Unit) (handle : SockFd)
    (data : List UInt8) (rounds : List (Round queued)) (sockets : List (Option Sock)) :
    (∃ sent, sent <+: data ∧
      Queued queued handle sent sockets (smolSend tcp acquired handle data rounds sockets).2 ∧
      ((smolSend tcp acquired handle data rounds sockets).1 = .returns (.ok ()) →
        sent = data ∧ streams queued sockets (fromSockfd handle) ≠ none)) ∧
    ∀ b ans fd t done size, Fdtab.write b ans fd data t = some done →
      done.calls = [.send handle data] →
      (smolSend tcp acquired handle data rounds sockets).1 = .returns ans.send →
        done.result = .ok size →
      size = data.length ∧ Queued queued handle data sockets
        (smolSend tcp acquired handle data rounds sockets).2 := by
  obtain ⟨sent, part, enqueued, whole⟩ :=
    smolSend_queues enqueues acquired handle data rounds sockets
  refine ⟨⟨sent, part, enqueued, whole⟩,
    fun b ans fd t done size written sends answer answered => ?_⟩
  obtain ⟨ok, length⟩ := write_sends written sends answered
  rw [ok] at answer
  obtain ⟨rfl, _⟩ := whole answer
  exact ⟨length, enqueued⟩

/-- A socket with a ring buffer for what is not acknowledged yet. -/
structure RingSocket where
  established : Bool
  capacity : Nat
  tx : List UInt8
  acknowledged : List UInt8

namespace RingSocket

def queued (s : RingSocket) : List UInt8 := s.acknowledged ++ s.tx

/-- The handshake completes, or the peer acknowledges some bytes. -/
def advance (n : Nat) (s : RingSocket) : RingSocket :=
  if s.established then { s with tx := s.tx.drop n, acknowledged := s.acknowledged ++ s.tx.take n }
  else { s with established := n != 0 }

def sendSlice (data : List UInt8) (s : RingSocket) : Except String Size × RingSocket :=
  if s.established then
    (.ok (min (s.capacity - s.tx.length) data.length),
      { s with tx := s.tx ++ data.take (s.capacity - s.tx.length) })
  else (.error "invalid state", s)

def tcp : Tcp RingSocket := ⟨established, sendSlice⟩

theorem enqueues : Enqueues tcp queued where
  ok {data s size t} sent := by
    simp only [tcp, sendSlice] at sent
    split at sent
    · obtain ⟨size, rfl⟩ := Prod.mk.inj sent
      obtain rfl := Except.ok.inj size
      exact ⟨Nat.min_le_right .., by simp [queued, List.take_eq_take_iff]⟩
    · simp at sent
  error {data s e t} sent := by
    simp only [tcp, sendSlice] at sent
    split at sent
    · simp at sent
    · rw [← (Prod.mk.inj sent).2]

theorem queued_advance (n : Nat) (s : RingSocket) : (s.advance n).queued = s.queued := by
  unfold advance
  split <;> simp [queued]

theorem streams_advance (n : Nat) (sockets : List (Option RingSocket)) :
    streams queued (sockets.map (Option.map (advance n))) = streams queued sockets := by
  funext handle
  cases found : sockets[handle]? with
  | none => simp [streams, slot, found]
  | some entry => cases entry <;> simp [streams, slot, found, queued_advance]

def round (n : Nat) : Round queued where
  poll sockets := sockets.map (Option.map (advance n))
  quiet := streams_advance n
  waited := .ok ()

end RingSocket

/-- A socket with room for two bytes takes five, after a poll in which it is not established and one
in which its buffer is full. -/
theorem smolSend_queues_five :
    ∃ sent, sent = [1, 2, 3, 4, 5] ∧ Queued RingSocket.queued 0 sent [some ⟨false, 2, [], []⟩]
    (smolSend RingSocket.tcp (.ok ()) 0 [1, 2, 3, 4, 5] ([0, 1, 0, 2, 1].map RingSocket.round)
      [some ⟨false, 2, [], []⟩]).2 := by
  obtain ⟨⟨sent, _, enqueued, whole⟩, _⟩ :=
    smolSend_queues_prefix RingSocket.tcp RingSocket.queued RingSocket.enqueues
    (.ok ()) 0 [1, 2, 3, 4, 5] ([0, 1, 0, 2, 1].map RingSocket.round) [some ⟨false, 2, [], []⟩]
  exact ⟨sent, (whole rfl).1, enqueued⟩

end AlloyStack.Socket.Send
