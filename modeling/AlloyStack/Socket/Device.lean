import Mathlib.Data.List.Basic
import Mathlib.Logic.Function.Basic
import AlloyStack.Library.LockPhases
import AlloyStack.Library.Rust
import AlloyStack.Library.Transition
import AlloyStack.Socket.Calls

/-! The tap device of the socket service. `DEVICE` is a thread local, while `IFACE` and
`TAP_RAW_FD`, which are made from it, belong to the process. -/
namespace AlloyStack.Socket.Tap
open Rust Transition LockPhases
open AlloyStack.Socket.Calls (Call Guard Move Routine)

abbrev Tid := Nat

structure NetdevName where
  name : String
  subnet : UInt8 × UInt8 × UInt8 × UInt8
  mask : UInt8
  deriving DecidableEq, Repr

/-- The arguments of a command, from the program on. -/
abbrev Command := List String

/-- How a command ends; `broken` when its input cannot be written or it cannot be waited for. -/
inductive Exit where
  | notSpawned
  | broken
  | success
  | failure (stderr stdout : String)
  deriving DecidableEq, Repr

/-- The host during one initialisation: two variables of the environment, what becomes of each
command, and the raw descriptor of the tap interface of a name, if it can be opened. -/
structure Host where
  user : Option String
  sudoPasswd : Option String
  run : Command → Exit
  tunTap : String → Option Nat

def ipv4Text (addr : UInt8 × UInt8 × UInt8 × UInt8) : String :=
  s!"{addr.1}.{addr.2.1}.{addr.2.2.1}.{addr.2.2.2}"

def genSudoCommand (args : List String) : Command := "sudo" :: "-S" :: args

/-- `none` when `USER` is not set. -/
def genTapSetup (host : Host) (netdev : NetdevName) : Option (List Command) :=
  let subnetMask := s!"{ipv4Text netdev.subnet}/{netdev.mask}"
  let ipaddr := (netdev.subnet.1, netdev.subnet.2.1, netdev.subnet.2.2.1, 100)
  let ipv4Mask := s!"{ipv4Text ipaddr}/{netdev.mask}"
  host.user.map fun user => [
    genSudoCommand ["ip", "tuntap", "add", "name", netdev.name, "mode", "tap", "user", user],
    genSudoCommand ["ip", "link", "set", netdev.name, "up"],
    genSudoCommand ["ip", "addr", "add", ipv4Mask, "dev", netdev.name],
    genSudoCommand ["iptables", "-t", "nat", "-A", "POSTROUTING", "-s", subnetMask, "-j",
      "MASQUERADE"],
    genSudoCommand ["iptables", "-A", "FORWARD", "-i", netdev.name, "-s", subnetMask, "-j",
      "ACCEPT"],
    genSudoCommand ["iptables", "-A", "FORWARD", "-o", netdev.name, "-d", subnetMask, "-j",
      "ACCEPT"]]

/-- `{:?}` of a command. -/
def Command.debug (command : Command) : String := " ".intercalate (command.map String.quote)

/-- The loop of `exec_sudo_commands`, with the commands that it ran. -/
def runCommands (host : Host) : List Command → Outcome Unit × List Command
  | [] => (.ok (), [])
  | command :: rest =>
    match host.run command with
    | .notSpawned => (.panic, [])
    | .broken => (.panic, [command])
    | .failure stderr stdout =>
      (.err (s!"exec command failed, command: {Command.debug command}, stderr: {stderr}, " ++
        s!"stdout: {stdout}"), [command])
    | .success =>
      let (outcome, ran) := runCommands host rest
      (outcome, command :: ran)

def execSudoCommands (host : Host) (commands : List Command) : Outcome Unit × List Command :=
  match host.sudoPasswd with
  | none => (.panic, [])
  | some _ => runCommands host commands

def execTapSetup (host : Host) (netdev : NetdevName) : Outcome Unit × List Command :=
  match genTapSetup host netdev with
  | none => (.panic, [])
  | some commands => execSudoCommands host commands

/-- A tap interface that is open, named by its raw descriptor. -/
structure Device where
  owner : Tid
  rawFd : Nat
  deriving DecidableEq, Repr

/-- A `lazy_static`; one whose initialiser has panicked panics at every later use. -/
inductive Lazy (α : Type) where
  | unset
  | ready (value : α)
  | broken
  deriving DecidableEq, Repr

inductive Cause where
  | initialiser
  | other
  deriving DecidableEq, Repr

/-- The statics of the service and the calls of its threads. `executed` are the commands that were
run so far, `polls` the devices that the interface was polled through, and `panicked` tells whether
an initialiser has panicked. The interface keeps no reference to the device that it was made
with. -/
structure Statics where
  isolId : Nat
  logger : Bool := false
  netdevName : Option NetdevName := none
  netdevPoisoned : Bool := false
  devices : Tid → Option Device := fun _ => none
  tapRawFd : Lazy Nat := .unset
  iface : Lazy Unit := .unset
  ifacePoisoned : Option Cause := none
  socketsPoisoned : Option Cause := none
  threads : Tid → Option Call := fun _ => none
  executed : List Command := []
  polls : List Device := []
  panicked : Bool := false

namespace Statics

/-- The name that the initialiser of `DEVICE` takes. -/
def netdev (s : Statics) : NetdevName :=
  s.netdevName.getD ⟨s!"tap-{s.isolId}", (192, 168, 69, 0), 24⟩

/-- The initialiser of `DEVICE` in a thread. It panics with the guard of `NETDEV_NAME` alive, except
when the logger is set already. -/
def initDevice (s : Statics) (host : Host) (i : Tid) : Option Device × Statics :=
  if s.logger then (none, { s with panicked := true })
  else if s.netdevPoisoned then (none, { s with logger := true, panicked := true })
  else
    let netdev := s.netdev
    let setup := execTapSetup host netdev
    let s := { s with logger := true, netdevName := some netdev, executed := s.executed ++ setup.2 }
    match setup.1, host.tunTap netdev.name with
    | .ok (), some rawFd =>
      (some ⟨i, rawFd⟩, { s with devices := Function.update s.devices i (some ⟨i, rawFd⟩) })
    | _, _ => (none, { s with netdevPoisoned := true, panicked := true })

/-- `DEVICE.with`. -/
def withDevice (s : Statics) (host : Host) (i : Tid) : Option Device × Statics :=
  match s.devices i with
  | some device => (some device, s)
  | none => s.initDevice host i

/-- The first use of `IFACE`. -/
def forceIface (s : Statics) (host : Host) (i : Tid) : Option Unit × Statics :=
  match s.iface with
  | .ready () => (some (), s)
  | .broken => (none, s)
  | .unset =>
    match s.withDevice host i with
    | (some _, s) => (some (), { s with iface := .ready () })
    | (none, s) => (none, { s with iface := .broken })

def forceTapRawFd (s : Statics) (host : Host) (i : Tid) : Option Nat × Statics :=
  match s.tapRawFd with
  | .ready rawFd => (some rawFd, s)
  | .broken => (none, s)
  | .unset =>
    match s.withDevice host i with
    | (some device, s) => (some device.rawFd, { s with tapRawFd := .ready device.rawFd })
    | (none, s) => (none, { s with tapRawFd := .broken })

def place (s : Statics) (i : Tid) (call : Option Call) : Statics :=
  { s with threads := Function.update s.threads i call }

/-- A panic in a call: the mutexes whose guards it holds are poisoned, if they are not yet. -/
def unwind (s : Statics) (i : Tid) (call : Call) (cause : Cause) : Statics :=
  { s.place i none with
    ifacePoisoned := s.ifacePoisoned.or (if call.holds .iface then some cause else none)
    socketsPoisoned := s.socketsPoisoned.or (if call.holds .sockets then some cause else none) }

def holds (call : Option Call) (g : Guard) : Bool := (call.map (·.holds g)).getD false

def poisoned (s : Statics) : Guard → Option Cause
  | .iface => s.ifacePoisoned
  | .sockets => s.socketsPoisoned

/-- The lock of a mutex whose static is initialised. -/
def lock (s : Statics) (i : Tid) (g : Guard) (after : Option Call) : Statics :=
  match s.poisoned g with
  | some _ => s.place i none
  | none => s.place i after

/-- What a move does to the statics. `acquire_iface` makes `IFACE` first, `iface_poll` uses `DEVICE`
and `try_phy_wait` uses `TAP_RAW_FD`. -/
def advance (s : Statics) (i : Tid) (call : Call) (move : Move) (host : Host)
    (after : Option Call) : Statics :=
  match move, call.point with
  | .acquire, .iface =>
    match s.forceIface host i with
    | (some (), s) => s.lock i .iface after
    | (none, s) => s.unwind i call .initialiser
  | .acquire, _ => s.lock i .sockets after
  | .poll, _ =>
    match s.withDevice host i with
    | (some device, s) => { s.place i after with polls := s.polls ++ [device] }
    | (none, s) => s.unwind i call .initialiser
  | .wait, _ =>
    match s.forceTapRawFd host i with
    | (some _, s) => s.place i after
    | (none, s) => s.unwind i call .initialiser
  | _, _ => s.place i after

end Statics

/-- A thread calls a function, goes on in it, returns with an error of it, or panics in it for a
reason of its own. -/
inductive Label where
  | call (i : Tid) (routine : Routine)
  | move (i : Tid) (move : Move) (host : Host)
  | fail (i : Tid)
  | crash (i : Tid)

inductive Step : Statics → Label → Statics → Prop where
  | call (s : Statics) (i : Tid) (routine : Routine) : s.threads i = none →
    Step s (.call i routine) (s.place i (some routine.start))
  | move (s : Statics) (i : Tid) (call : Call) (move : Move) (host : Host) (after : Option Call) :
    s.threads i = some call → call.next move = some after →
    (∀ g, move = .acquire → call.wants = some g → Unheld Statics.holds s.threads g) →
    Step s (.move i move host) (s.advance i call move host after)
  | fail (s : Statics) (i : Tid) (call : Call) : s.threads i = some call →
    Step s (.fail i) (s.place i none)
  | crash (s : Statics) (i : Tid) (call : Call) : s.threads i = some call →
    Step s (.crash i) (s.unwind i call .other)

/-- No initialiser has panicked, the setup commands were run once if the service is used at all, and
all polls went through one device. -/
structure Statics.Sound (s : Statics) : Prop where
  calm : s.panicked = false
  clean : ∀ g, s.poisoned g ≠ some .initialiser
  unused : s.iface = .unset → s.executed = []
  once : s.iface ≠ .unset → ∃ host netdev, s.netdevName = some netdev ∧
    genTapSetup host netdev = some s.executed
  one : ∀ device ∈ s.polls, ∀ other ∈ s.polls, device = other

/-- The steps that use `DEVICE`. -/
def Statics.Touches (s : Statics) (call : Call) (move : Move) : Prop :=
  move = .acquire ∧ call.point = .iface ∧ s.iface = .unset ∨ move = .poll ∨ move = .wait ∧
    s.tapRawFd = .unset

/-- The host runs the setup commands and opens the interface. -/
def Host.Prepares (host : Host) (netdev : NetdevName) : Prop :=
  host.sudoPasswd ≠ none ∧ host.tunTap netdev.name ≠ none ∧
    ∃ commands, genTapSetup host netdev = some commands ∧
      ∀ command ∈ commands, host.run command = .success

/-- The device is used by one thread only, and the host is prepared when it is first used. -/
def OneThread (s : Statics) (e : Label) (_ : Statics) : Prop :=
  ∀ i move host call, e = .move i move host → s.threads i = some call → s.Touches call move →
    (∀ j, s.devices j ≠ none → j = i) ∧ (s.devices i = none → host.Prepares s.netdev)

section Setup
variable {host : Host} {netdev : NetdevName}

theorem runCommands_ok (good : ∀ command ∈ commands, host.run command = .success) :
    runCommands host commands = (.ok (), commands) := by
  induction commands with
  | nil => rfl
  | cons command rest ih =>
    have first := good command List.mem_cons_self
    have later := ih fun other member => good other (List.mem_cons_of_mem _ member)
    simp only [runCommands, first, later]

theorem runCommands_good (done : (runCommands host commands).1 = .ok ()) :
    ∀ command ∈ commands, host.run command = .success := by
  induction commands with
  | nil => simp
  | cons command rest ih =>
    unfold runCommands at done
    split at done
    · cases done
    · cases done
    · cases done
    · rename_i first
      intro other member
      rcases List.mem_cons.mp member with rfl | member
      · exact first
      · exact ih done other member

theorem execTapSetup_ok (prepared : host.Prepares netdev) :
    ∃ commands, genTapSetup host netdev = some commands ∧
      execTapSetup host netdev = (.ok (), commands) := by
  obtain ⟨passwd, _, commands, generated, good⟩ := prepared
  obtain ⟨text, set⟩ := Option.ne_none_iff_exists'.mp passwd
  refine ⟨commands, generated, ?_⟩
  simp only [execTapSetup, generated, execSudoCommands, set]
  exact runCommands_ok good

theorem prepares_iff : host.Prepares netdev ↔
    (execTapSetup host netdev).1 = .ok () ∧ ∃ rawFd, host.tunTap netdev.name = some rawFd := by
  constructor
  · intro prepared
    obtain ⟨commands, _, done⟩ := execTapSetup_ok prepared
    exact ⟨congrArg Prod.fst done, Option.ne_none_iff_exists'.mp prepared.2.1⟩
  · rintro ⟨done, rawFd, opened⟩
    unfold execTapSetup at done
    split at done
    · cases done
    · rename_i commands generated
      unfold execSudoCommands at done
      split at done
      · cases done
      · rename_i set
        exact ⟨by simp [set], by simp [opened], commands, generated, runCommands_good done⟩

end Setup

namespace Statics
variable {s : Statics} {host : Host} {i : Tid}

/-- No thread has come past `acquire_iface`. -/
structure Unused (s : Statics) : Prop where
  calm : s.panicked = false
  clean : ∀ g, s.poisoned g ≠ some .initialiser
  logger : s.logger = false
  netdev : s.netdevPoisoned = false
  devices : ∀ j, s.devices j = none
  iface : s.iface = .unset
  tapRawFd : s.tapRawFd = .unset
  executed : s.executed = []
  polls : s.polls = []
  outside : ∀ j call, s.threads j = some call → call.point = .iface

/-- One thread has a device, and everything was made from it. -/
structure Owned (s : Statics) (owner : Tid) (device : Device) : Prop where
  calm : s.panicked = false
  clean : ∀ g, s.poisoned g ≠ some .initialiser
  logger : s.logger = true
  mine : s.devices owner = some device
  others : ∀ j, s.devices j ≠ none → j = owner
  iface : s.iface = .ready ()
  tapRawFd : s.tapRawFd ≠ .broken
  once : ∃ host netdev, s.netdevName = some netdev ∧ genTapSetup host netdev = some s.executed
  polls : ∀ other ∈ s.polls, other = device

def Inv (s : Statics) : Prop := s.Unused ∨ ∃ owner device, s.Owned owner device

theorem Inv.sound (holds : s.Inv) : s.Sound := by
  rcases holds with unused | ⟨owner, device, owned⟩
  · refine ⟨unused.calm, unused.clean, fun _ => unused.executed,
      fun used => absurd unused.iface used, ?_⟩
    simp [unused.polls]
  · refine ⟨owned.calm, owned.clean, fun unset => ?_, fun _ => owned.once,
      fun first member other mother => ?_⟩
    · rw [owned.iface] at unset
      cases unset
    · rw [owned.polls first member, owned.polls other mother]

theorem initDevice_prepared (fresh : s.logger = false) (sane : s.netdevPoisoned = false)
    (prepared : host.Prepares s.netdev) :
    ∃ rawFd commands, genTapSetup host s.netdev = some commands ∧
      s.initDevice host i = (some ⟨i, rawFd⟩,
      { s with
        logger := true
        netdevName := some s.netdev
        executed := s.executed ++ commands
        devices := Function.update s.devices i (some ⟨i, rawFd⟩) }) := by
  obtain ⟨commands, generated, done⟩ := execTapSetup_ok prepared
  obtain ⟨_, rawFd, opened⟩ := prepares_iff.mp prepared
  refine ⟨rawFd, commands, generated, ?_⟩
  simp [initDevice, fresh, sane, done, opened]

theorem initDevice_unprepared (prepared : ¬ host.Prepares s.netdev) :
    (s.initDevice host i).1 = none ∧ (s.initDevice host i).2.panicked = true := by
  unfold initDevice
  split
  · exact ⟨rfl, rfl⟩
  · split
    · exact ⟨rfl, rfl⟩
    · dsimp only
      split
      · rename_i rawFd done opened
        exact absurd (prepares_iff.mpr ⟨done, rawFd, opened⟩) prepared
      · exact ⟨rfl, rfl⟩

theorem initDevice_again (set : s.logger = true) :
    s.initDevice host i = (none, { s with panicked := true }) := by
  simp [initDevice, set]

theorem place_poisoned (call : Option Call) (g : Guard) :
    (s.place i call).poisoned g = s.poisoned g := by
  cases g <;> rfl

/-- A panic with another cause poisons nothing as the initialiser. -/
theorem unwind_clean (clean : ∀ g, s.poisoned g ≠ some .initialiser) (call : Call) (g : Guard) :
    (s.unwind i call .other).poisoned g ≠ some .initialiser := by
  have before := clean g
  cases g with
  | iface =>
    simp only [poisoned, unwind, ne_eq, Option.or_eq_some_iff] at before ⊢
    split <;> simp_all
  | sockets =>
    simp only [poisoned, unwind, ne_eq, Option.or_eq_some_iff] at before ⊢
    split <;> simp_all

section Places

/-- Changes of a state that move one thread and touch nothing that the initialisers made. -/
structure Moved (s t : Statics) (i : Tid) (after : Option Call) : Prop where
  clean : (∀ g, s.poisoned g ≠ some .initialiser) → ∀ g, t.poisoned g ≠ some .initialiser
  same : ∃ ifacePoisoned socketsPoisoned,
    t = { s with threads := Function.update s.threads i after, ifacePoisoned, socketsPoisoned }

theorem place_moved (s : Statics) (i : Tid) (after : Option Call) :
    Moved s (s.place i after) i after := by
  refine ⟨fun clean g => ?_, _, _, rfl⟩
  rw [place_poisoned]
  exact clean g

theorem lock_moved (s : Statics) (i : Tid) (g : Guard) (after : Option Call) :
    ∃ reached, Moved s (s.lock i g after) i reached := by
  unfold lock
  split
  · exact ⟨none, place_moved s i none⟩
  · exact ⟨after, place_moved s i after⟩

theorem crash_moved (s : Statics) (i : Tid) (call : Call) :
    Moved s (s.unwind i call .other) i none :=
  ⟨fun clean => unwind_clean clean call, _, _, rfl⟩

theorem Unused.moved (unused : s.Unused) (moved : Moved s t i after)
    (outside : ∀ call, after = some call → call.point = .iface) : t.Unused := by
  have clean := moved.clean unused.clean
  obtain ⟨_, _, rfl⟩ := moved.same
  refine { unused with clean, outside := ?_ }
  intro j call found
  dsimp only at found
  by_cases same : j = i
  · subst same
    rw [Function.update_self] at found
    exact outside call found
  · rw [Function.update_of_ne same] at found
    exact unused.outside j call found

theorem Owned.moved (owned : s.Owned owner device) (moved : Moved s t i after) :
    t.Owned owner device := by
  have clean := moved.clean owned.clean
  obtain ⟨_, _, rfl⟩ := moved.same
  exact { owned with clean }

end Places

section Steps
variable {call : Call} {move : Move} {after : Option Call}

theorem Owned.withDevice (owned : s.Owned owner device) (host : Host) :
    s.withDevice host owner = (some device, s) := by
  rw [Statics.withDevice, owned.mine]

/-- The initialiser in a second thread panics. -/
theorem Owned.withDevice_other (owned : s.Owned owner device) (other : i ≠ owner) (host : Host) :
    s.withDevice host i = (none, { s with panicked := true }) := by
  have none : s.devices i = none := by
    by_contra found
    exact other (owned.others i found)
  rw [Statics.withDevice, none]
  exact initDevice_again owned.logger

theorem Unused.withDevice (unused : s.Unused) (host : Host) (i : Tid) :
    s.withDevice host i = s.initDevice host i := by
  rw [Statics.withDevice, unused.devices i]

/-- The first use makes the device and the interface. -/
theorem Unused.force (unused : s.Unused) (prepared : host.Prepares s.netdev) :
    ∃ device t, s.forceIface host i = (some (), t) ∧ t.Owned i device := by
  obtain ⟨rawFd, commands, generated, made⟩ :=
    initDevice_prepared (i := i) unused.logger unused.netdev prepared
  have forced : s.forceIface host i =
      (some (), { (s.initDevice host i).2 with iface := .ready () }) := by
    rw [forceIface, unused.iface]
    dsimp only
    rw [unused.withDevice, made]
  rw [made] at forced
  dsimp only at forced
  refine ⟨⟨i, rawFd⟩, _, forced, ?_⟩
  exact {
    calm := unused.calm
    clean := by
      intro g
      have before := unused.clean g
      cases g <;> exact before
    logger := rfl
    mine := Function.update_self ..
    others := by
      intro j found
      by_contra other
      dsimp only at found
      rw [Function.update_of_ne other] at found
      exact found (unused.devices j)
    iface := rfl
    tapRawFd := by simp [unused.tapRawFd]
    once := ⟨host, s.netdev, rfl, by simp [unused.executed, generated]⟩
    polls := by simp [unused.polls] }

theorem Unused.unprepared (unused : s.Unused) (prepared : ¬ host.Prepares s.netdev) :
    (s.forceIface host i).1 = none ∧ (s.forceIface host i).2.panicked = true := by
  obtain ⟨failed, panicked⟩ := initDevice_unprepared (i := i) prepared
  rw [forceIface, unused.iface]
  dsimp only
  rw [unused.withDevice]
  generalize s.initDevice host i = result at failed panicked ⊢
  obtain ⟨device, t⟩ := result
  cases failed
  exact ⟨rfl, panicked⟩

/-- In a state where nothing is used yet the only move is the first `acquire_iface`. -/
theorem Unused.acquires (unused : s.Unused) (found : s.threads i = some call)
    (next : call.next move = some after) :
    call.point = .iface ∧ move = .acquire := by
  have point := unused.outside i call found
  obtain ⟨routine, place⟩ := call
  cases point
  cases move <;> simp [Call.next] at next ⊢

theorem Owned.advance {owner : Tid} {device : Device} (owned : s.Owned owner device)
    (alone : s.Touches call move → ∀ j, s.devices j ≠ none → j = i) :
    (s.advance i call move host after).Owned owner device := by
  have mine (touched : s.Touches call move) : owner = i :=
    alone touched owner (by simp [owned.mine])
  unfold Statics.advance
  split
  · rw [forceIface, owned.iface]
    obtain ⟨_, moved⟩ := lock_moved s i .iface after
    exact owned.moved moved
  · obtain ⟨_, moved⟩ := lock_moved s i .sockets after
    exact owned.moved moved
  · -- a poll goes through the device of its own thread
    cases mine (.inr (.inl rfl))
    rw [owned.withDevice]
    have placed := owned.moved (place_moved s i after)
    refine { placed with polls := ?_ }
    intro other member
    rcases List.mem_append.mp member with before | last
    · exact owned.polls other before
    · simpa using last
  · unfold forceTapRawFd
    cases raw : s.tapRawFd with
    | ready rawFd => exact owned.moved (place_moved s i after)
    | broken => exact absurd raw owned.tapRawFd
    | unset =>
      cases mine (.inr (.inr ⟨rfl, raw⟩))
      dsimp only
      rw [owned.withDevice]
      have placed := owned.moved (place_moved s i after)
      exact { placed with tapRawFd := by simp [place] }
  · exact owned.moved (place_moved s i after)

theorem Unused.advance (unused : s.Unused) (found : s.threads i = some call)
    (next : call.next move = some after) (prepared : s.Touches call move → host.Prepares s.netdev) :
    ∃ device, (s.advance i call move host after).Owned i device := by
  obtain ⟨point, rfl⟩ := unused.acquires found next
  obtain ⟨device, made, forced, owned⟩ :=
    unused.force (i := i) (prepared (.inl ⟨rfl, point, unused.iface⟩))
  obtain ⟨_, moved⟩ := lock_moved made i .iface after
  refine ⟨device, ?_⟩
  simp only [Statics.advance, point, forced]
  exact owned.moved moved

theorem Inv.step (holds : s.Inv) (step : Step s e t) (guarded : OneThread s e t) : t.Inv := by
  have moved {i : Tid} {t : Statics} {after : Option Call} (moved : Moved s t i after)
      (outside : ∀ call, after = some call → call.point = .iface) : t.Inv := by
    rcases holds with unused | ⟨owner, device, owned⟩
    · exact .inl (unused.moved moved outside)
    · exact .inr ⟨owner, device, owned.moved moved⟩
  cases step with
  | call i routine idle =>
    refine moved (place_moved s i _) fun call same => ?_
    cases same
    rfl
  | fail i call found => exact moved (place_moved s i none) (by simp)
  | crash i call found => exact moved (crash_moved s i call) (by simp)
  | move i call move host after found next free =>
    have guard := guarded i move host call rfl found
    rcases holds with unused | ⟨owner, device, owned⟩
    · obtain ⟨device, owned⟩ :=
        unused.advance found next fun touched => (guard touched).2 (unused.devices i)
      exact .inr ⟨i, device, owned⟩
    · exact .inr ⟨owner, device, owned.advance fun touched => (guard touched).1⟩

/-- A use of the device by a second thread, or on a host that does not set it up, makes the
initialiser panic. -/
theorem Owned.alone {owner : Tid} {device : Device} (owned : s.Owned owner device)
    (sound : (s.advance i call move host after).Sound) (touched : s.Touches call move) :
    i = owner := by
  -- the logger is set, so the initialiser of another thread panics before it runs a command
  by_contra other
  have failed := owned.withDevice_other other host
  have calm := sound.calm
  rcases touched with ⟨_, _, unset⟩ | rfl | ⟨rfl, unset⟩
  · rw [owned.iface] at unset
    cases unset
  · simp [Statics.advance, failed, unwind, place] at calm
  · simp [Statics.advance, forceTapRawFd, unset, failed, unwind, place] at calm

theorem Unused.prepared (unused : s.Unused) (found : s.threads i = some call)
    (next : call.next move = some after) (sound : (s.advance i call move host after).Sound) :
    host.Prepares s.netdev := by
  obtain ⟨point, rfl⟩ := unused.acquires found next
  by_contra unprepared
  obtain ⟨failed, panicked⟩ := unused.unprepared (i := i) unprepared
  have calm := sound.calm
  simp only [Statics.advance, point] at calm
  generalize s.forceIface host i = forced at failed panicked calm
  obtain ⟨value, made⟩ := forced
  cases failed
  rw [← Bool.not_eq_true] at calm
  exact calm panicked

theorem Inv.guarded (holds : s.Inv) (step : Step s e t) (sound : t.Sound) : OneThread s e t := by
  rintro i move host call rfl found touched
  cases step with
  | move _ other _ _ after known next free =>
    rw [found] at known
    cases known
    rcases holds with unused | ⟨owner, device, owned⟩
    · exact ⟨fun j has => absurd (unused.devices j) has, fun _ => unused.prepared found next sound⟩
    · cases owned.alone sound touched
      refine ⟨owned.others, fun none => ?_⟩
      rw [owned.mine] at none
      cases none

end Steps

end Statics

/-- The service before its first use. -/
def Statics.initial (isolId : Nat) : Statics := { isolId }

theorem Statics.initial_inv (isolId : Nat) : (initial isolId).Inv :=
  .inl ⟨rfl, fun g => by cases g <;> simp [poisoned, initial], rfl, rfl, fun _ => rfl, rfl, rfl,
    rfl, rfl, by simp [initial]⟩

/-- The device is set up once, without a panic, and all polls go through it in every state of a run
exactly when one thread makes all uses of the device and the host is prepared at the first. -/
theorem device_sound_iff (isolId : Nat) (es : List Label) (t : Statics) :
    Run (Where Step fun _ _ after => after.Sound) (.initial isolId) es t ↔
      Run (Where Step OneThread) (.initial isolId) es t := by
  refine Run.where_iff (P := Statics.Inv) (fun holds step guard => holds.step step guard) ?_
    (Statics.initial_inv isolId)
  intro s e t holds step
  constructor
  · exact holds.guarded step
  · exact fun guard => (holds.step step guard).sound

/-- A host on which every command succeeds. -/
def workingHost : Host := ⟨some "user", some "passwd", fun _ => .success, fun _ => some 7⟩

/-- With two threads, the guard that a call wants is free when neither of them holds it. -/
theorem wanted_unheld {s : Statics} {g wanted : Guard} {call : Call}
    (zero : Statics.holds (s.threads 0) g = false) (one : Statics.holds (s.threads 1) g = false)
    (rest : ∀ j, s.threads (j + 2) = none) (wants : call.wants = some g)
    (same : call.wants = some wanted) : Unheld Statics.holds s.threads wanted := by
  rw [wants] at same
  cases same
  intro j
  cases j with
  | zero => exact zero
  | succ j =>
    cases j with
    | zero => exact one
    | succ j =>
      rw [rest j]
      rfl

/-- Two threads bind a listener each, one after the other. -/
def twoBinds : List Label :=
  [.call 0 .smolBind, .move 0 .acquire workingHost, .move 0 .acquire workingHost,
    .move 0 .poll workingHost,
    .move 0 .finish workingHost, .call 1 .smolBind, .move 1 .acquire workingHost,
      .move 1 .acquire workingHost,
    .move 1 .poll workingHost]

theorem twoBinds_panics : ∃ t, Run Step (.initial 1) twoBinds t ∧ t.panicked = true :=
  ⟨_, .cons (.call _ 0 .smolBind rfl) <|
      .cons (.move _ 0 ⟨.smolBind, .iface⟩ .acquire workingHost (some ⟨.smolBind, .sockets⟩) rfl rfl
        (fun _ _ => wanted_unheld (g := .iface) rfl rfl (fun _ => rfl) rfl)) <|
      .cons (.move _ 0 ⟨.smolBind, .sockets⟩ .acquire workingHost
        (some ⟨.smolBind, .locked⟩) rfl rfl
        (fun _ _ => wanted_unheld (g := .sockets) rfl rfl (fun _ => rfl) rfl)) <|
      .cons (.move _ 0 ⟨.smolBind, .locked⟩ .poll workingHost (some ⟨.smolBind, .polled⟩) rfl rfl
        (by simp)) <|
      .cons (.move _ 0 ⟨.smolBind, .polled⟩ .finish workingHost none rfl rfl (by simp)) <|
      .cons (.call _ 1 .smolBind rfl) <|
      .cons (.move _ 1 ⟨.smolBind, .iface⟩ .acquire workingHost (some ⟨.smolBind, .sockets⟩) rfl rfl
        (fun _ _ => wanted_unheld (g := .iface) rfl rfl (fun _ => rfl) rfl)) <|
      .cons (.move _ 1 ⟨.smolBind, .sockets⟩ .acquire workingHost
        (some ⟨.smolBind, .locked⟩) rfl rfl
        (fun _ _ => wanted_unheld (g := .sockets) rfl rfl (fun _ => rfl) rfl)) <|
      .cons (.move _ 1 ⟨.smolBind, .locked⟩ .poll workingHost (some ⟨.smolBind, .polled⟩) rfl rfl
        (by simp)) (.nil _), rfl⟩

theorem second_thread_panics : ¬ ∀ t, Run Step (.initial 1) twoBinds t → t.Sound := by
  intro always
  obtain ⟨t, run, panicked⟩ := twoBinds_panics
  have calm := (always t run).calm
  rw [panicked] at calm
  cases calm

end AlloyStack.Socket.Tap
