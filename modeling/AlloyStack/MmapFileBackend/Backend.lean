import Mathlib.Logic.Function.Basic
import AlloyStack.Fdtab.Apis
import AlloyStack.Library.Transition

/-! The mmap_file_backend service: threads that register and unregister regions, and the fault
handler threads. `REGISTER` serialises the callers, `REGISTERD_REGIONS` is held by the handler
while it waits in `epoll`, and `NOTIFY_PIPE` holds the pipe that asks it to let go. A step is one
operation on one of the three locks; a lock may go to any thread that waits for it. -/
namespace AlloyStack.MmapFileBackend
open Transition
open AlloyStack.Fdtab (Fd)

abbrev Tid := Nat

/-- `RegisterdMemRegion` without its userfaultfd. -/
structure Region where
  startAddr : Nat
  srcFd : Fd
  deriving DecidableEq, Repr

/-- A call of `register_file_backend` or `unregister_file_backend`. -/
inductive Job where
  | register (region : Region)
  | unregister (addr : Nat)
  deriving DecidableEq, Repr

/-- Where a caller is. `trying` to `waiting` are `acquire_regions_or_notify`: the `try_lock`, the
notification after it has failed, and the blocking `acquire_regions`. -/
inductive Caller where
  | idle
  | entering (job : Job)
  | locked (job : Job)
  | trying (job : Job)
  | refused (job : Job)
  | waiting (job : Job)
  | inside (job : Job)
  | testing
  | creating
  | spawning
  deriving DecidableEq, Repr

/-- Where a thread that runs `file_page_fault_handler` is. `exiting` has left the loop and has not
cleared `NOTIFY_PIPE` yet. -/
inductive Handler where
  | absent
  | starting
  | looping
  | polling
  | consuming
  | exiting
  | gone
  | crashed
  deriving DecidableEq, Repr

inductive Owner where
  | caller (i : Tid)
  | handler (h : Tid)
  deriving DecidableEq, Repr

/-- `pipe` counts the unread bytes of the pipe in `NOTIFY_PIPE`. -/
structure Backend where
  register : Option Tid := none
  registerPoisoned : Bool := false
  owner : Option Owner := none
  poisoned : Bool := false
  regions : List Region := []
  pipe : Option Nat := none
  callers : Tid → Caller := fun _ => .idle
  handlers : Tid → Handler := fun _ => .absent

def Backend.caller (s : Backend) (i : Tid) (phase : Caller) : Backend :=
  { s with callers := Function.update s.callers i phase }

def Backend.handler (s : Backend) (h : Tid) (phase : Handler) : Backend :=
  { s with handlers := Function.update s.handlers h phase }

/-- The end of a call: the guards that it holds are dropped. -/
def Backend.ret (s : Backend) (i : Tid) : Backend :=
  { s with
    register := if s.register = some i then none else s.register
    owner := if s.owner = some (.caller i) then none else s.owner
    callers := Function.update s.callers i .idle }

def PIPE_CAPACITY : Nat := 65536

/-- `NotifyPipe::notify`: the sender does not block, so a byte is lost if the pipe is full. -/
def notify (unread : Nat) : Nat := if unread < PIPE_CAPACITY then unread + 1 else unread

/-- `unregister_file_backend` removes the first region with the address. -/
def removeRegion (regions : List Region) (addr : Nat) : List Region :=
  regions.eraseP fun region => region.startAddr == addr

/-- The callers that hold a read guard of `NOTIFY_PIPE` between their steps. -/
def Caller.guardsPipe : Caller → Bool
  | .trying (.unregister _) | .refused (.unregister _) | .inside (.unregister _) | .waiting _ =>
    true
  | _ => false

inductive Event where
  | call (i : Tid) (job : Job)
  | acquireRegister (i : Tid)
  | userfault (i : Tid) (created : Bool)
  | notifyFirst (i : Tid)
  | tryLock (i : Tid)
  | notify (i : Tid)
  | acquireRegions (i : Tid)
  | push (i : Tid)
  | remove (i : Tid)
  | test (i : Tid)
  | create (i : Tid) (made : Bool)
  | spawn (i h : Tid)
  | spawnFailed (i : Tid) (panics : Bool)
  | start (h : Tid)
  | lock (h : Tid)
  | served (h : Tid)
  | notified (h : Tid)
  | panics (h : Tid)
  | consume (h : Tid)
  | clear (h : Tid)
  deriving DecidableEq, Repr

inductive BackendStep : Backend → Event → Backend → Prop where
  | call : s.callers i = .idle → BackendStep s (.call i job) (s.caller i (.entering job))
  | acquireRegister : s.callers i = .entering job → s.register = none → s.registerPoisoned = false →
      BackendStep s (.acquireRegister i) ({ s with register := some i }.caller i (.locked job))
  -- `register_file_backend` does not look at the result of `acquire_register`.
  | registerPoisoned : s.callers i = .entering (.register region) → s.register = none →
      s.registerPoisoned = true →
      BackendStep s (.acquireRegister i) (s.caller i (.locked (.register region)))
  | unregisterPoisoned : s.callers i = .entering (.unregister addr) → s.register = none →
      s.registerPoisoned = true → BackendStep s (.acquireRegister i) (s.ret i)
  | userfault : s.callers i = .locked (.register region) →
      BackendStep s (.userfault i true) (s.caller i (.trying (.register region)))
  | userfaultFailed : s.callers i = .locked (.register region) →
      BackendStep s (.userfault i false) (s.ret i)
  | notifyFirst : s.callers i = .locked (.unregister addr) → s.pipe = some unread →
      BackendStep s (.notifyFirst i)
        ({ s with pipe := some (notify unread) }.caller i (.trying (.unregister addr)))
  | notifyFirstFailed : s.callers i = .locked (.unregister addr) → s.pipe = none →
      BackendStep s (.notifyFirst i) (s.ret i)
  | tryLock : s.callers i = .trying job → s.owner = none → s.poisoned = false →
      BackendStep s (.tryLock i) ({ s with owner := some (.caller i) }.caller i (.inside job))
  | tryLockBusy : s.callers i = .trying job → s.owner ≠ none →
      BackendStep s (.tryLock i) (s.caller i (.refused job))
  -- The error of `try_lock` has the guard, and lives to the end of `acquire_regions_or_notify`:
  -- the caller then waits for a lock of its own.
  | tryLockPoisoned : s.callers i = .trying job → s.owner = none → s.poisoned = true →
      BackendStep s (.tryLock i) ({ s with owner := some (.caller i) }.caller i (.refused job))
  | notify : s.callers i = .refused job → s.pipe = some unread →
      BackendStep s (.notify i) ({ s with pipe := some (notify unread) }.caller i (.waiting job))
  | notifyFailed : s.callers i = .refused job → s.pipe = none → BackendStep s (.notify i) (s.ret i)
  | acquireRegions : s.callers i = .waiting job → s.owner = none → s.poisoned = false →
      BackendStep s (.acquireRegions i)
        ({ s with owner := some (.caller i) }.caller i (.inside job))
  | acquireRegionsPoisoned : s.callers i = .waiting job → s.owner = none → s.poisoned = true →
      BackendStep s (.acquireRegions i) (s.ret i)
  | push : s.callers i = .inside (.register region) →
      BackendStep s (.push i) ({ s with regions := s.regions ++ [region] }.caller i .testing)
  | remove : s.callers i = .inside (.unregister addr) →
      BackendStep s (.remove i) ({ s with regions := removeRegion s.regions addr }.ret i)
  | testSome : s.callers i = .testing → s.pipe ≠ none → BackendStep s (.test i) (s.ret i)
  | testNone : s.callers i = .testing → s.pipe = none →
      BackendStep s (.test i) (s.caller i .creating)
  | create : s.callers i = .creating → s.pipe = none → (∀ j, (s.callers j).guardsPipe = false) →
      BackendStep s (.create i true) ({ s with pipe := some 0 }.caller i .spawning)
  -- `NotifyPipe::create` fails, or the pipe is there already.
  | createFailed : s.callers i = .creating → (∀ j, (s.callers j).guardsPipe = false) →
      BackendStep s (.create i false) (s.ret i)
  | spawn : s.callers i = .spawning → s.handlers h = .absent →
      BackendStep s (.spawn i h) ((s.ret i).handler h .starting)
  | spawnFailed : s.callers i = .spawning → BackendStep s (.spawnFailed i false) (s.ret i)
  | spawnPanics : s.callers i = .spawning → BackendStep s (.spawnFailed i true)
      { s.ret i with
        registerPoisoned := s.registerPoisoned || s.register == some i, poisoned := true }
  | start : s.handlers h = .starting → s.pipe ≠ none →
      BackendStep s (.start h) (s.handler h .looping)
  | startPanics : s.handlers h = .starting → s.pipe = none →
      BackendStep s (.start h) (s.handler h .crashed)
  | lockEmpty : s.handlers h = .looping → s.owner = none → s.poisoned = false → s.regions = [] →
      BackendStep s (.lock h) (s.handler h .exiting)
  | lock : s.handlers h = .looping → s.owner = none → s.poisoned = false → s.regions ≠ [] →
      BackendStep s (.lock h) ({ s with owner := some (.handler h) }.handler h .polling)
  | lockPoisoned : s.handlers h = .looping → s.owner = none → s.poisoned = true →
      BackendStep s (.lock h) (s.handler h .crashed)
  -- A page fault was served, or the event was none to act on.
  | served : s.handlers h = .polling →
      BackendStep s (.served h) ({ s with owner := none }.handler h .looping)
  | notified : s.handlers h = .polling → s.pipe = some (unread + 1) →
      BackendStep s (.notified h) ({ s with owner := none }.handler h .consuming)
  -- An error of `epoll` or of `do_page_fault`, with the regions locked.
  | panics : s.handlers h = .polling →
      BackendStep s (.panics h) ({ s with owner := none, poisoned := true }.handler h .crashed)
  | consume : s.handlers h = .consuming → s.pipe = some (unread + 1) →
      BackendStep s (.consume h) ({ s with pipe := some unread }.handler h .looping)
  | consumePanics : s.handlers h = .consuming → s.pipe = none →
      BackendStep s (.consume h) (s.handler h .crashed)
  | clear : s.handlers h = .exiting → (∀ j, (s.callers j).guardsPipe = false) →
      BackendStep s (.clear h) ({ s with pipe := none }.handler h .gone)

/-- The callers that hold the lock of `REGISTERD_REGIONS`. -/
def Caller.holdsRegions : Caller → Bool
  | .inside _ | .testing | .creating | .spawning => true
  | _ => false

/-- The callers whose region is in the list while the call goes on. -/
def Caller.pushed : Caller → Bool
  | .testing | .creating | .spawning => true
  | _ => false

/-- A handler that is in its loop or about to enter it. -/
def Handler.running : Handler → Bool
  | .starting | .looping | .polling | .consuming => true
  | _ => false

/-- A handler that has not cleared `NOTIFY_PIPE` yet. -/
def Handler.active : Handler → Bool
  | .exiting => true
  | phase => phase.running

/-- There is at most one active handler, it has a pipe, and who holds the regions is known. -/
structure Backend.Sound (s : Backend) : Prop where
  caller : ∀ i, (s.callers i).holdsRegions = true → s.owner = some (.caller i)
  handler : ∀ h, s.handlers h = .polling → s.owner = some (.handler h)
  sole : ∀ h h', (s.handlers h).active = true → (s.handlers h').active = true → h = h'
  piped : ∀ h, (s.handlers h).active = true → s.pipe ≠ none
  creating : ∀ i, s.callers i = .creating → s.pipe = none
  spawning : ∀ i, s.callers i = .spawning → s.pipe ≠ none ∧ ∀ h, (s.handlers h).active = false
  pushed : ∀ i, (s.callers i).pushed = true → s.regions ≠ []
  polling : ∀ h, s.handlers h = .polling → s.regions ≠ []

namespace Backend.Sound
variable {s t : Backend}

theorem initial : Backend.Sound {} where
  caller := nofun
  handler := nofun
  sole := nofun
  piped := nofun
  creating := nofun
  spawning := nofun
  pushed := nofun
  polling := nofun

theorem moveCaller (held : s.Sound) (phase : Caller)
    (owns : phase.holdsRegions = true → s.owner = some (.caller i))
    (creates : phase = .creating → s.pipe = none)
    (spawns : phase = .spawning → s.pipe ≠ none ∧ ∀ h, (s.handlers h).active = false)
    (listed : phase.pushed = true → s.regions ≠ []) : (s.caller i phase).Sound where
  caller j holds := by
    by_cases same : j = i
    · subst same
      exact owns (by simpa [Backend.caller] using holds)
    · exact held.caller j (by simpa [Backend.caller, same] using holds)
  handler := held.handler
  sole := held.sole
  piped := held.piped
  creating j here := by
    by_cases same : j = i
    · subst same
      exact creates (by simpa [Backend.caller] using here)
    · exact held.creating j (by simpa [Backend.caller, same] using here)
  spawning j here := by
    by_cases same : j = i
    · subst same
      exact spawns (by simpa [Backend.caller] using here)
    · exact held.spawning j (by simpa [Backend.caller, same] using here)
  pushed j here := by
    by_cases same : j = i
    · subst same
      exact listed (by simpa [Backend.caller] using here)
    · exact held.pushed j (by simpa [Backend.caller, same] using here)
  polling := held.polling

/-- A phase outside `REGISTERD_REGIONS` asks for nothing. -/
theorem outside (held : s.Sound) (phase : Caller) (out : phase.holdsRegions = false) :
    (s.caller i phase).Sound := by
  refine held.moveCaller phase ?_ ?_ ?_ ?_
  · simp [out]
  · rintro rfl
    nomatch out
  · rintro rfl
    nomatch out
  · cases phase <;> simp_all [Caller.pushed, Caller.holdsRegions]

theorem ret (held : s.Sound) (i : Tid) : (s.ret i).Sound := by
  have left := held.outside (i := i) .idle rfl
  refine ⟨fun j holds => ?_, fun h here => ?_, left.sole, left.piped, left.creating, left.spawning,
    left.pushed,
    left.polling⟩
  · have owner : s.owner = some (.caller j) := left.caller j holds
    have other : j ≠ i := by
      rintro rfl
      simp [Backend.ret, Caller.holdsRegions] at holds
    simp [Backend.ret, owner, other]
  · have owner : s.owner = some (.handler h) := held.handler h here
    simp [Backend.ret, owner]

theorem poison (held : s.Sound) : Backend.Sound { s with registerPoisoned := p, poisoned := q } :=
  ⟨held.caller, held.handler, held.sole, held.piped, held.creating, held.spawning, held.pushed,
    held.polling⟩

theorem acquireRegister (held : s.Sound) : Backend.Sound { s with register := r } :=
  ⟨held.caller, held.handler, held.sole, held.piped, held.creating, held.spawning, held.pushed,
    held.polling⟩

/-- A byte goes into the pipe or out of it. -/
theorem pipe (held : s.Sound) (there : s.pipe ≠ none) :
    Backend.Sound { s with pipe := some n } where
  caller := held.caller
  handler := held.handler
  sole := held.sole
  piped _ _ := Option.some_ne_none n
  creating i here := absurd (held.creating i here) there
  spawning i here := ⟨Option.some_ne_none n, (held.spawning i here).2⟩
  pushed := held.pushed
  polling := held.polling

/-- A caller takes the free lock of `REGISTERD_REGIONS`. -/
theorem take (held : s.Sound) (free : s.owner = none) (i : Tid) :
    Backend.Sound { s with owner := some (.caller i) } := by
  have nobody (j : Tid) : (s.callers j).holdsRegions ≠ true := by
    intro holds
    simpa [free] using held.caller j holds
  have unpolled (h : Tid) : s.handlers h ≠ .polling := by
    intro here
    simpa [free] using held.handler h here
  exact ⟨fun j holds => absurd holds (nobody j), fun h here => absurd here (unpolled h), held.sole,
    held.piped, held.creating, held.spawning, held.pushed, held.polling⟩

theorem enter (held : s.Sound) (free : s.owner = none) (job : Job) :
    ({ s with owner := some (.caller i) }.caller i (.inside job)).Sound :=
  (held.take free i).moveCaller _ (fun _ => rfl) nofun nofun nofun

/-- An active handler that is not polling goes on, or ends. -/
theorem moveHandler (held : s.Sound) (phase : Handler) (active : (s.handlers h).active = true)
    (quiet : phase ≠ .polling) : (s.handler h phase).Sound := by
  have old (g : Tid) (here : ((s.handler h phase).handlers g).active = true) :
      (s.handlers g).active = true := by
    by_cases same : g = h
    · rwa [same]
    · simpa [Backend.handler, same] using here
  have unpolled (g : Tid) (here : (s.handler h phase).handlers g = .polling) : s.handlers g =
      .polling := by
    by_cases same : g = h
    · simp [Backend.handler, same, quiet] at here
    · simpa [Backend.handler, same] using here
  refine ⟨held.caller, fun g here => held.handler g (unpolled g here), ?_,
    fun g here => held.piped g (old g here),
    held.creating, ?_, held.pushed, fun g here => held.polling g (unpolled g here)⟩
  · exact fun g g' first second => held.sole g g' (old g first) (old g' second)
  · intro i here
    have idle := (held.spawning i here).2 h
    simp [active] at idle

/-- The polling handler lets go of the regions. -/
theorem letGo (held : s.Sound) (here : s.handlers h = .polling) (phase : Handler)
    (quiet : phase ≠ .polling) (poisoned : Bool) :
    ({ s with owner := none, poisoned }.handler h phase).Sound := by
  have owner := held.handler h here
  have nobody (j : Tid) : (s.callers j).holdsRegions ≠ true := by
    intro holds
    simpa [owner] using held.caller j holds
  have moved := held.moveHandler (h := h) phase (by rw [here]; rfl) quiet
  refine ⟨fun j holds => absurd holds (nobody j), fun g polls => ?_, moved.sole, moved.piped,
    moved.creating,
    moved.spawning, moved.pushed, moved.polling⟩
  by_cases same : g = h
  · simp [Backend.handler, same, quiet] at polls
  · have other : s.handlers g = .polling := by simpa [Backend.handler, same] using polls
    exact absurd (held.sole g h (by rw [other]; rfl) (by rw [here]; rfl)) same

theorem lock (held : s.Sound) (here : s.handlers h = .looping) (free : s.owner = none)
    (nonempty : s.regions ≠ []) :
    ({ s with owner := some (.handler h) }.handler h .polling).Sound := by
  have nobody (j : Tid) : (s.callers j).holdsRegions ≠ true := by
    intro holds
    simpa [free] using held.caller j holds
  have unpolled (g : Tid) : s.handlers g ≠ .polling := by
    intro polls
    simpa [free] using held.handler g polls
  have old (g : Tid) (active : ((s.handler h .polling).handlers g).active = true) :
      (s.handlers g).active = true := by
    by_cases same : g = h
    · rw [same, here]
      rfl
    · simpa [Backend.handler, same] using active
  refine ⟨fun j holds => absurd holds (nobody j), fun g polls => ?_, ?_,
    fun g active => held.piped g (old g active),
    held.creating, ?_, held.pushed, fun _ _ => nonempty⟩
  · by_cases same : g = h
    · rw [same]
      rfl
    · exact absurd (by simpa [Backend.handler, same] using polls) (unpolled g)
  · exact fun g g' first second => held.sole g g' (old g first) (old g' second)
  · intro i spawns
    have idle := (held.spawning i spawns).2 h
    rw [here] at idle
    nomatch idle

theorem spawn (held : s.Sound) (here : s.callers i = .spawning) :
    ((s.ret i).handler h .starting).Sound := by
  obtain ⟨there, inactive⟩ := held.spawning i here
  have left := held.ret i
  have only (g : Tid) (active : (((s.ret i).handler h .starting).handlers g).active = true) : g =
      h := by
    by_contra other
    have old : (s.handlers g).active = true := by
      simpa [Backend.handler, Backend.ret, other] using active
    simp [inactive g] at old
  have unpolled (g : Tid) : ((s.ret i).handler h .starting).handlers g ≠ .polling := by
    intro polls
    have same := only g (by rw [polls]; rfl)
    simp [Backend.handler, same] at polls
  refine ⟨left.caller, fun g polls => absurd polls (unpolled g), ?_, fun _ _ => there,
    left.creating, ?_, left.pushed,
    fun g polls => absurd polls (unpolled g)⟩
  · exact fun g g' first second => (only g first).trans (only g' second).symm
  · intro j spawns
    have other : j ≠ i := by
      rintro rfl
      simp [Backend.ret, Backend.handler] at spawns
    have holds : s.callers j = .spawning := by
      simpa [Backend.ret, Backend.handler, other] using spawns
    have mine := held.caller i (by rw [here]; rfl)
    have theirs := held.caller j (by rw [holds]; rfl)
    exact absurd (Owner.caller.inj (Option.some.inj (theirs.symm.trans mine))) other

theorem clear (held : s.Sound) (here : s.handlers h = .exiting) :
    ({ s with pipe := none }.handler h .gone).Sound := by
  have active : (s.handlers h).active = true := by rw [here]; rfl
  have moved := held.moveHandler .gone active nofun
  refine ⟨moved.caller, moved.handler, moved.sole, fun g still => ?_, fun _ _ => rfl,
    fun i spawns => ?_,
    moved.pushed, moved.polling⟩
  · by_cases same : g = h
    · simp [Backend.handler, same, Handler.active, Handler.running] at still
    · have other : (s.handlers g).active = true := by simpa [Backend.handler, same] using still
      exact absurd (held.sole g h other active) same
  · have inactive := (held.spawning i spawns).2 h
    simp [active] at inactive

theorem create (held : s.Sound) (here : s.callers i = .creating) :
    ({ s with pipe := some 0 }.caller i .spawning).Sound := by
  have owner := held.caller i (by rw [here]; rfl)
  have alone (j : Tid) (holds : (s.callers j).holdsRegions = true) : j = i :=
    Owner.caller.inj (Option.some.inj ((held.caller j holds).symm.trans owner))
  have inactive (h : Tid) : (s.handlers h).active = false := by
    by_contra active
    exact held.piped h (by simpa using active) (held.creating i here)
  have left := held.outside (i := i) .idle rfl
  have made : Backend.Sound ({ s with pipe := some 0 }.caller i .idle) := by
    refine ⟨left.caller, left.handler, left.sole, fun _ _ => Option.some_ne_none 0,
      fun j creates => ?_,
      fun j spawns => ⟨Option.some_ne_none 0, (left.spawning j spawns).2⟩, left.pushed,
        left.polling⟩
    by_cases same : j = i
    · simp [Backend.caller, same] at creates
    · have other : s.callers j = .creating := by simpa [Backend.caller, same] using creates
      exact absurd (alone j (by rw [other]; rfl)) same
  have moved := made.moveCaller (i := i) .spawning (fun _ => owner) nofun
    (fun _ => ⟨Option.some_ne_none 0, inactive⟩) (fun _ => held.pushed i (by rw [here]; rfl))
  simpa [Backend.caller] using moved

theorem push (held : s.Sound) (here : s.callers i = .inside job) :
    ({ s with regions := s.regions ++ [region] }.caller i .testing).Sound := by
  have grown : Backend.Sound { s with regions := s.regions ++ [region] } :=
    ⟨held.caller, held.handler, held.sole, held.piped, held.creating, held.spawning, by simp,
      by simp⟩
  exact grown.moveCaller .testing (fun _ => held.caller i (by rw [here]; rfl)) nofun nofun (by simp)

/-- The one who removes a region holds the lock, so nobody counts on the list. -/
theorem remove (held : s.Sound) (here : s.callers i = .inside job) :
    ({ s with regions := rest }.ret i).Sound := by
  have owner := held.caller i (by rw [here]; rfl)
  have left := held.ret i
  refine ⟨left.caller, left.handler, left.sole, left.piped, left.creating, left.spawning,
    fun j pushes => ?_,
    fun h polls => ?_⟩
  · by_cases same : j = i
    · simp [Backend.ret, same, Caller.pushed] at pushes
    · have old : (s.callers j).pushed = true := by simpa [Backend.ret, same] using pushes
      have theirs := held.caller j (by
        cases phase : s.callers j <;> simp_all [Caller.pushed, Caller.holdsRegions])
      exact absurd (Owner.caller.inj (Option.some.inj (theirs.symm.trans owner))) same
  · simpa [owner] using held.handler h polls

end Backend.Sound

theorem sound_step (held : s.Sound) (stepped : BackendStep s e t) : t.Sound := by
  cases stepped with
  | call idle => exact held.outside _ rfl
  | acquireRegister entering free healthy => exact held.acquireRegister.outside _ rfl
  | registerPoisoned entering free poisoned => exact held.outside _ rfl
  | unregisterPoisoned entering free poisoned => exact held.ret _
  | userfault locked => exact held.outside _ rfl
  | userfaultFailed locked => exact held.ret _
  | notifyFirst locked there => exact (held.pipe (by simp [there])).outside _ rfl
  | notifyFirstFailed locked missing => exact held.ret _
  | tryLock trying free healthy => exact held.enter free _
  | tryLockBusy trying busy => exact held.outside _ rfl
  | tryLockPoisoned trying free poisoned => exact (held.take free _).outside _ rfl
  | notify refused there => exact (held.pipe (by simp [there])).outside _ rfl
  | notifyFailed refused missing => exact held.ret _
  | acquireRegions waiting free healthy => exact held.enter free _
  | acquireRegionsPoisoned waiting free poisoned => exact held.ret _
  | push inside => exact held.push inside
  | remove inside => exact held.remove inside
  | testSome testing there => exact held.ret _
  | testNone testing missing =>
    have pushed := held.pushed _ (by rw [testing]; rfl)
    exact held.moveCaller _ (fun _ => held.caller _ (by rw [testing]; rfl)) (fun _ => missing)
      nofun fun _ => pushed
  | create creating missing unguarded => exact held.create creating
  | createFailed creating unguarded => exact held.ret _
  | spawn spawning fresh => exact held.spawn spawning
  | spawnFailed spawning => exact held.ret _
  | spawnPanics spawning => exact (held.ret _).poison
  | start starting there => exact held.moveHandler _ (by rw [starting]; rfl) nofun
  | startPanics starting missing => exact held.moveHandler _ (by rw [starting]; rfl) nofun
  | lockEmpty looping free healthy empty => exact held.moveHandler _ (by rw [looping]; rfl) nofun
  | lock looping free healthy nonempty => exact held.lock looping free nonempty
  | lockPoisoned looping free poisoned => exact held.moveHandler _ (by rw [looping]; rfl) nofun
  | served polling => exact held.letGo polling .looping nofun _
  | notified polling there => exact held.letGo polling .consuming nofun _
  | panics polling => exact held.letGo polling .crashed nofun _
  | consume consuming there =>
    exact (held.pipe (by simp [there])).moveHandler _
      (by rw [show _ = Handler.consuming from consuming]; rfl) nofun
  | consumePanics consuming missing => exact held.moveHandler _ (by rw [consuming]; rfl) nofun
  | clear exiting unguarded => exact held.clear exiting

/-- One region is registered, its handler waits in `epoll`, and no call is in progress. -/
structure Serving (region : Region) (s : Backend) : Prop where
  register : s.register = none
  registerHealthy : s.registerPoisoned = false
  owner : s.owner = some (.handler 0)
  healthy : s.poisoned = false
  regions : s.regions = [region]
  pipe : s.pipe = some 0
  idle : ∀ i, s.callers i = .idle
  handler : s.handlers 0 = .polling

theorem serving_reachable (region : Region) :
    ∃ es s, Run BackendStep {} es s ∧ Serving region s := by
  have pushed : Run BackendStep {}
      [.call 1 (.register region), .acquireRegister 1, .userfault 1 true, .tryLock 1,
      .push 1, .test 1] _ :=
    .cons (.call rfl) (.cons (.acquireRegister rfl rfl rfl) (.cons (.userfault rfl)
      (.cons (.tryLock rfl rfl rfl)
      (.cons (.push rfl) (.cons (.testNone rfl rfl) (.nil _))))))
  have spawned := pushed.append (.cons (.create (i := 1) rfl rfl ?_)
    (.cons (.spawn (i := 1) (h := 0) rfl rfl) (.nil _)))
  · refine ⟨_, _, spawned.append (.cons (.start (h := 0) rfl nofun)
      (.cons (.lock (h := 0) rfl ?_ rfl nofun) (.nil _))), ?_⟩
    · simp [Backend.caller, Backend.ret, Backend.handler]
    · constructor
      all_goals simp [Backend.caller, Backend.ret, Backend.handler]
  · intro j
    by_cases first : j = 1 <;> simp [Backend.caller, first, Caller.guardsPipe]

end AlloyStack.MmapFileBackend
