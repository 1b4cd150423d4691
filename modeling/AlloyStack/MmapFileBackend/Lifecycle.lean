import AlloyStack.MmapFileBackend.Backend

/-! The life of the fault handler. It decides to exit under the lock of the regions and announces
it later by clearing `NOTIFY_PIPE`; a registrar looks at `NOTIFY_PIPE` alone to see whether it has
to spawn a handler. -/
namespace AlloyStack.MmapFileBackend
open Transition

def Backend.Quiet (s : Backend) : Prop := ∀ i, s.callers i = .idle

/-- With regions registered and no call in progress, a handler is in its loop. -/
def Backend.Served (s : Backend) : Prop :=
  s.regions ≠ [] → s.Quiet → ∃ h, (s.handlers h).running = true

/-- The guard: no registrar looks at `NOTIFY_PIPE` while a handler is between its loop and the
clearing, the pipe and the thread can be made when they are needed, and no handler panics. -/
def Orderly (s : Backend) (e : Event) (_ : Backend) : Prop :=
  match e with
  | .test _ => ∀ h, s.handlers h ≠ .exiting
  | .create _ made => made = true
  | .spawnFailed _ _ | .panics _ => False
  | _ => True

/-- Registered regions have a handler in its loop, or a registrar that has yet to look at the
pipe; and a pipe has a handler, or a registrar about to spawn it. -/
structure Backend.Covered (s : Backend) : Prop where
  healthy : s.poisoned = false
  regions : s.regions ≠ [] → (∃ h, (s.handlers h).running = true) ∨ ∃ i, (s.callers i).pushed = true
  pipe : s.pipe ≠ none → (∃ h, (s.handlers h).active = true) ∨ ∃ i, s.callers i = .spawning

theorem Handler.active_of_running {phase : Handler} (running : phase.running = true) :
    phase.active = true := by
  cases phase <;> simp_all [Handler.running, Handler.active]

theorem Handler.running_of_active {phase : Handler} (active : phase.active = true)
    (left : phase ≠ .exiting) :
    phase.running = true := by
  cases phase <;> simp_all [Handler.running, Handler.active]

namespace Backend.Covered
variable {s t : Backend}

theorem initial : Backend.Covered {} := ⟨rfl, by simp, by simp⟩

/-- A step of a caller that had pushed nothing, and that does not end in the list. -/
theorem caller (held : s.Covered) (idle : (s.callers i).pushed = false)
    (healthy : t.poisoned = s.poisoned) (handlers : t.handlers = s.handlers)
    (callers : t.callers = Function.update s.callers i phase)
    (regions : t.regions ≠ [] → s.regions ≠ []) (pipe : t.pipe ≠ none → s.pipe ≠ none) :
    t.Covered := by
  have other (j : Tid) (pushed : (s.callers j).pushed = true) : t.callers j = s.callers j := by
    rw [callers, Function.update_of_ne]
    rintro rfl
    simp [idle] at pushed
  refine ⟨healthy.trans held.healthy, fun some => ?_, fun some => ?_⟩
  · rw [handlers]
    refine (held.regions (regions some)).imp_right ?_
    rintro ⟨j, pushed⟩
    exact ⟨j, (other j pushed).symm ▸ pushed⟩
  · rw [handlers]
    refine (held.pipe (pipe some)).imp_right ?_
    rintro ⟨j, spawns⟩
    exact ⟨j, (other j (by rw [spawns]; rfl)).trans spawns⟩

/-- A step of a handler that stays active. -/
theorem handler (held : s.Covered) (healthy : t.poisoned = s.poisoned)
    (handlers : t.handlers = Function.update s.handlers h phase) (regions : t.regions = s.regions)
    (runs : s.regions ≠ [] → phase.running = true) (active : phase.active = true) : t.Covered := by
  have self : t.handlers h = phase := by rw [handlers, Function.update_self]
  refine ⟨healthy.trans held.healthy, fun some => .inl ⟨h, ?_⟩,
    fun _ => .inl ⟨h, self.symm ▸ active⟩⟩
  exact self.symm ▸ runs (regions ▸ some)

/-- A registrar that has pushed its region moves on. -/
theorem registrar (held : s.Covered) (phase : Caller) (here : t.callers i = phase)
    (pushed : phase.pushed = true) (healthy : t.poisoned = s.poisoned)
    (pipe : t.pipe ≠ none → (∃ h, (t.handlers h).active = true) ∨ ∃ i, t.callers i = .spawning) :
    t.Covered :=
  ⟨healthy.trans held.healthy, fun _ => .inr ⟨i, here.symm ▸ pushed⟩, pipe⟩

/-- In a covered state whose regions a registrar holds before it spawns, a pipe has a handler. -/
theorem active (held : s.Covered) (sound : s.Sound) (here : s.callers i = phase)
    (holds : phase.holdsRegions = true) (quiet : phase ≠ .spawning) (there : s.pipe ≠ none) :
    ∃ h, (s.handlers h).active = true := by
  refine (held.pipe there).resolve_right ?_
  rintro ⟨j, spawns⟩
  have mine := sound.caller i (here.symm ▸ holds)
  have theirs := sound.caller j (by rw [spawns]; rfl)
  obtain rfl := Owner.caller.inj (Option.some.inj (theirs.symm.trans mine))
  exact quiet (here.symm.trans spawns)

end Backend.Covered

section Steps
variable {s t : Backend}

theorem covered_step (held : s.Sound) (covered : s.Covered) (stepped : BackendStep s e t)
    (orderly : Orderly s e t) :
    t.Covered := by
  cases stepped with
  | call idle => exact covered.caller (by rw [idle]; rfl) rfl rfl rfl id id
  | acquireRegister entering free healthy =>
    exact covered.caller (by rw [entering]; rfl) rfl rfl rfl id id
  | registerPoisoned entering free poisoned =>
    exact covered.caller (by rw [entering]; rfl) rfl rfl rfl id id
  | unregisterPoisoned entering free poisoned =>
    exact covered.caller (by rw [entering]; rfl) rfl rfl rfl id id
  | userfault locked => exact covered.caller (by rw [locked]; rfl) rfl rfl rfl id id
  | userfaultFailed locked => exact covered.caller (by rw [locked]; rfl) rfl rfl rfl id id
  | notifyFirst locked there =>
    exact covered.caller (by rw [locked]; rfl) rfl rfl rfl id (by simp [there])
  | notifyFirstFailed locked missing => exact covered.caller (by rw [locked]; rfl) rfl rfl rfl id id
  | tryLock trying free healthy => exact covered.caller (by rw [trying]; rfl) rfl rfl rfl id id
  | tryLockBusy trying busy => exact covered.caller (by rw [trying]; rfl) rfl rfl rfl id id
  | tryLockPoisoned trying free poisoned =>
    exact covered.caller (by rw [trying]; rfl) rfl rfl rfl id id
  | notify refused there =>
    exact covered.caller (by rw [refused]; rfl) rfl rfl rfl id (by simp [there])
  | notifyFailed refused missing => exact covered.caller (by rw [refused]; rfl) rfl rfl rfl id id
  | acquireRegions waiting free healthy =>
    exact covered.caller (by rw [waiting]; rfl) rfl rfl rfl id id
  | acquireRegionsPoisoned waiting free poisoned =>
    exact covered.caller (by rw [waiting]; rfl) rfl rfl rfl id id
  | push inside =>
    refine covered.registrar .testing (Function.update_self ..) rfl rfl fun there => .inl ?_
    exact covered.active held inside rfl (by simp) there
  | remove inside =>
    refine covered.caller (by rw [inside]; rfl) rfl rfl rfl (fun some empty => some ?_) id
    rw [empty]
    rfl
  | testSome testing there =>
    obtain ⟨h, active⟩ := covered.active held testing rfl (by simp) there
    exact ⟨covered.healthy, fun _ => .inl ⟨h, Handler.running_of_active active (orderly h)⟩,
      fun _ => .inl ⟨h, active⟩⟩
  | testNone testing missing =>
    exact covered.registrar .creating (Function.update_self ..) rfl rfl (absurd missing)
  | create creating missing unguarded =>
    exact covered.registrar .spawning (Function.update_self ..) rfl rfl fun _ =>
      .inr ⟨_, Function.update_self ..⟩
  | createFailed creating unguarded => exact absurd orderly Bool.false_ne_true
  | spawn spawning fresh => exact covered.handler rfl rfl rfl (fun _ => rfl) rfl
  | spawnFailed spawning => exact False.elim orderly
  | spawnPanics spawning => exact False.elim orderly
  | start starting there => exact covered.handler rfl rfl rfl (fun _ => rfl) rfl
  | startPanics starting missing => exact absurd missing (held.piped _ (by rw [starting]; rfl))
  | lockEmpty looping free healthy empty => exact covered.handler rfl rfl rfl (absurd empty) rfl
  | lock looping free healthy nonempty => exact covered.handler rfl rfl rfl (fun _ => rfl) rfl
  | lockPoisoned looping free poisoned =>
    exact absurd (covered.healthy.symm.trans poisoned) Bool.false_ne_true
  | served polling => exact covered.handler rfl rfl rfl (fun _ => rfl) rfl
  | notified polling there => exact covered.handler rfl rfl rfl (fun _ => rfl) rfl
  | panics polling => exact False.elim orderly
  | consume consuming there => exact covered.handler rfl rfl rfl (fun _ => rfl) rfl
  | consumePanics consuming missing => exact absurd missing (held.piped _ (by rw [consuming]; rfl))
  | @clear _ h exiting unguarded =>
    refine ⟨covered.healthy, fun some => (covered.regions some).imp_left ?_,
      by simp [Backend.handler]⟩
    rintro ⟨g, running⟩
    have other : g ≠ h := by
      rintro rfl
      rw [exiting] at running
      cases running
    exact ⟨g, by simpa [Backend.handler, other] using running⟩

theorem served_of_covered (covered : s.Covered) : s.Served := by
  intro some quiet
  refine (covered.regions some).resolve_right ?_
  rintro ⟨i, pushed⟩
  rw [quiet i] at pushed
  nomatch pushed

/-- The only active handler is gone or has left its loop. -/
theorem unserved (some : t.regions ≠ []) (quiet : t.Quiet)
    (idle : ∀ h, (t.handlers h).running = false) :
    ¬ t.Served := by
  intro served
  obtain ⟨h, running⟩ := served some quiet
  simp [idle h] at running

theorem inactive_of_not_running (held : s.Sound) (active : (s.handlers h).active = true)
    (other : g ≠ h) :
    (s.handlers g).running = false := by
  by_contra running
  exact other (held.sole g h (Handler.active_of_running (by simpa using running)) active)

/-- A step that breaks the guard leaves the regions without a handler. -/
theorem unserved_of_disorder (held : s.Sound) (stepped : BackendStep s e t)
    (disorder : ¬ Orderly s e t) (quiet : t.Quiet) : ¬ t.Served := by
  have idle (empty : s.pipe = none) (h : Tid) : (s.handlers h).running = false := by
    by_contra running
    exact held.piped h (Handler.active_of_running (by simpa using running)) empty
  have inactive (i : Tid) (spawns : s.callers i = .spawning) (h : Tid) : (s.handlers h).running =
      false := by
    by_contra running
    have active : (s.handlers h).active = true := Handler.active_of_running (by simpa using running)
    simp [(held.spawning i spawns).2 h] at active
  cases stepped with
  | testSome testing there =>
    simp only [Orderly, not_forall, not_not] at disorder
    obtain ⟨h, exiting⟩ := disorder
    have stopped (g : Tid) : (s.handlers g).running = false := by
      by_cases same : g = h
      · rw [same, exiting]
        rfl
      · exact inactive_of_not_running held (by rw [exiting]; rfl) same
    exact unserved (held.pushed _ (by rw [testing]; rfl)) quiet stopped
  | @testNone _ i testing missing => nomatch (Function.update_self ..).symm.trans (quiet i)
  | create creating missing unguarded => exact absurd rfl disorder
  | createFailed creating unguarded =>
    exact unserved (held.pushed _ (by rw [creating]; rfl)) quiet (idle (held.creating _ creating))
  | spawnFailed spawning =>
    exact unserved (held.pushed _ (by rw [spawning]; rfl)) quiet (inactive _ spawning)
  | spawnPanics spawning =>
    exact unserved (held.pushed _ (by rw [spawning]; rfl)) quiet (inactive _ spawning)
  | @panics _ h polling =>
    refine unserved (held.polling _ polling) quiet fun g => ?_
    by_cases same : g = h
    · simp [Backend.handler, same, Handler.running]
    · simpa [Backend.handler, same] using inactive_of_not_running held (by rw [polling]; rfl) same
  | _ => exact absurd trivial disorder

end Steps

theorem orderly_run (run : Run (Where BackendStep Orderly) {} es t) : t.Sound ∧ t.Covered :=
  run.stable (P := fun s => s.Sound ∧ s.Covered)
    (fun held stepped => ⟨sound_step held.1 stepped.1,
      covered_step held.1 held.2 stepped.1 stepped.2⟩)
    ⟨.initial, .initial⟩

/-- In every orderly run registered regions have a handler whenever no call is in progress, and
the first disorderly step leaves them without one. -/
theorem regions_served_when (es : List Event) (s : Backend)
    (run : Run (Where BackendStep Orderly) {} es s) :
    s.Served ∧ ∀ e t, BackendStep s e t → ¬ Orderly s e t → t.Quiet → ¬ t.Served := by
  obtain ⟨sound, covered⟩ := orderly_run run
  refine ⟨served_of_covered covered, fun e t stepped disorder quiet => ?_⟩
  exact unserved_of_disorder sound stepped disorder quiet

def textRegion : Region := ⟨0x7f0000400000, 4⟩

/-- The first region is registered, and its registrar spawns the handler. -/
theorem first_region_served :
    ∃ es s, Run (Where BackendStep Orderly) {} es s ∧ s.regions = [textRegion] ∧ s.Served := by
  have pushed : Run (Where BackendStep Orderly) {}
      [.call 1 (.register textRegion), .acquireRegister 1, .userfault 1 true,
      .tryLock 1, .push 1] _ :=
    .cons ⟨.call rfl, trivial⟩
      (.cons ⟨.acquireRegister rfl rfl rfl, trivial⟩ (.cons ⟨.userfault rfl, trivial⟩
      (.cons ⟨.tryLock rfl rfl rfl, trivial⟩ (.cons ⟨.push rfl, trivial⟩ (.nil _)))))
  have spawned :=
    pushed.append (.cons ⟨.testNone (i := 1) rfl rfl, ?_⟩ (.cons ⟨.create (i := 1) rfl rfl ?_, rfl⟩
    (.cons ⟨.spawn (i := 1) (h := 0) rfl rfl, trivial⟩ (.nil _))))
  · exact ⟨_, _, spawned, rfl, (regions_served_when _ _ spawned).1⟩
  · simp [Orderly, Backend.caller]
  · intro j
    by_cases first : j = 1 <;> simp [Backend.caller, first, Caller.guardsPipe]

/-- The handler of an emptied list has left its loop, and no call is in progress. -/
structure Leaving (s : Backend) : Prop where
  register : s.register = none
  registerHealthy : s.registerPoisoned = false
  owner : s.owner = none
  healthy : s.poisoned = false
  regions : s.regions = []
  pipe : s.pipe ≠ none
  idle : s.Quiet
  handler : s.handlers 0 = .exiting
  alone : ∀ h, h ≠ 0 → (s.handlers h).running = false

theorem leaving_reachable : ∃ es s, Run BackendStep {} es s ∧ Leaving s := by
  obtain ⟨es, s, run, serving⟩ := serving_reachable textRegion
  have waits : Run BackendStep s
      [.call 2 (.unregister textRegion.startAddr), .acquireRegister 2, .notifyFirst 2,
      .tryLock 2, .notify 2, .notified 0] _ :=
    .cons (.call (serving.idle 2))
      (.cons (.acquireRegister rfl serving.register serving.registerHealthy)
      (.cons (.notifyFirst rfl serving.pipe)
        (.cons (.tryLockBusy rfl ?_) (.cons (.notify rfl rfl)
        (.cons (.notified (h := 0) serving.handler rfl) (.nil _))))))
  · refine ⟨_, _, (run.append waits).append (.cons (.consume (h := 0) rfl rfl)
      (.cons (.acquireRegions (i := 2) rfl rfl serving.healthy) (.cons (.remove (i := 2) rfl)
        (.cons (.lockEmpty (h := 0) rfl ?_ serving.healthy ?_) (.nil _))))), ?_⟩
    · simp [Backend.ret, Backend.caller, Backend.handler]
    · simp [Backend.ret, Backend.caller, Backend.handler, serving.regions, removeRegion]
    · have sound := run.stable (P := Backend.Sound) sound_step .initial
      constructor
      all_goals simp [Backend.ret, Backend.caller, Backend.handler, serving.registerHealthy,
        serving.healthy,
        serving.regions, removeRegion, Backend.Quiet]
      · intro i
        by_cases same : i = 2
        · simp [same]
        · simp [same, serving.idle]
      · intro h other
        simpa [other] using inactive_of_not_running sound (by rw [serving.handler]; rfl) other
  · simp [Backend.caller, serving.owner]

/-- A region is registered after the handler has left its loop, and no handler will serve it. -/
theorem regions_unserved : ¬ ∀ es t, Run BackendStep {} es t → t.Served := by
  intro all
  obtain ⟨es, s, run, leaving⟩ := leaving_reachable
  have registers : Run BackendStep s
      [.call 3 (.register textRegion), .acquireRegister 3, .userfault 3 true, .tryLock 3,
      .push 3, .test 3] _ :=
    .cons (.call (leaving.idle 3))
      (.cons (.acquireRegister rfl leaving.register leaving.registerHealthy)
      (.cons (.userfault rfl) (.cons (.tryLock rfl leaving.owner leaving.healthy) (.cons (.push rfl)
        (.cons (.testSome rfl leaving.pipe) (.nil _))))))
  refine unserved ?_ ?_ (fun h => ?_) (all _ _ (run.append registers))
  · simp [Backend.ret, Backend.caller]
  · intro i
    by_cases same : i = 3
    · simp [Backend.ret, Backend.caller, same]
    · simp [Backend.ret, Backend.caller, same, leaving.idle i]
  · by_cases same : h = 0
    · simp [Backend.ret, Backend.caller, same, leaving.handler, Handler.running]
    · exact leaving.alone h same

end AlloyStack.MmapFileBackend
