import AlloyStack.MmapFileBackend.Backend

/-! The hand-shake on the notify pipe. A caller that finds the regions locked writes a byte and
blocks; the handler reads one byte for each time it lets go of the lock, and may take the lock
again before the caller does. -/
namespace AlloyStack.MmapFileBackend
open Transition

def Backend.Unread (s : Backend) : Prop := ∃ unread, s.pipe = some (unread + 1)

/-- While the handler waits in `epoll`, a caller blocked in `acquire_regions` has left a byte. -/
def Backend.Heard (s : Backend) : Prop :=
  ∀ h i job, s.handlers h = .polling → s.callers i = .waiting job → s.Unread

def HeardAfter (_ : Backend) (_ : Event) (t : Backend) : Prop := t.Heard

/-- The guard: the handler takes the regions when nobody waits for them, or with a byte unread. -/
def HandsOver (s : Backend) (e : Event) (_ : Backend) : Prop :=
  ∀ h, e = .lock h → s.poisoned = false → s.regions ≠ [] →
    (∀ i job, s.callers i ≠ .waiting job) ∨ s.Unread

theorem notify_unread (unread : Nat) : ∃ n, notify unread = n + 1 := by
  unfold notify
  split
  · exact ⟨unread, rfl⟩
  · rename_i full
    simp only [PIPE_CAPACITY] at full
    exact ⟨unread - 1, by omega⟩

section Steps
variable {s t : Backend}

/-- A step of a caller that neither blocks it nor touches the pipe. -/
theorem heard_caller (heard : s.Heard) (handlers : t.handlers = s.handlers) (pipe : t.pipe = s.pipe)
    (waits : ∀ j job, t.callers j = .waiting job → s.callers j = .waiting job) : t.Heard := by
  intro h i job polls here
  obtain ⟨unread, there⟩ := heard h i job (handlers ▸ polls) (waits i job here)
  exact ⟨unread, pipe.trans there⟩

theorem waits_caller {phase : Caller} (moves : ∀ job, phase ≠ .waiting job) (j : Tid) (job : Job)
    (here : (s.caller i phase).callers j = .waiting job) : s.callers j = .waiting job := by
  by_cases same : j = i
  · simp [Backend.caller, same, moves] at here
  · simpa [Backend.caller, same] using here

theorem waits_ret (j : Tid) (job : Job) (here : (s.ret i).callers j = .waiting job) :
    s.callers j = .waiting job :=
  waits_caller (show ∀ job, Caller.idle ≠ .waiting job from nofun) j job here

theorem heard_unread (there : t.Unread) : t.Heard := fun _ _ _ _ _ => there

/-- An active handler leaves its phase. It was the only one, so nobody polls. -/
theorem heard_handler (held : s.Sound) (active : (s.handlers h).active = true)
    (moved : t.handlers = Function.update s.handlers h phase) (quiet : phase ≠ .polling) :
    t.Heard := by
  intro g i job polls _
  rw [moved, Function.update_apply] at polls
  split at polls
  · exact absurd polls quiet
  · rename_i other
    exact absurd (held.sole g h (by rw [polls]; rfl) active) other

theorem heard_step (held : s.Sound) (heard : s.Heard) (stepped : BackendStep s e t)
    (handed : HandsOver s e t) :
    t.Heard := by
  cases stepped with
  | call idle => exact heard_caller heard rfl rfl (waits_caller (by simp))
  | acquireRegister entering free healthy =>
    exact heard_caller heard rfl rfl (waits_caller (by simp))
  | registerPoisoned entering free poisoned =>
    exact heard_caller heard rfl rfl (waits_caller (by simp))
  | unregisterPoisoned entering free poisoned => exact heard_caller heard rfl rfl waits_ret
  | userfault locked => exact heard_caller heard rfl rfl (waits_caller (by simp))
  | userfaultFailed locked => exact heard_caller heard rfl rfl waits_ret
  | notifyFirst locked there => exact heard_unread ((notify_unread _).imp fun _ => congrArg some)
  | notifyFirstFailed locked missing => exact heard_caller heard rfl rfl waits_ret
  | tryLock trying free healthy => exact heard_caller heard rfl rfl (waits_caller (by simp))
  | tryLockBusy trying busy => exact heard_caller heard rfl rfl (waits_caller (by simp))
  | tryLockPoisoned trying free poisoned =>
    exact heard_caller heard rfl rfl (waits_caller (by simp))
  | notify refused there => exact heard_unread ((notify_unread _).imp fun _ => congrArg some)
  | notifyFailed refused missing => exact heard_caller heard rfl rfl waits_ret
  | acquireRegions waiting free healthy => exact heard_caller heard rfl rfl (waits_caller (by simp))
  | acquireRegionsPoisoned waiting free poisoned => exact heard_caller heard rfl rfl waits_ret
  | push inside => exact heard_caller heard rfl rfl (waits_caller (by simp))
  | remove inside => exact heard_caller heard rfl rfl waits_ret
  | testSome testing there => exact heard_caller heard rfl rfl waits_ret
  | testNone testing missing => exact heard_caller heard rfl rfl (waits_caller (by simp))
  | create creating missing unguarded =>
    intro h _ _ polls _
    exact absurd missing (held.piped h (by rw [show s.handlers h = .polling from polls]; rfl))
  | createFailed creating unguarded => exact heard_caller heard rfl rfl waits_ret
  | @spawn _ i h spawning fresh =>
    intro g _ _ polls _
    by_cases same : g = h
    · simp [Backend.handler, same] at polls
    · have other : s.handlers g = .polling := by
        simpa [Backend.handler, Backend.ret, same] using polls
      have inactive := (held.spawning i spawning).2 g
      rw [other] at inactive
      cases inactive
  | spawnFailed spawning => exact heard_caller heard rfl rfl waits_ret
  | spawnPanics spawning => exact heard_caller heard rfl rfl waits_ret
  | start starting there => exact heard_handler held (by rw [starting]; rfl) rfl (by simp)
  | startPanics starting missing => exact heard_handler held (by rw [starting]; rfl) rfl (by simp)
  | lockEmpty looping free healthy empty =>
    exact heard_handler held (by rw [looping]; rfl) rfl (by simp)
  | lock looping free healthy nonempty =>
    rcases handed _ rfl healthy nonempty with nobody | there
    · exact fun _ i job _ here => absurd here (nobody i job)
    · exact heard_unread there
  | lockPoisoned looping free poisoned =>
    exact heard_handler held (by rw [looping]; rfl) rfl (by simp)
  | served polling => exact heard_handler held (by rw [polling]; rfl) rfl (by simp)
  | notified polling there => exact heard_handler held (by rw [polling]; rfl) rfl (by simp)
  | panics polling => exact heard_handler held (by rw [polling]; rfl) rfl (by simp)
  | consume consuming there => exact heard_handler held (by rw [consuming]; rfl) rfl (by simp)
  | consumePanics consuming missing =>
    exact heard_handler held (by rw [consuming]; rfl) rfl (by simp)
  | clear exiting unguarded => exact heard_handler held (by rw [exiting]; rfl) rfl (by simp)

theorem heard_iff (held : s.Sound ∧ s.Heard) (stepped : BackendStep s e t) :
    HeardAfter s e t ↔ HandsOver s e t := by
  constructor
  · rintro heard h rfl healthy nonempty
    by_contra! silent
    obtain ⟨⟨i, job, waits⟩, unheard⟩ := silent
    cases stepped with
    | lockEmpty looping free healthy empty => exact nonempty empty
    | lock looping free healthy nonempty =>
      exact unheard (heard h i job (by simp [Backend.handler]) waits)
    | lockPoisoned looping free poisoned => exact Bool.false_ne_true (healthy.symm.trans poisoned)
  · exact heard_step held.1 held.2 stepped

end Steps

/-- In every run a caller that waits while the handler polls has a byte in the pipe, if and only
if the handler never takes the regions over a waiting caller with the pipe empty. -/
theorem waiters_heard_iff (es : List Event) (t : Backend) :
    Run (Where BackendStep HeardAfter) {} es t ↔ Run (Where BackendStep HandsOver) {} es t := by
  refine Run.where_iff (P := fun s => s.Sound ∧ s.Heard) (fun held stepped handed => ?_) heard_iff
    ⟨.initial, nofun⟩
  exact ⟨sound_step held.1 stepped, heard_step held.1 held.2 stepped handed⟩

def imageRegion : Region := ⟨0x7f0000000000, 3⟩

/-- A registrar writes its byte and blocks, and the handler reads it and takes the regions again. -/
theorem waiter_unheard : ¬ ∀ es t, Run BackendStep {} es t → t.Heard := by
  intro all
  obtain ⟨es, s, run, serving⟩ := serving_reachable imageRegion
  have waits : Run BackendStep s
      [.call 2 (.register imageRegion), .acquireRegister 2, .userfault 2 true, .tryLock 2,
      .notify 2] _ :=
    .cons (.call (serving.idle 2))
      (.cons (.acquireRegister rfl serving.register serving.registerHealthy)
      (.cons (.userfault rfl)
        (.cons (.tryLockBusy rfl ?_) (.cons (.notify rfl serving.pipe) (.nil _)))))
  · have overtakes := (run.append waits).append (.cons (.notified (h := 0) serving.handler rfl)
      (.cons (.consume (h := 0) rfl rfl)
        (.cons (.lock (h := 0) rfl rfl serving.healthy ?_) (.nil _))))
    · obtain ⟨unread, there⟩ := all _ _ overtakes 0 2 (.register imageRegion) rfl rfl
      nomatch there
    · simp [Backend.handler, Backend.caller, serving.regions]
  · simp [Backend.caller, serving.owner]

end AlloyStack.MmapFileBackend
