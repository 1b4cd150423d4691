import Mathlib.Algebra.BigOperators.Group.Finset.Basic
import Mathlib.Algebra.Order.BigOperators.Group.Finset
import Mathlib.Algebra.Order.BigOperators.Group.List
import AlloyStack.Visor.WorkflowOrder

/-! Termination of `Isolation::run` and what its result says about the apps. -/
namespace AlloyStack.Visor.Workflow
open Rust Transition

section Termination
variable {w : Plan} {o : Outcomes}

def Plan.size (w : Plan) : Nat := (w.schedule.map List.length).sum

theorem group_length_le (w : Plan) (k : Nat) : (w.group k).length ≤ w.size := by
  by_cases inside : k < w.schedule.length
  · have listed : w.group k ∈ w.schedule := by simp [Plan.group, inside]
    exact List.le_sum_of_mem (List.mem_map_of_mem listed)
  · simp [Plan.group, List.getElem?_eq_none (Nat.le_of_not_lt inside)]

theorem index_lt_size (listed : w.Scheduled p) : p.2 < w.size :=
  Nat.lt_of_lt_of_le listed (group_length_le w p.1)

/-- The steps that the calling thread has left, at most. -/
def Plan.controlRank (w : Plan) : Control → Nat
  | .loading k i => (w.schedule.length - k) * (3 * w.size + 4) + (2 * w.size + 4) + (w.size - i)
  | .spawning k i => (w.schedule.length - k) * (3 * w.size + 4) + (w.size + 3) + (w.size - i)
  | .joining k i => (w.schedule.length - k) * (3 * w.size + 4) + 2 + (w.size - i)
  | .leaving k _ _ => (w.schedule.length - k) * (3 * w.size + 4) + 1
  | .listed i => 2 * (w.size - i) + 1
  | .inside i => 2 * (w.size - i)
  | .ended _ => 0

def Status.rank : Status → Nat
  | .idle => 3
  | .ready => 2
  | .running => 1
  | .done => 0

def Plan.statusRank (w : Plan) (status : Place → Status) : Nat :=
  ∑ p ∈ Finset.range w.schedule.length ×ˢ Finset.range w.size, (status p).rank

def Plan.rank (w : Plan) (s : Running) : Nat := w.controlRank s.control + w.statusRank s.status

theorem statusRank_update (listed : w.Scheduled p) (falls : value.rank < (status p).rank) :
    w.statusRank (Function.update status p value) < w.statusRank status := by
  apply Finset.sum_lt_sum
  · intro r _
    by_cases same : r = p
    · subst same
      simpa using falls.le
    · rw [Function.update_of_ne same]
  · refine ⟨p, ?_, by simpa using falls⟩
    simp [groups_scheduled listed, index_lt_size listed]

theorem afterGroup_rank (inside : k < w.schedule.length) (result : Outcome Unit) :
    w.controlRank (afterGroup k result) < (w.schedule.length - k) * (3 * w.size + 4) + 1 := by
  cases result with
  | ok value =>
    obtain ⟨rest, length⟩ : ∃ rest, w.schedule.length - k = rest + 1 :=
      ⟨w.schedule.length - k - 1, by omega⟩
    have next : w.schedule.length - (k + 1) = rest := by omega
    simp only [afterGroup, Plan.controlRank, next, length, Nat.add_mul]
    omega
  | err message => exact Nat.succ_pos _
  | panic => exact Nat.succ_pos _

theorem afterLoad_rank (less : i < w.size) (result : Outcome Unit) :
    w.controlRank (afterLoad k i result) < w.controlRank (.loading k i) := by
  cases result <;> simp only [afterLoad, afterGroup, Plan.controlRank] <;> omega

theorem afterSpawn_rank (less : i < w.size) (result : Outcome Unit) :
    w.controlRank (afterSpawn k i result) < w.controlRank (.spawning k i) := by
  cases result <;> simp only [afterSpawn, Plan.controlRank] <;> omega

theorem afterJoin_rank (less : i < w.size) (result : Outcome Unit) :
    w.controlRank (afterJoin k i result) < w.controlRank (.joining k i) := by
  cases result <;> simp only [afterJoin, Plan.controlRank] <;> omega

theorem afterInline_rank (less : i < w.size) (result : Outcome Unit) :
    w.controlRank (afterInline i result) < w.controlRank (.inside i) := by
  cases result <;> simp only [afterInline, Plan.controlRank] <;> omega

/-- A step of the calling thread alone. -/
theorem rank_lt_of_control {s t : Running} (kept : t.status = s.status) (here : s.control = before)
    (falls : w.controlRank t.control < w.controlRank before) : w.rank t < w.rank s := by
  rw [Plan.rank, Plan.rank, kept, here]
  exact Nat.add_lt_add_right falls _

/-- A step of the calling thread that also moves an app thread. -/
theorem rank_lt_of_both {s t : Running} (here : s.control = before)
    (falls : w.controlRank t.control < w.controlRank before)
    (moved : w.statusRank t.status < w.statusRank s.status) : w.rank t < w.rank s := by
  rw [Plan.rank, Plan.rank, here]
  exact Nat.add_lt_add falls moved

/-- Every step uses up part of the schedule. -/
theorem step_rank {s t : Running} (held : s.Sound w o) (stepped : Step w o s e t) :
    w.rank t < w.rank s := by
  obtain ⟨q, held, stage⟩ := held
  cases stepped with
  | load here found =>
    exact rank_lt_of_control rfl here (afterLoad_rank (index_lt_size (scheduled_of_app found)) _)
  | loaded here last inside =>
    refine rank_lt_of_control rfl here ?_
    simp only [Plan.controlRank]
    omega
  | spawn here found good =>
    obtain ⟨place, loads, spawned, idle⟩ := here ▸ stage
    have listed := scheduled_of_app found
    apply rank_lt_of_both here
    · exact afterSpawn_rank (index_lt_size listed : _ < w.size) (.ok ())
    · exact statusRank_update listed (by rw [idle _ le_rfl]; decide)
  | spawnFailed here found bad =>
    exact rank_lt_of_control rfl here (afterSpawn_rank (index_lt_size (scheduled_of_app found)) _)
  | spawned here last =>
    refine rank_lt_of_control rfl here ?_
    simp only [Plan.controlRank]
    omega
  | join here found finished =>
    exact rank_lt_of_control rfl here (afterJoin_rank (index_lt_size (scheduled_of_app found)) _)
  | joined here last =>
    refine rank_lt_of_control rfl here ?_
    simp only [Plan.controlRank]
    omega
  | leave here settled =>
    obtain ⟨place, passed, broken⟩ := here ▸ stage
    exact rank_lt_of_control rfl here (afterGroup_rank place.inside _)
  | groupsEnd here last =>
    refine rank_lt_of_control rfl here ?_
    simp only [Plan.controlRank]
    omega
  | call here found good =>
    obtain ⟨⟨sequence, rfl⟩, idle⟩ := here ▸ stage
    apply rank_lt_of_both here
    · simp only [Plan.controlRank]
      omega
    · exact statusRank_update (scheduled_of_app found) (by rw [idle]; decide)
  | callFailed here found bad =>
    refine rank_lt_of_control rfl here ?_
    exact (afterInline_rank (index_lt_size (scheduled_of_app found)) _).trans (Nat.lt_succ_self _)
  | returned here found finished =>
    exact rank_lt_of_control rfl here (afterInline_rank (index_lt_size (scheduled_of_app found)) _)
  | sequenceEnd here last => exact rank_lt_of_control rfl here (Nat.succ_pos _)
  | start ready =>
    have listed := held.scheduled _ (by rw [ready]; decide)
    exact Nat.add_lt_add_left (statusRank_update listed (by rw [ready]; decide)) _
  | finish running =>
    have listed := held.scheduled _ (by rw [running]; decide)
    exact Nat.add_lt_add_left (statusRank_update listed (by rw [running]; decide)) _

/-- An app thread that is not over can take a step. -/
theorem live_progress {s : Running} (active : s.status p ≠ .idle)
    (unfinished : s.status p ≠ .done) :
    ∃ e t, Step w o s e t := by
  cases status : s.status p with
  | idle => exact absurd status active
  | ready => exact ⟨_, _, .start status⟩
  | running => exact ⟨_, _, .finish status⟩
  | done => exact absurd status unfinished

theorem progress {s : Running} (held : s.Sound w o) :
    (∃ result, s.control = .ended result) ∨ ∃ e t, Step w o s e t := by
  obtain ⟨q, held, stage⟩ := held
  cases here : s.control with
  | loading k i =>
    right
    cases found : w.app (k, i) with
    | some app => exact ⟨_, _, .load here found⟩
    | none =>
      by_cases inside : k < w.schedule.length
      · exact ⟨_, _, .loaded here found inside⟩
      · exact ⟨_, _, .groupsEnd here (Nat.le_of_not_lt inside)⟩
  | spawning k i =>
    right
    cases found : w.app (k, i) with
    | some app =>
      by_cases good : o.spawn (k, i) = .ok ()
      · exact ⟨_, _, .spawn here found good⟩
      · exact ⟨_, _, .spawnFailed here found good⟩
    | none => exact ⟨_, _, .spawned here found⟩
  | joining k i =>
    right
    obtain ⟨place, loads, spawned, joined⟩ := here ▸ stage
    cases found : w.app (k, i) with
    | some app =>
      by_cases finished : s.status (k, i) = .done
      · exact ⟨_, _, .join here found finished⟩
      · exact live_progress (spawned i (scheduled_of_app found)).2 finished
    | none => exact ⟨_, _, .joined here found⟩
  | leaving k joined result =>
    right
    by_cases settled : ∀ i, s.status (k, i) = .idle ∨ s.status (k, i) = .done
    · exact ⟨_, _, .leave here settled⟩
    · push Not at settled
      obtain ⟨i, active, unfinished⟩ := settled
      exact live_progress active unfinished
  | listed i =>
    right
    cases found : w.app (0, i) with
    | some app =>
      by_cases good : o.load (0, i) = .ok ()
      · exact ⟨_, _, .call here found good⟩
      · exact ⟨_, _, .callFailed here found good⟩
    | none => exact ⟨_, _, .sequenceEnd here found⟩
  | inside i =>
    right
    obtain ⟨⟨sequence, rfl⟩, load, active⟩ := here ▸ stage
    cases found : w.app (0, i) with
    | some app =>
      by_cases finished : s.status (0, i) = .done
      · exact ⟨_, _, .returned here found finished⟩
      · exact live_progress active finished
    | none => exact absurd (held.scheduled _ active) (app_none_iff.mp found)
  | ended result => exact .inl ⟨result, rfl⟩

end Termination

/-- The starts and ends in a trace are those of the app threads. -/
structure Traced (es : List Event) (status : Place → Status) : Prop where
  started : ∀ p, .start p ∈ es ↔ status p = .running ∨ status p = .done
  finished : ∀ p, .finish p ∈ es ↔ status p = .done

theorem traced_begin (w : Plan) : Traced [] w.begin.status where
  started := by simp [Plan.begin]
  finished := by simp [Plan.begin]

namespace Traced
variable {status after : Place → Status}

theorem quiet (held : Traced es status) (label : ∀ p, e ≠ .start p ∧ e ≠ .finish p)
    (same : ∀ p, after p = status p ∨ status p = .idle ∧ after p = .ready) :
    Traced (es ++ [e]) after where
  started p := by
    rw [List.mem_append, held.started, List.mem_singleton]
    rcases same p with same | ⟨idle, ready⟩
    · simp [same, (label p).1.symm]
    · simp [idle, ready, (label p).1.symm]
  finished p := by
    rw [List.mem_append, held.finished, List.mem_singleton]
    rcases same p with same | ⟨idle, ready⟩
    · simp [same, (label p).2.symm]
    · simp [idle, ready, (label p).2.symm]

theorem launch (held : Traced es status) (label : ∀ p, e ≠ .start p ∧ e ≠ .finish p)
    (idle : status q = .idle) : Traced (es ++ [e]) (Function.update status q .ready) := by
  refine held.quiet label fun p => ?_
  by_cases same : p = q
  · subst same
    exact .inr ⟨idle, by simp⟩
  · exact .inl (Function.update_of_ne same _ _)

theorem start (held : Traced es status) (ready : status q = .ready) :
    Traced (es ++ [.start q]) (Function.update status q .running) where
  started p := by
    rw [List.mem_append, held.started, List.mem_singleton, Event.start.injEq]
    by_cases same : p = q
    · simp [same]
    · simp [same]
  finished p := by
    rw [List.mem_append, held.finished, List.mem_singleton]
    by_cases same : p = q
    · simp [same, ready]
    · simp [same]

theorem finish (held : Traced es status) (running : status q = .running) :
    Traced (es ++ [.finish q]) (Function.update status q .done) where
  started p := by
    rw [List.mem_append, held.started, List.mem_singleton]
    by_cases same : p = q
    · simp [same, running]
    · simp [same]
  finished p := by
    rw [List.mem_append, held.finished, List.mem_singleton, Event.finish.injEq]
    by_cases same : p = q
    · simp [same]
    · simp [same]

theorem step {s t : Running} (held : Traced es s.status) (sound : s.Sound w o)
    (stepped : Step w o s e t) : Traced (es ++ [e]) t.status := by
  obtain ⟨q, frontier, stage⟩ := sound
  cases stepped with
  | spawn here found good =>
    obtain ⟨_, _, _, idle⟩ := here ▸ stage
    exact held.launch (by simp) (idle _ le_rfl)
  | call here found good =>
    obtain ⟨⟨_, rfl⟩, idle⟩ := here ▸ stage
    exact held.launch (by simp) idle
  | start ready => exact held.start ready
  | finish running => exact held.finish running
  | _ => exact held.quiet (by simp) fun p => .inl rfl

end Traced

section Verdict
variable {w : Plan} {o : Outcomes} {t : Running}

theorem run_sound (run : Run (Step w o) w.begin es t) : t.Sound w o ∧ Traced es t.status :=
  run.history (P := fun es s => s.Sound w o ∧ Traced es s.status)
    (fun held stepped => ⟨step_sound held.1 stepped, held.2.step held.1 stepped⟩)
    ⟨begin_sound w o, traced_begin w⟩

theorem active_of_start (traced : Traced es t.status) (started : .start p ∈ es) :
    t.status p ≠ .idle := by
  intro idle
  simpa [idle] using (traced.started p).mp started

/-- Before an app starts, every app that comes before it has run without a failure. -/
theorem start_after (run : Run (Step w o) w.begin (before ++ .start q :: later) t)
    (listed : w.Scheduled p) (order : w.Before p q) : .finish p ∈ before ∧ Clean w o p := by
  obtain ⟨s, first, rest⟩ := run.split
  obtain ⟨⟨r, frontier, _⟩, traced⟩ := run_sound first
  cases rest with
  | cons stepped _ =>
    cases stepped with
    | start ready =>
      obtain ⟨finished, clean⟩ := frontier.passed_before (by rw [ready]; decide) order listed
      exact ⟨(traced.finished p).mpr finished, clean⟩

theorem start_loaded (run : Run (Step w o) w.begin es t) (groups : w.groups ≠ [])
    (started : .start (k, j) ∈ es) (listed : w.Scheduled (k, i)) : o.load (k, i) = .ok () := by
  obtain ⟨⟨q, frontier, _⟩, traced⟩ := run_sound run
  have active := active_of_start traced started
  by_cases earlier : w.Before (k, i) q
  · exact (frontier.past _ listed earlier).2.load
  · have reached : ¬ w.Before q (k, j) := fun later => active (frontier.future _ later)
    have here : k = q.1 := by
      simp only [Plan.Before, groups, false_and, or_false] at earlier reached
      omega
    subst here
    exact frontier.loaded groups j active i listed

theorem start_passed (run : Run (Step w o) w.begin es t) (started : .start q ∈ es)
    (listed : w.Scheduled p) (order : w.Before p q) : Clean w o p := by
  obtain ⟨⟨r, frontier, _⟩, traced⟩ := run_sound run
  exact (frontier.passed_before (active_of_start traced started) order listed).2

theorem ended_ok (run : Run (Step w o) w.begin es t) (ended : t.control = .ended (.ok ()))
    (listed : w.Scheduled p) : Clean w o p := by
  obtain ⟨⟨q, _, stage⟩, _⟩ := run_sound run
  obtain ⟨_, passed, _⟩ := ended ▸ stage
  exact ((passed rfl).1 p listed).2

theorem ended_iff (run : Run (Step w o) w.begin es t) (ended : t.control = .ended result) :
    result = .ok () ↔ ∀ p, w.Scheduled p → .start p ∈ es ∧ .finish p ∈ es ∧
      w.result o p = .ok () := by
  obtain ⟨⟨q, _, stage⟩, traced⟩ := run_sound run
  obtain ⟨_, passed, broken⟩ := ended ▸ stage
  constructor
  · intro good p listed
    obtain ⟨finished, clean⟩ := (passed good).1 p listed
    exact ⟨(traced.started p).mpr (.inr finished), (traced.finished p).mpr finished, clean.result⟩
  · intro all
    by_contra bad
    obtain ⟨p, listed, idle | failed⟩ := broken bad
    · exact active_of_start traced (all p listed).1 idle
    · exact failed (all p listed).2.2

theorem ended_marked (run : Run (Step w o) w.begin es t) (ended : t.control = .ended (.ok ())) :
    Mark.isolEnd ∈ t.marks := by
  obtain ⟨⟨q, _, stage⟩, _⟩ := run_sound run
  obtain ⟨_, passed, _⟩ := ended ▸ stage
  exact (passed rfl).2

end Verdict

/-- What a trace of `run` and the state after it look like. The apps of the schedule are the
entries of the groups, or of `apps` when there are no groups. -/
structure Disciplined (w : Plan) (o : Outcomes) (es : List Event) (t : Running) : Prop where
  barrier : w.groups ≠ [] → ∀ before k j later, es = before ++ .start (k + 1, j) :: later →
    ∀ i, .start (k, i) ∈ es → .finish (k, i) ∈ before
  loadFailure : w.groups ≠ [] → ∀ k i, w.Scheduled (k, i) → o.load (k, i) ≠ .ok () →
    ∀ j, .start (k, j) ∉ es
  failure : w.groups ≠ [] → ∀ k i, w.Scheduled (k, i) → ¬ Clean w o (k, i) →
    (∀ l > k, ∀ j, .start (l, j) ∉ es) ∧ t.control ≠ .ended (.ok ())
  sequence : w.groups = [] → ∀ before k j later, es = before ++ .start (k, j) :: later →
    k = 0 ∧ (w.app (0, j)).map App.name = w.appNames[j]? ∧
      ∀ i < j, .finish (0, i) ∈ before ∧ Clean w o (0, i)
  verdict : ∀ result, t.control = .ended result →
    (result = .ok () ↔ ∀ p, w.Scheduled p → .start p ∈ es ∧ .finish p ∈ es ∧
      w.result o p = .ok ()) ∧
    (result = .ok () → Mark.isolEnd ∈ t.marks)
  progress : (∃ result, t.control = .ended result) ∨ ∃ e u, Step w o t e u

theorem sequence_app {w : Plan} (sequence : w.groups = []) (i : Nat) :
    (w.app (0, i)).map App.name = w.appNames[i]? := by
  simp [Plan.app, Plan.group, Plan.schedule, sequence, Function.comp_def]

theorem run_disciplined {w : Plan} {o : Outcomes} (run : Run (Step w o) w.begin es t) :
    Disciplined w o es t := by
  obtain ⟨⟨q, frontier, stage⟩, traced⟩ := run_sound run
  have scheduled (p) (started : .start p ∈ es) : w.Scheduled p :=
    frontier.scheduled p (active_of_start traced started)
  constructor
  · rintro _ before k j later rfl i started
    exact (start_after run (scheduled _ started) (.inl (Nat.lt_succ_self k))).1
  · intro groups k i listed failed j started
    exact failed (start_loaded run groups started listed)
  · intro _ k i listed failed
    refine ⟨fun l above j started => ?_, fun ended => failed (ended_ok run ended listed)⟩
    exact failed (start_passed run started listed (.inl above))
  · rintro sequence before k j later rfl
    have listed := scheduled (k, j) (by simp)
    obtain rfl : k = 0 := sequence_scheduled sequence listed
    refine ⟨rfl, sequence_app sequence j, fun i less => ?_⟩
    exact start_after run (Nat.lt_trans less listed) (.inr ⟨sequence, rfl, less⟩)
  · intro result ended
    refine ⟨ended_iff run ended, ?_⟩
    rintro rfl
    exact ended_marked run ended
  · exact progress ⟨q, frontier, stage⟩

/-- Every run of `Isolation::run` is finite and disciplined, whatever the loads, the thread
creations and the apps return and however the threads interleave. -/
theorem isolation_run_disciplined (config : IsolationConfig) (o : Outcomes) :
    (∃ bound, ∀ es t, Run (Step (newIsolation config) o) (newIsolation config).begin es t →
      es.length ≤ bound) ∧
    ∀ es t, Run (Step (newIsolation config) o) (newIsolation config).begin es t →
      Disciplined (newIsolation config) o es t := by
  refine ⟨⟨(newIsolation config).rank (newIsolation config).begin, fun es t run => ?_⟩,
    fun es t run => run_disciplined run⟩
  have spent := run.bounded (P := Running.Sound (newIsolation config) o) step_sound step_rank
    (begin_sound _ _)
  omega

/-- A group of two sorters before a group of one checker. -/
def stagesConfig : IsolationConfig where
  apps := [("sorter", "libsorter.so"), ("checker", "libchecker.so")]
  groups := [{ list := [.name "sorter", .name "sorter"], args := fun _ => none },
    { list := [.name "checker"], args := fun _ => none }]

/-- Two apps are configured, one of them in a group. -/
def sorterConfig : IsolationConfig where
  apps := [("sorter", "libsorter.so"), ("checker", "libchecker.so")]
  groups := [{ list := [.name "sorter"], args := fun _ => none }]

def allOk : Outcomes where
  load _ := .ok ()
  spawn _ := .ok ()
  run _ _ := .ok ()

def stagesTrace : List Event :=
  [.load (0, 0), .load (0, 1), .move, .spawn (0, 0), .spawn (0, 1), .move, .start (0, 1),
    .start (0, 0), .finish (0, 0), .finish (0, 1), .join (0, 0), .join (0, 1), .move, .move,
    .load (1, 0), .move, .spawn (1, 0), .move, .start (1, 0), .finish (1, 0), .join (1, 0), .move,
    .move, .move]

def sorterTrace : List Event :=
  [.load (0, 0), .move, .spawn (0, 0), .move, .start (0, 0), .finish (0, 0), .join (0, 0), .move,
    .move, .move]

theorem sorter_app (p : Place) : (newIsolation sorterConfig).app p = none ∨
    p = (0, 0) ∧ ((newIsolation sorterConfig).app p).map App.name = some "sorter" := by
  obtain ⟨k, i⟩ := p
  match k, i with
  | 0, 0 => exact .inr ⟨rfl, rfl⟩
  | 0, i + 1 => exact .inl rfl
  | k + 1, i => exact .inl rfl

theorem sorter_run :
    ∃ t, Run (Step (newIsolation sorterConfig) allOk) (newIsolation sorterConfig).begin
    sorterTrace t ∧ t.control = .ended (.ok ()) := by
  refine ⟨_, .cons (.load (k := 0) (i := 0) rfl rfl) <|
    .cons (.loaded rfl rfl (by decide)) <| .cons (.spawn rfl rfl rfl) <| .cons (.spawned rfl rfl) <|
    .cons (.start rfl) <| .cons (.finish rfl) <| .cons (.join rfl rfl rfl) <| .cons
      (.joined rfl rfl) <|
    .cons (.leave rfl ?_) <| .cons (.groupsEnd (k := 1) (i := 0) ?_ le_rfl) <| .nil _, rfl⟩
  · intro i
    cases i with
    | zero => exact .inr rfl
    | succ i => exact .inl rfl
  · rfl

theorem stages_run :
    ∃ t, Run (Step (newIsolation stagesConfig) allOk) (newIsolation stagesConfig).begin
    stagesTrace t ∧ t.control = .ended (.ok ()) := by
  refine ⟨_, .cons (.load (k := 0) (i := 0) rfl rfl) <| .cons (.load (k := 0) (i := 1) rfl rfl) <|
    .cons (.loaded rfl rfl (by decide)) <| .cons (.spawn rfl rfl rfl) <|
    .cons (.spawn rfl rfl rfl) <| .cons (.spawned rfl rfl) <| .cons (.start rfl) <|
    .cons (.start rfl) <| .cons (.finish rfl) <| .cons (.finish rfl) <| .cons (.join rfl rfl rfl) <|
    .cons (.join rfl rfl rfl) <| .cons (.joined rfl rfl) <| .cons (.leave rfl ?_) <|
    .cons (.load (k := 1) (i := 0) ?_ rfl) <| .cons (.loaded rfl rfl (by decide)) <|
    .cons (.spawn rfl rfl rfl) <| .cons (.spawned rfl rfl) <| .cons (.start rfl) <|
    .cons (.finish rfl) <| .cons (.join rfl rfl rfl) <| .cons (.joined rfl rfl) <|
    .cons (.leave rfl ?_) <| .cons (.groupsEnd (k := 2) (i := 0) ?_ le_rfl) <| .nil _, rfl⟩
  · intro i
    match i with
    | 0 | 1 => exact .inr rfl
    | i + 2 => exact .inl rfl
  · rfl
  · intro i
    match i with
    | 0 => exact .inr rfl
    | i + 1 => exact .inl rfl
  · rfl

theorem stages_run_disciplined : ∃ t, t.control = .ended (.ok ()) ∧
    Disciplined (newIsolation stagesConfig) allOk stagesTrace t := by
  obtain ⟨t, run, ended⟩ := stages_run
  exact ⟨t, ended, (isolation_run_disciplined stagesConfig allOk).2 stagesTrace t run⟩

/-- `run` returns `Ok` although the configured app `checker` never starts: with groups, only
their entries are run. -/
theorem ungrouped_app_not_run :
    ¬ ∀ config o es t,
    Run (Step (newIsolation config) o) (newIsolation config).begin es t →
      t.control = .ended (.ok ()) →
    ∀ name ∈ (newIsolation config).appNames,
      ∃ p, .start p ∈ es ∧ ((newIsolation config).app p).map App.name = some name := by
  intro all
  obtain ⟨t, run, ended⟩ := sorter_run
  obtain ⟨p, _, named⟩ := all sorterConfig allOk sorterTrace t run ended "checker" (by decide)
  rcases sorter_app p with none | ⟨_, sorter⟩
  · simp [none] at named
  · simp [sorter] at named

end AlloyStack.Visor.Workflow
