import Mathlib.Algebra.BigOperators.Group.Finset.Basic
import Mathlib.Algebra.Order.BigOperators.Group.Finset
import AlloyStack.Visor.WorkflowRun

/-! The order that `Isolation::run` imposes on the apps of a config, over every interleaving
of the calling thread with the app threads. -/
namespace AlloyStack.Visor.Workflow
open Rust Transition

def Plan.Scheduled (w : Plan) (p : Place) : Prop := p.2 < (w.group p.1).length

theorem scheduled_of_app {w : Plan} (found : w.app p = some app) : w.Scheduled p :=
  (List.getElem?_eq_some_iff.mp found).1

theorem app_none_iff {w : Plan} : w.app p = none ↔ ¬ w.Scheduled p := by
  rw [Plan.app, List.getElem?_eq_none_iff, Plan.Scheduled, Nat.not_lt]

/-- The result of `Service::run` at a place. -/
def Plan.result (w : Plan) (o : Outcomes) (p : Place) : Outcome Unit :=
  match w.app p with
  | some app => o.run p app.args
  | none => .ok ()

theorem result_of_app {w : Plan} (found : w.app p = some app) :
    w.result o p = o.run p app.args := by
  rw [Plan.result, found]

/-- Nothing goes wrong at the place. A sequence creates no threads. -/
structure Clean (w : Plan) (o : Outcomes) (p : Place) : Prop where
  load : o.load p = .ok ()
  spawn : w.groups ≠ [] → o.spawn p = .ok ()
  result : w.result o p = .ok ()

/-- `p` has to be over before `q` may start. -/
def Plan.Before (w : Plan) (p q : Place) : Prop :=
  p.1 < q.1 ∨ w.groups = [] ∧ p.1 = q.1 ∧ p.2 < q.2

theorem Plan.Before.irrefl (w : Plan) (p : Place) : ¬ w.Before p p := by
  simp [Plan.Before]

/-- The order is a strict weak one: its ties are groups, or single apps in a sequence. -/
theorem Plan.Before.of_not_after {w : Plan} (first : w.Before p q) (tie : ¬ w.Before r q) :
    w.Before p r := by
  unfold Plan.Before at *
  by_cases sequence : w.groups = []
  · simp only [sequence, true_and] at *
    omega
  · simp only [sequence, false_and, or_false] at *
    omega

def Passed (w : Plan) (o : Outcomes) (status : Place → Status) (p : Place) : Prop :=
  status p = .done ∧ Clean w o p

/-- The apps are over before the frontier and untouched behind it. -/
structure Frontier (w : Plan) (o : Outcomes) (status : Place → Status) (q : Place) : Prop where
  scheduled : ∀ p, status p ≠ .idle → w.Scheduled p
  past : ∀ p, w.Scheduled p → w.Before p q → Passed w o status p
  future : ∀ p, w.Before q p → status p = .idle
  loaded : w.groups ≠ [] → ∀ i, status (q.1, i) ≠ .idle →
    ∀ j < (w.group q.1).length, o.load (q.1, j) = .ok ()

/-- Some app was not started, or did not return `Ok`. -/
def Broken (w : Plan) (o : Outcomes) (status : Place → Status) : Prop :=
  ∃ p, w.Scheduled p ∧ (status p = .idle ∨ w.result o p ≠ .ok ())

/-- What the calling thread knows about its own group. -/
structure InGroup (w : Plan) (q : Place) (k : Nat) : Prop where
  groups : w.groups ≠ []
  here : q.1 = k
  inside : k < w.schedule.length

structure InSequence (w : Plan) (q : Place) (i : Nat) : Prop where
  groups : w.groups = []
  here : q = (0, i)

def Stage (w : Plan) (o : Outcomes) (status : Place → Status) (marks : List Mark) (q : Place) :
    Control → Prop
  | .loading k i => w.groups ≠ [] ∧ q.1 = k ∧ (∀ j, status (k, j) = .idle) ∧
      ∀ j < i, o.load (k, j) = .ok ()
  | .spawning k i => InGroup w q k ∧ (∀ j < (w.group k).length, o.load (k, j) = .ok ()) ∧
      (∀ j < i, o.spawn (k, j) = .ok () ∧ status (k, j) ≠ .idle) ∧ ∀ j ≥ i, status (k, j) = .idle
  | .joining k i => InGroup w q k ∧ (∀ j < (w.group k).length, o.load (k, j) = .ok ()) ∧
      (∀ j < (w.group k).length, o.spawn (k, j) = .ok () ∧ status (k, j) ≠ .idle) ∧
      ∀ j < i, status (k, j) = .done ∧ w.result o (k, j) = .ok ()
  | .leaving k _ result => InGroup w q k ∧
      (result = .ok () → ∀ j < (w.group k).length, Passed w o status (k, j)) ∧
      (result ≠ .ok () → Broken w o status)
  | .listed i => InSequence w q i ∧ status q = .idle
  | .inside i => InSequence w q i ∧ o.load q = .ok () ∧ status q ≠ .idle
  | .ended result => (∀ p, status p = .idle ∨ status p = .done) ∧
      (result = .ok () → (∀ p, w.Scheduled p → Passed w o status p) ∧ Mark.isolEnd ∈ marks) ∧
      (result ≠ .ok () → Broken w o status)

def Running.Sound (w : Plan) (o : Outcomes) (s : Running) : Prop :=
  ∃ q, Frontier w o s.status q ∧ Stage w o s.status s.marks q s.control

/-- An app thread moves on: what was untouched or over stays so. -/
structure Moves (status after : Place → Status) : Prop where
  idle : ∀ p, after p = .idle ↔ status p = .idle
  done : ∀ p, status p = .done → after p = .done

namespace Moves
variable {w : Plan} {o : Outcomes} {status after : Place → Status}

theorem update (live : status p = .ready ∨ status p = .running) (next : value ≠ .idle) :
    Moves status (Function.update status p value) where
  idle r := by
    by_cases same : r = p
    · subst same
      rcases live with live | live <;> simp [live, next]
    · rw [Function.update_of_ne same]
  done r finished := by
    have other : r ≠ p := by
      rintro rfl
      rcases live with live | live <;> simp [live] at finished
    rwa [Function.update_of_ne other]

theorem passed (moves : Moves status after) (held : Passed w o status p) : Passed w o after p :=
  ⟨moves.done p held.1, held.2⟩

theorem active (moves : Moves status after) : after p ≠ .idle ↔ status p ≠ .idle :=
  not_congr (moves.idle p)

theorem broken (moves : Moves status after) (held : Broken w o status) : Broken w o after := by
  obtain ⟨p, listed, failed⟩ := held
  exact ⟨p, listed, failed.imp (moves.idle p).mpr id⟩

theorem frontier (moves : Moves status after) (held : Frontier w o status q) :
    Frontier w o after q where
  scheduled p active := held.scheduled p (moves.active.mp active)
  past p listed before := moves.passed (held.past p listed before)
  future p later := (moves.idle p).mpr (held.future p later)
  loaded groups i active := held.loaded groups i (moves.active.mp active)

theorem stage {control : Control} (moves : Moves status after)
    (held : Stage w o status marks q control) : Stage w o after marks q control := by
  cases control with
  | loading k i =>
    obtain ⟨groups, here, idle, loads⟩ := held
    exact ⟨groups, here, fun j => (moves.idle _).mpr (idle j), loads⟩
  | spawning k i =>
    obtain ⟨place, loads, spawned, idle⟩ := held
    exact ⟨place, loads, fun j less => ⟨(spawned j less).1, moves.active.mpr (spawned j less).2⟩,
      fun j least => (moves.idle _).mpr (idle j least)⟩
  | joining k i =>
    obtain ⟨place, loads, spawned, joined⟩ := held
    exact ⟨place, loads, fun j less => ⟨(spawned j less).1, moves.active.mpr (spawned j less).2⟩,
      fun j less => ⟨moves.done _ (joined j less).1, (joined j less).2⟩⟩
  | leaving k joined result =>
    obtain ⟨place, passed, broken⟩ := held
    exact ⟨place, fun good j less => moves.passed (passed good j less),
      fun bad => moves.broken (broken bad)⟩
  | listed i => exact ⟨held.1, (moves.idle q).mpr held.2⟩
  | inside i => exact ⟨held.1, held.2.1, moves.active.mpr held.2.2⟩
  | ended result =>
    obtain ⟨settled, passed, broken⟩ := held
    refine ⟨fun p => (settled p).imp (moves.idle p).mpr (moves.done p), fun good => ?_,
      fun bad => moves.broken (broken bad)⟩
    exact ⟨fun p listed => moves.passed ((passed good).1 p listed), (passed good).2⟩

end Moves

namespace Frontier
variable {w : Plan} {o : Outcomes} {status : Place → Status}

theorem settled (held : Frontier w o status q)
    (tie : ∀ p, ¬ w.Before p q → ¬ w.Before q p → status p = .idle ∨ status p = .done) (p : Place) :
    status p = .idle ∨ status p = .done := by
  by_cases idle : status p = .idle
  · exact .inl idle
  · by_cases earlier : w.Before p q
    · exact .inr (held.past p (held.scheduled p idle) earlier).1
    · by_cases later : w.Before q p
      · exact .inl (held.future p later)
      · exact tie p earlier later

theorem passed_before (held : Frontier w o status r) (active : status q ≠ .idle)
    (before : w.Before p q) (listed : w.Scheduled p) : Passed w o status p := by
  have reached : ¬ w.Before r q := fun later => active (held.future q later)
  exact held.past p listed (before.of_not_after reached)

theorem launch (held : Frontier w o status q) (listed : w.Scheduled p) (earlier : ¬ w.Before p q)
    (later : ¬ w.Before q p)
    (loads : w.groups ≠ [] → ∀ j < (w.group q.1).length, o.load (q.1, j) = .ok ()) :
    Frontier w o (Function.update status p .ready) q where
  scheduled r active := by
    by_cases same : r = p
    · exact same ▸ listed
    · exact held.scheduled r (by rwa [Function.update_of_ne same] at active)
  past r scheduled before := by
    have other : r ≠ p := by
      rintro rfl
      exact earlier before
    obtain ⟨finished, clean⟩ := held.past r scheduled before
    exact ⟨by rwa [Function.update_of_ne other], clean⟩
  future r behind := by
    have other : r ≠ p := by
      rintro rfl
      exact later behind
    rw [Function.update_of_ne other]
    exact held.future r behind
  loaded groups _ _ := loads groups

theorem advance (held : Frontier w o status q) (order : ∀ p, w.Before r p → w.Before q p)
    (passed : ∀ p, w.Scheduled p → ¬ w.Before p q → w.Before p r → Passed w o status p)
    (fresh : w.groups ≠ [] → ∀ i, status (r.1, i) = .idle) : Frontier w o status r where
  scheduled := held.scheduled
  past p listed before := by
    by_cases earlier : w.Before p q
    · exact held.past p listed earlier
    · exact passed p listed earlier before
  future p later := held.future p (order p later)
  loaded groups i active := absurd (fresh groups i) active

end Frontier

theorem tie_of_groups {w : Plan} (groups : w.groups ≠ []) (earlier : ¬ w.Before p q)
    (later : ¬ w.Before q p) : p.1 = q.1 := by
  simp only [Plan.Before, groups, false_and, or_false] at earlier later
  omega

theorem tie_of_sequence {w : Plan} (sequence : w.groups = []) (earlier : ¬ w.Before p q)
    (later : ¬ w.Before q p) : p = q := by
  simp only [Plan.Before, sequence, true_and] at earlier later
  apply Prod.ext <;> omega

theorem sequence_scheduled {w : Plan} (sequence : w.groups = []) (listed : w.Scheduled p) :
    p.1 = 0 := by
  obtain ⟨k, i⟩ := p
  cases k with
  | zero => rfl
  | succ k => simp [Plan.Scheduled, Plan.group, Plan.schedule, sequence] at listed

theorem groups_scheduled {w : Plan} (listed : w.Scheduled p) : p.1 < w.schedule.length := by
  by_contra beyond
  simp [Plan.Scheduled, Plan.group, List.getElem?_eq_none (Nat.le_of_not_lt beyond)] at listed

theorem begin_sound (w : Plan) (o : Outcomes) : w.begin.Sound w o := by
  have untouched : Frontier w o w.begin.status (0, 0) := by
    refine ⟨fun p active => absurd rfl active, fun p listed before => ?_, fun p later => rfl,
      fun _ i active => absurd rfl active⟩
    simp [Plan.Before] at before
  refine ⟨(0, 0), untouched, ?_⟩
  by_cases sequence : w.groups = []
  · simp only [Plan.begin, sequence, List.isEmpty_nil, if_true]
    exact ⟨⟨sequence, rfl⟩, rfl⟩
  · simp only [Plan.begin, List.isEmpty_iff, sequence, if_false]
    exact ⟨sequence, rfl, fun _ => rfl, nofun⟩

section Failures
variable {result : Outcome Unit}

theorem afterGroup_failed (failed : result ≠ .ok ()) :
    ∃ final, final ≠ .ok () ∧ afterGroup k result = .ended final := by
  cases result with
  | ok value => exact absurd rfl failed
  | err message => refine ⟨_, ?_, rfl⟩; nofun
  | panic => refine ⟨_, ?_, rfl⟩; nofun

theorem afterLoad_failed (failed : result ≠ .ok ()) :
    afterLoad k i result = afterGroup k result := by
  cases result with
  | ok value => exact absurd rfl failed
  | err message => rfl
  | panic => rfl

theorem afterSpawn_failed (failed : result ≠ .ok ()) :
    afterSpawn k i result = .leaving k 0 result := by
  cases result with
  | ok value => exact absurd rfl failed
  | err message => rfl
  | panic => rfl

theorem afterJoin_failed (failed : result ≠ .ok ()) :
    afterJoin k i result = .leaving k (i + 1) result := by
  cases result with
  | ok value => exact absurd rfl failed
  | err message => rfl
  | panic => rfl

theorem afterInline_failed (failed : result ≠ .ok ()) :
    ∃ final, final ≠ .ok () ∧ afterInline i result = .ended final := by
  cases result with
  | ok value => exact absurd rfl failed
  | err message => refine ⟨_, ?_, rfl⟩; nofun
  | panic => refine ⟨_, ?_, rfl⟩; nofun

end Failures

section Steps
variable {w : Plan} {o : Outcomes} {status : Place → Status}

theorem stage_failed {control : Control} (held : Frontier w o status q)
    (tie : ∀ p, ¬ w.Before p q → ¬ w.Before q p → status p = .idle ∨ status p = .done)
    (broken : Broken w o status) (failed : ∃ final, final ≠ .ok () ∧ control = .ended final) :
    Stage w o status marks q control := by
  obtain ⟨final, bad, rfl⟩ := failed
  exact ⟨held.settled tie, fun good => absurd good bad, fun _ => broken⟩

theorem load_sound (held : Frontier w o status q) (stage : Stage w o status marks q (.loading k i))
    (found : w.app (k, i) = some app) :
    Stage w o status marks q (afterLoad k i (o.load (k, i))) := by
  obtain ⟨groups, rfl, idle, loads⟩ := stage
  by_cases good : o.load (q.1, i) = .ok ()
  · rw [good]
    refine ⟨groups, rfl, idle, fun j less => ?_⟩
    rcases Nat.lt_succ_iff_lt_or_eq.mp less with before | rfl
    · exact loads j before
    · exact good
  · rw [afterLoad_failed good]
    refine stage_failed held (fun p earlier later => .inl ?_)
      ⟨(q.1, i), scheduled_of_app found, .inl (idle i)⟩ (afterGroup_failed good)
    have here := tie_of_groups groups earlier later
    simpa [← here] using idle p.2

theorem loaded_sound (stage : Stage w o status marks q (.loading k i)) (last : w.app (k, i) = none)
    (inside : k < w.schedule.length) : Stage w o status marks q (.spawning k 0) := by
  obtain ⟨groups, here, idle, loads⟩ := stage
  have size := app_none_iff.mp last
  simp only [Plan.Scheduled] at size
  exact ⟨⟨groups, here, inside⟩, fun j less => loads j (by omega), nofun, fun j _ => idle j⟩

theorem spawn_sound (held : Frontier w o status q)
    (stage : Stage w o status marks q (.spawning k i)) (found : w.app (k, i) = some app)
    (good : o.spawn (k, i) = .ok ()) :
    Frontier w o (Function.update status (k, i) .ready) q ∧
      Stage w o (Function.update status (k, i) .ready) marks q (.spawning k (i + 1)) := by
  obtain ⟨⟨groups, rfl, inside⟩, loads, spawned, idle⟩ := stage
  have level (j : Nat) : ¬ w.Before (q.1, j) q ∧ ¬ w.Before q (q.1, j) := by
    simp [Plan.Before, groups]
  refine ⟨held.launch (scheduled_of_app found) (level i).1 (level i).2 fun _ => loads,
    ⟨groups, rfl, inside⟩, loads, fun j less => ?_, fun j least => ?_⟩
  · rcases Nat.lt_succ_iff_lt_or_eq.mp less with before | rfl
    · rw [Function.update_of_ne (by simp [before.ne])]
      exact spawned j before
    · simp [good]
  · rw [Function.update_of_ne (by simp; omega)]
    exact idle j (by omega)

theorem spawnFailed_sound (stage : Stage w o status marks q (.spawning k i))
    (found : w.app (k, i) = some app) (bad : o.spawn (k, i) ≠ .ok ()) :
    Stage w o status marks q (afterSpawn k i (o.spawn (k, i))) := by
  obtain ⟨place, loads, spawned, idle⟩ := stage
  rw [afterSpawn_failed bad]
  exact ⟨place, fun good => absurd good bad,
    fun _ => ⟨(k, i), scheduled_of_app found, .inl (idle i le_rfl)⟩⟩

theorem spawned_sound (stage : Stage w o status marks q (.spawning k i))
    (last : w.app (k, i) = none) : Stage w o status marks q (.joining k 0) := by
  obtain ⟨place, loads, spawned, idle⟩ := stage
  have size := app_none_iff.mp last
  simp only [Plan.Scheduled] at size
  exact ⟨place, loads, fun j less => spawned j (by omega), nofun⟩

theorem join_sound (stage : Stage w o status marks q (.joining k i))
    (found : w.app (k, i) = some app) (finished : status (k, i) = .done) :
    Stage w o status marks q (afterJoin k i (threadResult app (o.run (k, i) app.args))) := by
  obtain ⟨place, loads, spawned, joined⟩ := stage
  have returned : w.result o (k, i) = o.run (k, i) app.args := result_of_app found
  by_cases good : threadResult app (o.run (k, i) app.args) = .ok ()
  · rw [good]
    refine ⟨place, loads, spawned, fun j less => ?_⟩
    rcases Nat.lt_succ_iff_lt_or_eq.mp less with before | rfl
    · exact joined j before
    · exact ⟨finished, returned.trans (Outcome.mapErr_eq_ok.mp good)⟩
  · rw [afterJoin_failed good]
    refine ⟨place, fun fine => absurd fine good, fun _ => ⟨(k, i), scheduled_of_app found, .inr ?_⟩⟩
    rw [returned]
    exact fun fine => good (Outcome.mapErr_eq_ok.mpr fine)

theorem joined_sound (stage : Stage w o status marks q (.joining k i))
    (last : w.app (k, i) = none) : Stage w o status marks q (.leaving k i (.ok ())) := by
  obtain ⟨place, loads, spawned, joined⟩ := stage
  have size := app_none_iff.mp last
  simp only [Plan.Scheduled] at size
  refine ⟨place, fun _ j less => ?_, fun bad => absurd rfl bad⟩
  obtain ⟨finished, returned⟩ := joined j (by omega)
  exact ⟨finished, loads j less, fun _ => (spawned j less).1, returned⟩

/-- A panic of a thread that nobody joined is a failed app. -/
theorem scopeResult_cases (w : Plan) (o : Outcomes) (status : Place → Status) (k joined : Nat)
    (result : Outcome Unit) : scopeResult w o status k joined result = result ∨
      scopeResult w o status k joined result ≠ .ok () ∧ ∃ p, w.Scheduled p ∧ p.1 = k ∧
        w.result o p ≠ .ok () := by
  unfold scopeResult
  split
  · rename_i panicked
    obtain ⟨i, less, _, _, app, found, result⟩ := panicked
    refine .inr ⟨nofun, (k, i), less, rfl, ?_⟩
    rw [result_of_app found, result]
    nofun
  · exact .inl rfl

theorem leave_sound (held : Frontier w o status q)
    (stage : Stage w o status marks q (.leaving k joined result))
    (settled : ∀ i, status (k, i) = .idle ∨ status (k, i) = .done) :
    ∃ q, Frontier w o status q ∧
      Stage w o status marks q (afterGroup k (scopeResult w o status k joined result)) := by
  obtain ⟨⟨groups, rfl, inside⟩, passed, broken⟩ := stage
  have failing (bad : scopeResult w o status q.1 joined result ≠ .ok ())
      (broken : Broken w o status) :
      Stage w o status marks q (afterGroup q.1 (scopeResult w o status q.1 joined result)) := by
    refine stage_failed held (fun p earlier later => ?_) broken (afterGroup_failed bad)
    have here := tie_of_groups groups earlier later
    simpa [← here] using settled p.2
  rcases scopeResult_cases w o status q.1 joined result with same | ⟨bad, p, listed, _, failed⟩
  · by_cases good : result = .ok ()
    · rw [same, good]
      have order (p q : Place) : w.Before p q ↔ p.1 < q.1 := by simp [Plan.Before, groups]
      refine ⟨(q.1 + 1, 0), held.advance (fun p later => ?_) (fun p listed earlier before => ?_)
        fun _ i => held.future _ ((order _ _).mpr (Nat.lt_succ_self _)), groups, rfl,
        fun i => held.future _ ((order _ _).mpr (Nat.lt_succ_self _)), nofun⟩
      · rw [order] at later ⊢
        exact Nat.lt_of_succ_lt later
      · rw [order] at earlier before
        have here : p.1 = q.1 := by
          have := Nat.lt_succ_iff.mp before
          omega
        rw [show p = (q.1, p.2) from Prod.ext here rfl]
        exact passed good p.2 (by rw [← here]; exact listed)
    · exact ⟨q, held, failing (by rwa [same]) (broken good)⟩
  · exact ⟨q, held, failing bad ⟨p, listed, .inr failed⟩⟩

theorem stage_ended (held : Frontier w o status q)
    (passed : ∀ p, w.Scheduled p → ¬ w.Before p q → Passed w o status p) :
    Stage w o status (marks ++ [.mem, .isolEnd]) q (.ended (.ok ())) := by
  have all (p) (listed : w.Scheduled p) : Passed w o status p := by
    by_cases earlier : w.Before p q
    · exact held.past p listed earlier
    · exact passed p listed earlier
  refine ⟨fun p => ?_, fun _ => ⟨all, by simp⟩, fun bad => absurd rfl bad⟩
  by_cases idle : status p = .idle
  · exact .inl idle
  · exact .inr (all p (held.scheduled p idle)).1

theorem groupsEnd_sound (held : Frontier w o status q)
    (stage : Stage w o status marks q (.loading k i)) (last : w.schedule.length ≤ k) :
    Stage w o status (marks ++ [.mem, .isolEnd]) q (.ended (.ok ())) := by
  obtain ⟨groups, rfl, _, _⟩ := stage
  refine stage_ended held fun p listed notEarlier => ?_
  have inside := groups_scheduled listed
  exact absurd (.inl (by omega)) notEarlier

theorem sequenceEnd_sound (held : Frontier w o status q)
    (stage : Stage w o status marks q (.listed i)) (last : w.app (0, i) = none) :
    Stage w o status (marks ++ [.mem, .isolEnd]) q (.ended (.ok ())) := by
  obtain ⟨⟨sequence, rfl⟩, _⟩ := stage
  refine stage_ended held fun p listed notEarlier => ?_
  have first := sequence_scheduled sequence listed
  have size := app_none_iff.mp last
  simp only [Plan.Scheduled, first] at listed size
  exact absurd (.inr ⟨sequence, first, by omega⟩) notEarlier

theorem call_sound (held : Frontier w o status q) (stage : Stage w o status marks q (.listed i))
    (found : w.app (0, i) = some app) (good : o.load (0, i) = .ok ()) :
    Frontier w o (Function.update status (0, i) .ready) q ∧
      Stage w o (Function.update status (0, i) .ready) marks q (.inside i) := by
  obtain ⟨⟨sequence, rfl⟩, idle⟩ := stage
  refine ⟨held.launch (scheduled_of_app found) (Plan.Before.irrefl w _) (Plan.Before.irrefl w _)
    fun groups => absurd sequence groups, ⟨sequence, rfl⟩, good, ?_⟩
  simp

theorem callFailed_sound (held : Frontier w o status q)
    (stage : Stage w o status marks q (.listed i)) (found : w.app (0, i) = some app)
    (bad : o.load (0, i) ≠ .ok ()) :
    Stage w o status marks q (afterInline i ((o.load (0, i)).mapErr f)) := by
  obtain ⟨⟨sequence, rfl⟩, idle⟩ := stage
  refine stage_failed held (fun p earlier later => .inl ?_)
    ⟨(0, i), scheduled_of_app found, .inl idle⟩
    (afterInline_failed fun good => bad (Outcome.mapErr_eq_ok.mp good))
  rw [tie_of_sequence sequence earlier later]
  exact idle

theorem returned_sound (held : Frontier w o status q) (stage : Stage w o status marks q (.inside i))
    (found : w.app (0, i) = some app) (finished : status (0, i) = .done) :
    ∃ q, Frontier w o status q ∧
      Stage w o status marks q (afterInline i ((o.run (0, i) app.args).mapErr f)) := by
  obtain ⟨⟨sequence, rfl⟩, load, active⟩ := stage
  have order (p q : Place) : w.Before p q ↔ p.1 < q.1 ∨ p.1 = q.1 ∧ p.2 < q.2 := by
    simp [Plan.Before, sequence]
  have returned : w.result o (0, i) = o.run (0, i) app.args := result_of_app found
  by_cases good : o.run (0, i) app.args = .ok ()
  · have passed : Passed w o status (0, i) :=
      ⟨finished, load, fun groups => absurd sequence groups, returned.trans good⟩
    rw [good]
    refine ⟨(0, i + 1), held.advance (fun p later => ?_) (fun p listed earlier before => ?_)
      fun groups => absurd sequence groups, ⟨sequence, rfl⟩,
      held.future _ ((order _ _).mpr (.inr ⟨rfl, Nat.lt_succ_self i⟩))⟩
    · rw [order] at later ⊢
      omega
    · rw [order] at earlier before
      rwa [show p = (0, i) from Prod.ext (by omega) (by omega)]
  · refine ⟨(0, i), held, stage_failed held (fun p earlier later => .inr ?_)
      ⟨(0, i), scheduled_of_app found, .inr (returned ▸ good)⟩
      (afterInline_failed fun fine => good (Outcome.mapErr_eq_ok.mp fine))⟩
    rwa [tie_of_sequence sequence earlier later]

end Steps

theorem step_sound {w : Plan} {o : Outcomes} {s t : Running} (held : s.Sound w o)
    (stepped : Step w o s e t) : t.Sound w o := by
  obtain ⟨q, held, stage⟩ := held
  cases stepped with
  | load here found => exact ⟨q, held, load_sound held (here ▸ stage) found⟩
  | loaded here last inside => exact ⟨q, held, loaded_sound (here ▸ stage) last inside⟩
  | spawn here found good => exact ⟨q, spawn_sound held (here ▸ stage) found good⟩
  | spawnFailed here found bad => exact ⟨q, held, spawnFailed_sound (here ▸ stage) found bad⟩
  | spawned here last => exact ⟨q, held, spawned_sound (here ▸ stage) last⟩
  | join here found finished => exact ⟨q, held, join_sound (here ▸ stage) found finished⟩
  | joined here last => exact ⟨q, held, joined_sound (here ▸ stage) last⟩
  | leave here settled => exact leave_sound held (here ▸ stage) settled
  | groupsEnd here last => exact ⟨q, held, groupsEnd_sound held (here ▸ stage) last⟩
  | call here found good => exact ⟨q, call_sound held (here ▸ stage) found good⟩
  | callFailed here found bad => exact ⟨q, held, callFailed_sound held (here ▸ stage) found bad⟩
  | returned here found finished => exact returned_sound held (here ▸ stage) found finished
  | sequenceEnd here last => exact ⟨q, held, sequenceEnd_sound held (here ▸ stage) last⟩
  | start ready =>
    have moves : Moves s.status (Function.update s.status _ .running) := .update (.inl ready) nofun
    exact ⟨q, moves.frontier held, moves.stage stage⟩
  | finish running =>
    have moves : Moves s.status (Function.update s.status _ .done) := .update (.inr running) nofun
    exact ⟨q, moves.frontier held, moves.stage stage⟩

end AlloyStack.Visor.Workflow
