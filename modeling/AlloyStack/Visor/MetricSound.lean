import Mathlib.Data.List.Basic
import AlloyStack.Visor.Metric
import AlloyStack.Visor.WorkflowVerdict

/-! What `analyze` reports after a run. The invariant over the marks: the end mark of the
isolation is there exactly when `run` has succeeded, and in every service bucket the end marks
do not outnumber the run marks that they follow. -/
namespace AlloyStack.Visor.Metric
open Rust Workflow Transition

theorem millis_mono (later : first ≤ second) : millis first ≤ millis second :=
  Nat.div_le_div_right later

theorem micros_mono (later : first ≤ second) : micros first ≤ micros second :=
  Nat.div_le_div_right later

/-- Microseconds of a `Duration` fit in `u128`. -/
theorem micros_lt (small : now < horizon) : micros now < 2 ^ 128 := by
  unfold micros
  unfold horizon at small
  omega

theorem printable_lt_horizon (small : now < printable) : now < horizon := by
  unfold printable at small
  unfold horizon
  omega

theorem micros_lt_of_printable (small : now < printable) : micros now < 2 ^ 64 := by
  unfold printable at small
  unfold micros
  omega

section Durations

theorem durationMs_zero : durationMs 0 = some 0 := by
  rw [durationMs, Nat.cast_zero, Binary32.round_zero, Option.bind_some, zero_div,
    Binary32.round_zero]

theorem durationMs_finite (dur : Nat) (small : dur < 2 ^ 64) :
    ∃ ms, durationMs dur = some ms ∧ (0 < dur → 0 < ms) := by
  have bound : (dur : ℚ) < 2 ^ 64 := by exact_mod_cast small
  obtain ⟨rounded, first, upper⟩ :=
    Binary32.round_finite (x := dur) (Nat.cast_nonneg dur) (by linarith)
  have nonneg : 0 ≤ rounded := Binary32.round_nonneg (Nat.cast_nonneg dur) first
  obtain ⟨ms, second, -⟩ :=
    Binary32.round_finite (x := rounded / 1000) (by linarith) (by linarith)
  refine ⟨ms, by rw [durationMs, first, Option.bind_some, second], fun positive => ?_⟩
  have one : (1 : ℚ) ≤ dur := by exact_mod_cast positive
  have half := Binary32.round_lower (by norm_num; linarith) first
  have quarter := Binary32.round_lower (by norm_num; linarith) second
  linarith

-- One microsecond of a long run is lost in the last place.
example : durationMs 100000001 = some 100000 := by decide +kernel

/-- A negative duration of less than 2^103 microseconds, on 128 bits, is printed as `null`. -/
theorem durationMs_infinite {dur : Nat} (low : 2 ^ 128 - 2 ^ 103 ≤ dur)
    (high : dur < 2 ^ 128) : durationMs dur = none := by
  have infinite : Binary32.round dur = none := by
    refine Binary32.round_infinite ?_ (by exact_mod_cast high)
    have cast : ((2 ^ 128 - 2 ^ 103 : Nat) : ℚ) ≤ dur := Nat.cast_le.mpr low
    norm_num at cast ⊢
    exact cast
  rw [durationMs, infinite, Option.bind_none]

end Durations

theorem sub128_eq (b : Build) (enough : y ≤ x) (small : x < 2 ^ 128) :
    sub128 b x y = some (x - y) := by
  have shifted : x + 2 ^ 128 - y = x - y + 2 ^ 128 := by omega
  rw [sub128, if_neg (by omega), shifted, Nat.add_mod_right, Nat.mod_eq_of_lt (by omega)]

section Services
variable {m : SvcMetricBucket} {inside now : Nat}

/-- The marks of a service of which `inside` calls are in progress. -/
structure SvcMetricBucket.Sound (m : SvcMetricBucket) (inside now : Nat) : Prop where
  ends : m.endT.length + inside ≤ m.runT.length
  paired : ∀ (i run finish : Nat), m.runT[i]? = some run → m.endT[i]? = some finish → run ≤ finish
  init : ∀ run ∈ m.runT, m.initT ≤ run
  initPast : m.initT ≤ millis now
  past : ∀ run ∈ m.runT, run ≤ millis now
  endPast : ∀ finish ∈ m.endT, finish ≤ millis now

namespace SvcMetricBucket.Sound

theorem later (sound : m.Sound inside now) (passed : now ≤ after) : m.Sound inside after where
  ends := sound.ends
  paired := sound.paired
  init := sound.init
  initPast := sound.initPast.trans (millis_mono passed)
  past run member := (sound.past run member).trans (millis_mono passed)
  endPast finish member := (sound.endPast finish member).trans (millis_mono passed)

theorem fewer (sound : m.Sound inside now) (fewer : less ≤ inside) : m.Sound less now :=
  { sound with ends := by have := sound.ends; omega }

theorem fresh (name path : String) (now : Nat) :
    (⟨name, path, 0, [], []⟩ : SvcMetricBucket).Sound 0 now where
  ends := by simp
  paired := by simp
  init := by simp
  initPast := Nat.zero_le _
  past := by simp
  endPast := by simp

/-- The initialisation is marked before any run. -/
theorem initMark (sound : m.Sound 0 now) (unused : m.runT = []) :
    (m.mark .svcInit now).Sound 0 now ∧ (m.mark .svcInit now).runT = [] := by
  simp only [SvcMetricBucket.mark]
  split
  · exact ⟨{ sound with init := by simp [unused], initPast := le_rfl }, unused⟩
  · exact ⟨sound, unused⟩

theorem run (sound : m.Sound inside now) : (m.mark .svcRun now).Sound (inside + 1) now where
  ends := by
    have := sound.ends
    simp only [SvcMetricBucket.mark, List.length_append, List.length_singleton]
    omega
  paired i run finish atRun atEnd := by
    have short := sound.ends
    have ended : i < m.endT.length := (List.getElem?_eq_some_iff.mp atEnd).1
    simp only [SvcMetricBucket.mark] at atRun
    rw [List.getElem?_append_left (by omega)] at atRun
    exact sound.paired i run finish atRun atEnd
  init run member := by
    rcases List.mem_append.mp member with old | new
    · exact sound.init run old
    · rw [List.mem_singleton.mp new]
      exact sound.initPast
  initPast := sound.initPast
  past run member := by
    rcases List.mem_append.mp member with old | new
    · exact sound.past run old
    · exact (List.mem_singleton.mp new).le
  endPast := sound.endPast

theorem finish (sound : m.Sound (inside + 1) now) : (m.mark .svcEnd now).Sound inside now where
  ends := by
    have := sound.ends
    simp only [SvcMetricBucket.mark, List.length_append, List.length_singleton]
    omega
  paired i run finish atRun atEnd := by
    simp only [SvcMetricBucket.mark] at atRun atEnd
    rcases Nat.lt_or_ge i m.endT.length with old | new
    · rw [List.getElem?_append_left old] at atEnd
      exact sound.paired i run finish atRun atEnd
    · have last := List.getElem?_eq_some_iff.mp atEnd
      obtain ⟨bound, value⟩ := last
      simp only [List.length_append, List.length_singleton] at bound
      rw [List.getElem_append_right new] at value
      simp only [List.getElem_singleton] at value
      rw [← value]
      exact sound.past run (List.mem_of_getElem? atRun)
  init := sound.init
  initPast := sound.initPast
  past := sound.past
  endPast finish member := by
    rcases List.mem_append.mp member with old | new
    · exact sound.endPast finish old
    · exact (List.mem_singleton.mp new).le

end SvcMetricBucket.Sound

theorem threadReports_ok (b : Build) {initT : Nat} {pairs : List (Nat × Nat)} (idx : Nat)
    (ordered : ∀ pair ∈ pairs, initT ≤ pair.1 ∧ pair.1 ≤ pair.2 ∧ pair.2 < 2 ^ 128) :
    ∃ reports, threadReports b initT idx pairs = some reports := by
  induction pairs generalizing idx with
  | nil => exact ⟨[], rfl⟩
  | cons pair rest ih =>
    obtain ⟨run, finish⟩ := pair
    obtain ⟨started, ended, small⟩ := ordered _ List.mem_cons_self
    obtain ⟨reports, rest⟩ :=
      ih (idx + 1) fun pair member => ordered pair (List.mem_cons_of_mem _ member)
    simp only at started ended small
    by_cases positive : 0 < finish
    · exact ⟨_, by simp [threadReports, positive, sub128_eq b ended small,
        sub128_eq b started (by omega), rest]; rfl⟩
    · exact ⟨reports, by simp only [threadReports, positive, if_false, rest]⟩

theorem SvcMetricBucket.Sound.ordered (sound : m.Sound inside now) (small : now < horizon) :
    ∀ pair ∈ m.runT.zip m.endT, m.initT ≤ pair.1 ∧ pair.1 ≤ pair.2 ∧ pair.2 < 2 ^ 128 := by
  intro pair member
  obtain ⟨i, bound, at_i⟩ := List.getElem_of_mem member
  have found : (m.runT.zip m.endT)[i]? = some pair := by rw [List.getElem?_eq_getElem bound, at_i]
  obtain ⟨atRun, atEnd⟩ := List.getElem?_zip_eq_some.mp found
  have past := sound.endPast _ (List.mem_of_getElem? atEnd)
  refine ⟨sound.init _ (List.mem_of_getElem? atRun), sound.paired i _ _ atRun atEnd, ?_⟩
  unfold horizon at small
  unfold millis at past
  omega

theorem SvcMetricBucket.Sound.toJson (sound : m.Sound inside now) (small : now < horizon)
    (b : Build) :
    ∃ report, m.toJson b = some report := by
  obtain ⟨reports, made⟩ := threadReports_ok b 0 (sound.ordered small)
  exact ⟨_, by rw [SvcMetricBucket.toJson, made]; rfl⟩

theorem servicesJson_ok (b : Build) {services : List SvcMetricBucket}
    (each : ∀ m ∈ services, ∃ report, m.toJson b = some report) :
    ∃ reports, servicesJson b services = some reports := by
  induction services with
  | nil => exact ⟨[], rfl⟩
  | cons m rest ih =>
    obtain ⟨report, made⟩ := each m List.mem_cons_self
    obtain ⟨reports, rest⟩ := ih fun m member => each m (List.mem_cons_of_mem _ member)
    exact ⟨report :: reports, by simp [servicesJson, made, rest]⟩

/-- The buckets of the services, with the modules and calls that refer to them by number. -/
structure Served (services : List SvcMetricBucket) (modules : String → Option Nat)
    (frames : List (Place × Nat)) (now : Nat) : Prop where
  sound : ∀ (j : Nat) (m : SvcMetricBucket), services[j]? = some m →
    m.Sound (frames.countP fun frame => frame.2 = j) now
  frames : ∀ frame ∈ frames, frame.2 < services.length
  modules : ∀ name j, modules name = some j → j < services.length

namespace Served
variable {services : List SvcMetricBucket} {modules : String → Option Nat}
  {frames : List (Place × Nat)}

theorem later (held : Served services modules frames now) (passed : now ≤ after) :
    Served services modules frames after :=
  { held with sound := fun j m found => (held.sound j m found).later passed }

/-- A new bucket has a number that nothing refers to yet. -/
theorem push (held : Served services modules frames now) (fresh : m.Sound 0 now) :
    Served (services ++ [m]) modules frames now where
  sound j other found := by
    rcases Nat.lt_or_ge j services.length with old | new
    · rw [List.getElem?_append_left old] at found
      exact held.sound j other found
    · have unused : frames.countP (fun frame => frame.2 = j) = 0 := by
        rw [List.countP_eq_zero]
        intro frame member
        have bound := held.frames frame member
        simp only [decide_eq_true_eq]
        omega
      have only : other = m := by
        have member := List.mem_of_getElem? (List.getElem?_append_right new ▸ found)
        exact List.mem_singleton.mp member
      rw [unused, only]
      exact fresh
  frames frame member := by
    have bound := held.frames frame member
    rw [List.length_append]
    omega
  modules name j found := by
    have bound := held.modules name j found
    rw [List.length_append]
    omega

theorem register (held : Served services modules frames now) (inside : j < services.length)
    (name : String) :
    Served services (Function.update modules name (some j)) frames now where
  sound := held.sound
  frames := held.frames
  modules other k found := by
    by_cases same : other = name
    · subst same
      rw [Function.update_self] at found
      obtain rfl := Option.some.inj found
      exact inside
    · rw [Function.update_of_ne same] at found
      exact held.modules other k found

/-- One call more in a bucket, with its mark. -/
theorem enter (held : Served services modules frames now) (inside : j < services.length)
    (p : Place) :
    Served (services.modify j fun m => m.mark .svcRun now) modules ((p, j) :: frames) now where
  sound k m found := by
    by_cases same : j = k
    · subst same
      rw [List.getElem?_modify_eq, Option.map_eq_map, Option.map_eq_some_iff] at found
      obtain ⟨before, found, rfl⟩ := found
      have counted : ((p, j) :: frames).countP (fun frame => frame.2 = j) =
          frames.countP (fun frame => frame.2 = j) + 1 := List.countP_cons_of_pos (by simp)
      rw [counted]
      exact (held.sound j before found).run
    · rw [List.getElem?_modify_ne _ _ same] at found
      have counted : ((p, j) :: frames).countP (fun frame => frame.2 = k) =
          frames.countP (fun frame => frame.2 = k) := List.countP_cons_of_neg (by simpa using same)
      rw [counted]
      exact held.sound k m found
  frames frame member := by
    rw [List.length_modify]
    rcases List.mem_cons.mp member with rfl | member
    · exact inside
    · exact held.frames frame member
  modules name k found := by
    rw [List.length_modify]
    exact held.modules name k found

theorem countP_erase (member : frame ∈ frames) (k : Nat) :
    frames.countP (fun frame => frame.2 = k) =
      (frames.erase frame).countP (fun frame => frame.2 = k) + if frame.2 = k then 1 else 0 := by
  rw [(List.perm_cons_erase member).countP_eq, List.countP_cons]
  simp

/-- One call less, after a success with its mark. -/
theorem leave (held : Served services modules frames now) (member : frame ∈ frames) :
    Served services modules (frames.erase frame) now ∧
    Served (services.modify frame.2 fun m => m.mark .svcEnd now) modules
      (frames.erase frame) now := by
  have fewer (k : Nat) := countP_erase member k
  refine ⟨⟨fun k m found => (held.sound k m found).fewer ?_, ?_, held.modules⟩,
    ⟨fun k m found => ?_, ?_, ?_⟩⟩
  · rw [fewer k]
    exact Nat.le_add_right _ _
  · exact fun other kept => held.frames other (List.mem_of_mem_erase kept)
  · by_cases same : frame.2 = k
    · subst same
      rw [List.getElem?_modify_eq, Option.map_eq_map, Option.map_eq_some_iff] at found
      obtain ⟨before, found, rfl⟩ := found
      have sound := held.sound frame.2 before found
      rw [fewer frame.2, if_pos rfl] at sound
      exact sound.finish
    · rw [List.getElem?_modify_ne _ _ same] at found
      have sound := held.sound k m found
      rw [fewer k, if_neg same] at sound
      exact sound
  · intro other kept
    rw [List.length_modify]
    exact held.frames other (List.mem_of_mem_erase kept)
  · intro name k found
    rw [List.length_modify]
    exact held.modules name k found

end Served
end Services

def returned : Control → Option (Outcome Unit)
  | .ended result => some result
  | _ => none

section Steps
variable {w : Plan} {o : Outcomes} {r t : Running}

theorem afterGroup_result (k : Nat) (result : Outcome Unit) :
    returned (afterGroup k result) ≠ some (.ok ()) := by
  cases result <;> simp [afterGroup, returned, Outcome.mapErr]

theorem afterLoad_result (k i : Nat) (result : Outcome Unit) :
    returned (afterLoad k i result) ≠ some (.ok ()) := by
  cases result <;> simp [afterLoad, afterGroup, returned, Outcome.mapErr]

theorem afterSpawn_result (k i : Nat) (result : Outcome Unit) :
    returned (afterSpawn k i result) ≠ some (.ok ()) := by
  cases result <;> simp [afterSpawn, returned]

theorem afterJoin_result (k i : Nat) (result : Outcome Unit) :
    returned (afterJoin k i result) ≠ some (.ok ()) := by
  cases result <;> simp [afterJoin, returned]

theorem afterInline_result (i : Nat) (result : Outcome Unit) :
    returned (afterInline i result) ≠ some (.ok ()) := by
  cases result <;> simp [afterInline, returned, Outcome.mapErr]

/-- `run` makes its last two marks when it returns `Ok`, and only then. -/
theorem step_marks (stepped : Workflow.Step w o r e t) :
    (t.control = r.control ∧ t.marks = r.marks) ∨
    (returned r.control = none ∧ returned t.control ≠ some (.ok ()) ∧ t.marks = r.marks) ∨
    (returned r.control = none ∧ returned t.control = some (.ok ()) ∧
      t.marks = r.marks ++ [.mem, .isolEnd]) := by
  cases stepped with
  | load here found => exact .inr (.inl ⟨by rw [here]; rfl, afterLoad_result _ _ _, rfl⟩)
  | loaded here found inside => exact .inr (.inl ⟨by rw [here]; rfl, by simp [returned], rfl⟩)
  | spawn here found good =>
    exact .inr (.inl ⟨by rw [here]; rfl, afterSpawn_result _ _ (.ok ()), rfl⟩)
  | spawnFailed here found bad =>
    exact .inr (.inl ⟨by rw [here]; rfl, afterSpawn_result _ _ _, rfl⟩)
  | spawned here found => exact .inr (.inl ⟨by rw [here]; rfl, by simp [returned], rfl⟩)
  | join here found finished => exact .inr (.inl ⟨by rw [here]; rfl, afterJoin_result _ _ _, rfl⟩)
  | joined here found => exact .inr (.inl ⟨by rw [here]; rfl, by simp [returned], rfl⟩)
  | leave here settled => exact .inr (.inl ⟨by rw [here]; rfl, afterGroup_result _ _, rfl⟩)
  | groupsEnd here last => exact .inr (.inr ⟨by rw [here]; rfl, rfl, rfl⟩)
  | call here found good => exact .inr (.inl ⟨by rw [here]; rfl, by simp [returned], rfl⟩)
  | callFailed here found bad => exact .inr (.inl ⟨by rw [here]; rfl, afterInline_result _ _, rfl⟩)
  | returned here found finished =>
    exact .inr (.inl ⟨by rw [here]; rfl, afterInline_result _ _, rfl⟩)
  | sequenceEnd here found => exact .inr (.inr ⟨by rw [here]; rfl, rfl, rfl⟩)
  | start ready => exact .inl ⟨rfl, rfl⟩
  | finish running => exact .inl ⟨rfl, rfl⟩

end Steps

section Isolation
variable {v : Installation} {b : Build} {bucket : MetricBucket} {s t : Metered}

theorem mark_svcMetrics (b : Build) (bucket : MetricBucket) (event : MetricEvent) (now : Nat) :
    (bucket.mark b event now).svcMetrics = bucket.svcMetrics := by
  unfold MetricBucket.mark
  repeat' split
  all_goals rfl

/-- What the fields of the isolation are worth at a time when `run` has come to `result`. -/
structure Dated (s : Metered) (bucket : MetricBucket) (result : Option (Outcome Unit)) : Prop where
  clear : bucket.poisoned = false
  began : bucket.beginT = micros s.begun
  pending : result = none → bucket.endT = 0 ∧ s.ended = none
  ended : ∀ outcome, result = some outcome → ∃ time, s.ended = some time ∧ s.begun ≤ time ∧
    time < printable ∧
    bucket.endT = if outcome = .ok () then micros time else 0

def Metered.result (s : Metered) : Option (Outcome Unit) :=
  s.running.bind fun r => returned r.control

structure Metered.Sound (s : Metered) : Prop where
  order : s.begun ≤ s.now
  small : s.now < printable
  dated : Dated s s.bucket s.result
  served : Served s.bucket.svcMetrics s.modules s.frames s.now

/-- The counter of loaded services does not overflow where overflows are checked. -/
def Room (v : Installation) (s : Metered) : Prop :=
  v.build.overflowChecks = true → s.bucket.loadServiceNum + 1 < 2 ^ 32

/-- Functions pass only `Mem` and `LoadService` to the host call. -/
def Harmless (v : Installation) (s : Metered) (e : Entry) (_ : Metered) : Prop :=
  match e with
  | .metric event => event = .mem ∨ event = .loadService ∧ Room v s
  | .serviceOrLoad _ => Room v s
  | _ => True

theorem Dated.mem (held : Dated s bucket result) (b : Build) (now : Nat) :
    Dated s (bucket.mark b .mem now) result := by
  simp only [MetricBucket.mark, held.clear, Bool.false_eq_true, if_false]
  exact ⟨rfl, held.began, held.pending, held.ended⟩

theorem Dated.loadService (held : Dated s s.bucket result) (room : Room v s) (now : Nat) :
    Dated s (s.bucket.mark v.build .loadService now) result := by
  have fits : ∃ n, v.build.add32 s.bucket.loadServiceNum 1 = some n := by
    unfold Build.add32
    split
    · rename_i overflows
      have := room overflows.1
      omega
    · exact ⟨_, rfl⟩
  obtain ⟨n, fits⟩ := fits
  simp only [MetricBucket.mark, held.clear, Bool.false_eq_true, if_false, fits]
  exact ⟨rfl, held.began, held.pending, held.ended⟩

/-- The steps that leave the times of the isolation alone. -/
structure Kept (s t : Metered) : Prop where
  running : t.running = s.running
  begun : t.begun = s.begun
  ended : t.ended = s.ended
  clear : t.bucket.poisoned = s.bucket.poisoned
  beginT : t.bucket.beginT = s.bucket.beginT
  endT : t.bucket.endT = s.bucket.endT

theorem Kept.refl (s : Metered) : Kept s s := ⟨rfl, rfl, rfl, rfl, rfl, rfl⟩

theorem Kept.dated (kept : Kept s t) (held : Dated s s.bucket result) :
    Dated t t.bucket result where
  clear := kept.clear.trans held.clear
  began := by rw [kept.beginT, kept.begun, held.began]
  pending open_ := by
    rw [kept.endT, kept.ended]
    exact held.pending open_
  ended outcome done := by
    rw [kept.endT, kept.ended, kept.begun]
    exact held.ended outcome done

theorem load_kept (v : Installation) (s : Metered) (name : String) (loading : Loading)
    (early late : Nat) :
    Kept s (s.load v name loading early late) := by
  unfold Metered.load
  split
  · exact Kept.refl s
  · split
    · exact Kept.refl s
    · constructor
      case clear => cases loading.opened <;> rfl
      case beginT => cases loading.opened <;> rfl
      case endT => cases loading.opened <;> rfl
      all_goals rfl

theorem appOrLoad_kept (v : Installation) (s : Metered) (name : String) (loading : Loading)
    (early late : Nat) :
    Kept s (s.appOrLoad v name loading early late) := by
  unfold Metered.appOrLoad
  split
  · exact Kept.refl s
  · exact load_kept v s name loading early late

theorem enter_kept (v : Installation) (s : Metered) (p : Place) (now : Nat) :
    Kept s (s.enter v p now) := by
  unfold Metered.enter
  split
  · exact ⟨rfl, rfl, rfl, rfl, rfl, rfl⟩
  · exact Kept.refl s

theorem leave_kept (v : Installation) (s : Metered) (p : Place) (now : Nat) :
    Kept s (s.leave v p now) := by
  unfold Metered.leave
  split
  · constructor
    case clear => dsimp only; split <;> rfl
    case beginT => dsimp only; split <;> rfl
    case endT => dsimp only; split <;> rfl
    all_goals rfl
  · exact Kept.refl s

theorem serve_kept (v : Installation) (s : Metered) (e : Event) (opened : Bool) (early late : Nat) :
    Kept s (s.serve v e opened early late) := by
  unfold Metered.serve
  split
  · split
    · exact appOrLoad_kept v s _ _ early late
    · exact Kept.refl s
  · exact enter_kept v s _ late
  · exact leave_kept v s _ late
  · exact Kept.refl s

def Metered.Serves (s : Metered) (now : Nat) : Prop :=
  Served s.bucket.svcMetrics s.modules s.frames now

theorem modify_last (f : SvcMetricBucket → SvcMetricBucket) (services : List SvcMetricBucket)
    (m : SvcMetricBucket) :
    (services ++ [m]).modify services.length f = services ++ [f m] := by
  induction services with
  | nil => rfl
  | cons head rest ih => simpa using ih

theorem load_serves (held : s.Serves s.now) (since : s.now ≤ early) (ordered : early ≤ late)
    (name : String) (loading : Loading) : (s.load v name loading early late).Serves late := by
  have kept := held.later (since.trans ordered)
  unfold Metered.load
  split
  · exact kept
  · split
    · exact kept
    · rename_i path found
      obtain ⟨first, unused⟩ := (SvcMetricBucket.Sound.fresh name path early).initMark rfl
      have pushed : ∃ m : SvcMetricBucket, m.Sound 0 late ∧
          (if loading.opened then
            ((s.bucket.newSvcMetric name path).markSvc s.bucket.svcMetrics.length .svcInit
              early).markSvc
              s.bucket.svcMetrics.length .svcInit late
          else
            (s.bucket.newSvcMetric name path).markSvc s.bucket.svcMetrics.length .svcInit
              early).svcMetrics =
            s.bucket.svcMetrics ++ [m] := by
        cases loading.opened with
        | false => exact ⟨_, first.later ordered, modify_last _ _ _⟩
        | true =>
          refine ⟨_, ((first.later ordered).initMark unused).1, ?_⟩
          simp only [if_true, MetricBucket.markSvc, MetricBucket.newSvcMetric]
          rw [modify_last, modify_last]
      obtain ⟨m, fresh, made⟩ := pushed
      have grown := kept.push fresh
      simp only [Metered.Serves, made]
      split
      · exact grown.register (by simp) name
      · exact grown

theorem appOrLoad_serves (held : s.Serves s.now) (since : s.now ≤ early) (ordered : early ≤ late)
    (name : String) (loading : Loading) : (s.appOrLoad v name loading early late).Serves late := by
  unfold Metered.appOrLoad
  split
  · exact held.later (since.trans ordered)
  · exact load_serves held since ordered name loading

theorem enter_serves (held : s.Serves s.now) (since : s.now ≤ late) (p : Place) :
    (s.enter v p late).Serves late := by
  unfold Metered.enter
  split
  · rename_i j found
    obtain ⟨app, _, loaded⟩ := Option.bind_eq_some_iff.mp found
    exact Served.enter (Served.later held since) (held.modules _ _ loaded) p
  · exact Served.later held since

theorem leave_serves (held : s.Serves s.now) (since : s.now ≤ late) (p : Place) :
    (s.leave v p late).Serves late := by
  unfold Metered.leave
  split
  · rename_i frame found
    have left := Served.leave (Served.later held since) (List.mem_of_find?_eq_some found)
    simp only [Metered.Serves]
    split
    · exact left.2
    · exact left.1
  · exact Served.later held since

theorem serve_serves (held : s.Serves s.now) (since : s.now ≤ early) (ordered : early ≤ late)
    (e : Event) (opened : Bool) : (s.serve v e opened early late).Serves late := by
  have passed := since.trans ordered
  unfold Metered.serve
  split
  · split
    · exact appOrLoad_serves held since ordered _ _
    · exact Served.later held passed
  · exact enter_serves held passed _
  · exact leave_serves held passed _
  · exact Served.later held passed

theorem note_svcMetrics (v : Installation) (s : Metered) (marks : List Mark) (early late : Nat) :
    (s.note v marks early late).svcMetrics = s.bucket.svcMetrics := by
  unfold Metered.note
  generalize s.bucket = bucket
  induction marks generalizing bucket with
  | nil => rfl
  | cons mark rest ih =>
    cases mark with
    | mem => exact (ih _).trans (mark_svcMetrics _ _ _ _)
    | isolEnd => exact (ih _).trans (mark_svcMetrics _ _ _ _)

theorem begin_returned (w : Plan) : returned w.begin.control = none := by
  unfold Plan.begin
  dsimp only
  split <;> rfl

/-- The marks of a step of `run`, when it returns and when it does not. -/
theorem work_dated {r u : Running} (held : Dated s s.bucket (returned r.control)) (v : Installation)
    (stepped : Workflow.Step w o r e u) (order : s.begun ≤ late) (small : late < printable)
    (early : Nat) :
    Dated (s.reach u late) (s.note v (u.marks.drop r.marks.length) early late)
      (returned u.control) := by
  rcases step_marks stepped with ⟨control, marks⟩ | ⟨open_, other, marks⟩ | ⟨open_, success, marks⟩
  · -- a thread of an app: `run` stays where it is
    have stays : (s.reach u late).ended = s.ended := by
      unfold Metered.reach
      rw [control]
      dsimp only
      split
      · rename_i result here
        obtain ⟨time, known, _⟩ := held.ended result (by rw [here]; rfl)
        rw [known]
        rfl
      · rfl
    rw [marks, List.drop_length, control]
    exact ⟨held.clear, held.began,
      fun none_ => ⟨(held.pending none_).1, stays.trans (held.pending none_).2⟩,
      fun outcome done => by rw [stays]; exact held.ended outcome done⟩
  · obtain ⟨endT, unended⟩ := held.pending open_
    rw [marks, List.drop_length]
    refine ⟨held.clear, held.began, fun none_ => ⟨endT, ?_⟩,
      fun outcome done => ⟨late, ?_, order, small, ?_⟩⟩
    · unfold Metered.reach
      cases here : u.control <;> simp_all [returned]
    · unfold Metered.reach
      cases here : u.control <;> simp_all [returned]
    · rw [if_neg (by rintro rfl; exact other done)]
      exact endT
  · obtain ⟨endT, unended⟩ := held.pending open_
    have ended : (s.reach u late).ended = some late := by
      unfold Metered.reach
      cases here : u.control <;> simp_all [returned]
    have noted : s.note v (u.marks.drop r.marks.length) early late =
        { s.bucket with
          memMetrics := s.bucket.memMetrics ++ [(micros early, 0)], endT := micros late } := by
      rw [marks, List.drop_left]
      simp [Metered.note, MetricBucket.mark, held.clear, endT]
    rw [noted, success]
    refine ⟨held.clear, held.began, fun none_ => absurd none_ (by simp), fun outcome done => ?_⟩
    obtain rfl := Option.some.inj done
    exact ⟨late, ended, order, small, rfl⟩

/-- A step that leaves `run` where it is. -/
theorem sound_of_kept (held : s.Sound) (kept : Kept s t) (served : t.Serves now)
    (order : s.now ≤ now) (small : now < printable) : Metered.Sound { t with now } where
  order := (kept.begun.trans_le held.order).trans order
  small := small
  dated := by
    have result : Metered.result { t with now } = s.result := by
      rw [Metered.result, Metered.result, ← kept.running]
    have dated := kept.dated held.dated
    rw [result]
    exact ⟨dated.clear, dated.began, dated.pending, dated.ended⟩
  served := served

theorem serviceOrLoad_sound (held : s.Sound) (room : Room v s) (since : s.now ≤ early)
    (ordered : early ≤ late) (small : late < printable) (name : String) (loading : Loading) :
    Metered.Sound { s.serviceOrLoad v name loading early late with now := late } := by
  unfold Metered.serviceOrLoad
  split
  · exact sound_of_kept held (Kept.refl s) (Served.later held.served (since.trans ordered))
      (since.trans ordered) small
  · have marked : Metered.Sound { s with bucket := s.bucket.mark v.build .loadService early } := by
      have dated := held.dated.loadService room early
      refine ⟨held.order, held.small, ⟨dated.clear, dated.began, dated.pending, dated.ended⟩, ?_⟩
      rw [mark_svcMetrics]
      exact held.served
    exact sound_of_kept marked (load_kept v _ name loading early late)
      (load_serves marked.served since ordered name loading) (since.trans ordered) small

theorem step_sound (held : s.Sound) (stepped : Where (MetricStep v) (Harmless v) s e t) :
    t.Sound := by
  obtain ⟨stepped, harmless⟩ := stepped
  have served : s.Serves s.now := held.served
  have open_ (idle : s.running = none) : s.result = none := by rw [Metered.result, idle]; rfl
  cases stepped with
  | appOrLoad name loading early late since ordered small =>
    exact sound_of_kept held (appOrLoad_kept v s _ _ _ _)
      (appOrLoad_serves served since ordered _ _)
      (since.trans ordered) small
  | serviceOrLoad name loading early late since ordered small =>
    exact serviceOrLoad_sound held harmless since ordered small name loading
  | metric event late since small inside =>
    have dated : Dated s (s.bucket.mark v.build event late) s.result := by
      rcases harmless with rfl | ⟨rfl, room⟩
      · exact held.dated.mem v.build late
      · exact held.dated.loadService room late
    refine ⟨held.order.trans since, small, ⟨dated.clear, dated.began, dated.pending, dated.ended⟩,
      ?_⟩
    rw [mark_svcMetrics]
    exact Served.later served since
  | begin late since small idle =>
    have dated := held.dated.mem v.build late
    rw [open_ idle] at dated
    have result := begin_returned v.plan
    refine ⟨held.order.trans since, small, ?_, ?_⟩
    · rw [Metered.result]
      simp only [Option.bind_some, result]
      exact ⟨dated.clear, dated.began, dated.pending, dated.ended⟩
    · rw [note_svcMetrics]
      exact Served.later served since
  | refuse message early late since ordered small idle guarded =>
    have dated := held.dated.mem v.build early
    rw [open_ idle] at dated
    obtain ⟨endT, unended⟩ := dated.pending rfl
    have order := held.order.trans (since.trans ordered)
    refine ⟨order, small, ⟨dated.clear, dated.began, fun none_ => ?_, fun outcome done => ?_⟩, ?_⟩
    · simp [Metered.result, Metered.reach, returned] at none_
    · refine ⟨late, ?_, order, small, ?_⟩
      · simp [Metered.reach, unended]
      · have failed : outcome ≠ .ok () := by
          rintro rfl
          simp [Metered.result, Metered.reach, returned] at done
        rw [if_neg failed]
        exact endT
    · rw [note_svcMetrics]
      exact Served.later served (since.trans ordered)
  | work e r u opened early late since ordered small running stepped =>
    have kept := serve_kept v s e opened early late
    have dated := kept.dated held.dated
    have result : s.result = returned r.control := by rw [Metered.result, running]; rfl
    have order := held.order.trans (since.trans ordered)
    rw [result] at dated
    have after := work_dated dated v stepped (kept.begun.trans_le order) small early
    refine ⟨kept.begun.trans_le order, small,
      ⟨after.clear, after.began, after.pending, after.ended⟩, ?_⟩
    rw [note_svcMetrics]
    exact serve_serves served since ordered e opened

theorem new_sound (b : Build) (order : begun ≤ now) (small : now < printable) :
    (newMetered b begun now).Sound where
  order := order
  small := small
  dated := ⟨rfl, rfl, fun _ => ⟨rfl, rfl⟩, fun _ done => by cases done⟩
  served :=
    ⟨fun _ _ found => by simp [newMetered, mark_svcMetrics] at found, by simp [newMetered],
      by simp [newMetered]⟩

/-- The time from the begin mark to the return of `run`, as it is printed. -/
def Metered.RightTotal (s : Metered) (total : Option ℚ) : Prop :=
  ∃ time, s.ended = some time ∧ s.begun ≤ time ∧
    total = durationMs (micros time - micros s.begun)

/-- `analyze` returns, and the duration that it prints, if any, is right. -/
def Metered.ReportsRight (b : Build) (s : Metered) (opt : MetricOpt) : Prop :=
  ∃ report, s.bucket.analyze b opt = some report ∧ ∀ total, report.total = some total →
    s.RightTotal total

/-- The options that print the total duration print one difference. -/
theorem reportsRight_iff (held : s.Sound) (b : Build) :
    s.ReportsRight b opt ↔ opt = .none ∨ opt = .mem ∨
      ∃ dur, sub128 b s.bucket.endT s.bucket.beginT = some dur ∧ s.RightTotal (durationMs dur) := by
  have clear := held.dated.clear
  obtain ⟨services, served⟩ := servicesJson_ok b fun m member => by
    obtain ⟨j, found⟩ := List.mem_iff_getElem?.mp member
    exact (held.served.sound j m found).toJson (printable_lt_horizon held.small) b
  cases opt with
  | none => simp [Metered.ReportsRight, MetricBucket.analyze, clear, Report.total]
  | mem => simp [Metered.ReportsRight, MetricBucket.analyze, clear, Report.total]
  | all =>
    cases difference : sub128 b s.bucket.endT s.bucket.beginT <;>
      simp [Metered.ReportsRight, MetricBucket.analyze, clear, served, MetricBucket.toJson,
        difference, Report.total]
  | totalDur =>
    cases difference : sub128 b s.bucket.endT s.bucket.beginT <;>
      simp [Metered.ReportsRight, MetricBucket.analyze, clear, MetricBucket.toJson, difference,
        Report.total]

/-- Without the end mark the difference is right only for a clock that still reads zero: else it is
printed as `null`. -/
theorem unmarked_difference_iff (b : Build) (order : begun ≤ time) (small : time < printable) :
    (∃ dur, sub128 b 0 (micros begun) = some dur ∧
      durationMs dur = durationMs (micros time - micros begun)) ↔ micros time = 0 := by
  have ordered := micros_mono order
  have bound := micros_lt_of_printable small
  constructor
  · rintro ⟨dur, difference, same⟩
    by_contra running
    unfold sub128 at difference
    split at difference
    · cases difference
    · have value := Option.some.inj difference
      rcases Nat.eq_zero_or_pos (micros begun) with zero | since
      · obtain rfl : dur = 0 := by omega
        obtain ⟨ms, printed, positive⟩ :=
          durationMs_finite (micros time - micros begun) (by omega)
        rw [durationMs_zero, printed] at same
        exact (positive (by omega)).ne (Option.some.inj same)
      · have infinite : durationMs dur = none := durationMs_infinite (by omega) (by omega)
        obtain ⟨ms, finite, -⟩ := durationMs_finite (micros time - micros begun) (by omega)
        rw [infinite, finite] at same
        cases same
  · intro zero
    have begin_ : micros begun = 0 := by omega
    exact ⟨0, by simp [sub128, begin_], by rw [zero, begin_]⟩

/-- After a run whose functions mark nothing but `Mem` and `LoadService`, the report is right
exactly when `run` has succeeded or no duration is printed. -/
theorem analyze_right_iff (order : begun ≤ now) (small : now < printable)
    (path : Run (Where (MetricStep v) (Harmless v)) (newMetered v.build begun now) es s)
    (done : s.result = some outcome) (opt : MetricOpt) :
    s.ReportsRight v.build opt ↔
      outcome = .ok () ∨ opt = .none ∨ opt = .mem ∨ ∃ time, s.ended = some time ∧
        micros time = 0 := by
  have held : s.Sound := path.stable step_sound (new_sound v.build order small)
  obtain ⟨time, ended, since, bound, endT⟩ := held.dated.ended outcome done
  have ordered := micros_mono since
  have exact : (∃ dur, sub128 v.build s.bucket.endT s.bucket.beginT = some dur ∧
      s.RightTotal (durationMs dur)) ↔
        ∃ dur, sub128 v.build s.bucket.endT (micros s.begun) = some dur ∧
          durationMs dur = durationMs (micros time - micros s.begun) := by
    rw [held.dated.began]
    constructor
    · rintro ⟨dur, difference, other, reading, _, same⟩
      obtain rfl := Option.some.inj (ended.symm.trans reading)
      exact ⟨dur, difference, same⟩
    · rintro ⟨dur, difference, same⟩
      exact ⟨dur, difference, time, ended, since, same⟩
  rw [reportsRight_iff held, exact, endT]
  by_cases success : outcome = .ok ()
  · rw [if_pos success, sub128_eq v.build ordered (micros_lt (printable_lt_horizon bound))]
    simp [success]
  · rw [if_neg success, unmarked_difference_iff v.build since bound]
    simp [success, ended]

end Isolation

/-- One app in a sequence, in the release build. -/
def helloInstallation (load : Outcome Unit) : Installation where
  build := release
  registered := fun name => if name = "hello1" then some "libhello_world.so" else none
  plan := ⟨["hello1"], []⟩
  outcomes := { allOk with load := fun _ => load }
  guarded := false

/-- The clock reads one millisecond when the isolation is built and two at the end. -/
theorem hello_analyzed : ∃ es s,
    Run (Where (MetricStep (helloInstallation (.ok ()))) (Harmless (helloInstallation (.ok ()))))
      (newMetered release 1000000 1000000) es s ∧
    s.result = some (.ok ()) ∧ s.ReportsRight release .all := by
  have path : ∃ es s, Run
      (Where (MetricStep (helloInstallation (.ok ()))) (Harmless (helloInstallation (.ok ()))))
      (newMetered release 1000000 1000000) es s ∧ s.result = some (.ok ()) := by
    refine ⟨_, _, .cons ⟨.begin 1000000 (by decide) (by decide) rfl, trivial⟩ <|
      .cons ⟨.work (.load (0, 0)) _ _ true 1000000 1000000 (by decide) (by decide) (by decide) rfl
        (.call rfl rfl rfl), trivial⟩ <|
      .cons ⟨.work (.start (0, 0)) _ _ true 1000000 1000000 (by decide) (by decide) (by decide) rfl
        (.start rfl), trivial⟩ <|
      .cons ⟨.work (.finish (0, 0)) _ _ true 2000000 2000000 (by decide) (by decide) (by decide) rfl
        (.finish rfl), trivial⟩ <|
      .cons ⟨.work (.join (0, 0)) _ _ true 2000000 2000000 (by decide) (by decide) (by decide) rfl
        (.returned rfl rfl rfl), trivial⟩ <|
      .cons ⟨.work .move _ _ true 2000000 2000000 (by decide) (by decide) (by decide) rfl
        (.sequenceEnd rfl rfl), trivial⟩ <|
      .nil _, rfl⟩
  obtain ⟨es, s, path, done⟩ := path
  exact ⟨es, s, path, done,
    (analyze_right_iff (by decide) (by decide) path done .all).mpr (.inl rfl)⟩

/-- The app cannot be loaded: `run` fails after one millisecond, and the difference is then the
begin mark below zero, on 128 bits, which is printed as `null`. -/
theorem failed_load_analyzed :
    ¬ ∀ v begun now es s outcome opt, begun ≤ now → now < printable →
    Run (Where (MetricStep v) (Harmless v)) (newMetered v.build begun now) es s →
      s.result = some outcome →
    s.ReportsRight v.build opt := by
  intro always
  have path : ∃ es s, Run (Where (MetricStep (helloInstallation (.err "load_dynlib faile")))
      (Harmless (helloInstallation (.err "load_dynlib faile"))))
        (newMetered release 1000000 1000000) es s ∧
      s.result.isSome ∧ s.ended = some 2000000 ∧ s.begun = 1000000 ∧
      s.bucket.analyze release .totalDur = some (.totalDur (durationMs (2 ^ 128 - 1000))) := by
    refine ⟨_, _, .cons ⟨.begin 1000000 (by decide) (by decide) rfl, trivial⟩ <|
      .cons ⟨.work (.load (0, 0)) _ _ false 2000000 2000000 (by decide) (by decide) (by decide) rfl
        (.callFailed rfl rfl (by simp [helloInstallation])), trivial⟩ <| .nil _, rfl, rfl, rfl, rfl⟩
  obtain ⟨es, s, path, done, ended, begun, printed⟩ := path
  obtain ⟨outcome, done⟩ := Option.isSome_iff_exists.mp done
  obtain ⟨report, same, right⟩ :=
    always _ 1000000 1000000 es s outcome .totalDur (by decide) (by decide) path done
  obtain rfl := Option.some.inj (printed.symm.trans same)
  obtain ⟨time, reading, _, total⟩ := right _ rfl
  obtain rfl := Option.some.inj (ended.symm.trans reading)
  rw [begun, durationMs_infinite (by decide) (by decide)] at total
  obtain ⟨ms, finite, -⟩ := durationMs_finite (micros 2000000 - micros 1000000) (by decide)
  rw [finite] at total
  cases total

end AlloyStack.Visor.Metric
