import Mathlib.Algebra.Order.Ring.Int
import Mathlib.Data.Int.ConditionallyCompleteOrder
import Mathlib.Data.List.Perm.Basic
import AlloyStack.Library.Pairing
import AlloyStack.Visor.MetricSound

/-! The bucket of one service whose calls of `ElfService::run` overlap and may fail. `to_json`
pairs the n-th end mark with the n-th run mark; which calls made them is not recorded. -/
namespace AlloyStack.Visor.Metric
open Rust Transition

inductive Progress where
  | running
  | completed (finish : Nat)
  | failed
  deriving DecidableEq, Repr

/-- One call of `ElfService::run`, with the readings of the clock at its marks. -/
structure ElfRun where
  start : Nat
  progress : Progress
  deriving DecidableEq, Repr

def ElfRun.finish (run : ElfRun) : Option Nat :=
  match run.progress with
  | .completed finish => some finish
  | _ => none

/-- What `ElfService::run` gets after its first mark: whether the library has `rust_main`, and the
results of `stack.mprotect` and of `invoke_elf_symbol`. -/
structure ElfAnswers where
  rustMain : Bool
  mprotect : Outcome Unit
  invoke : Outcome Unit
  deriving DecidableEq, Repr

def ElfAnswers.result (answers : ElfAnswers) : Outcome Unit :=
  if answers.rustMain then answers.mprotect.bind fun _ => answers.invoke else .err "missing main?"

/-- A loaded service. `runs` are its calls in the order of their run marks, `order` the calls that
completed in the order of their end marks. -/
structure Measured where
  bucket : SvcMetricBucket
  runs : List ElfRun
  order : List Nat
  now : Nat

/-- The service after `ServiceLoader::load`. -/
def Measured.load (name path : String) (early late : Nat) : Measured where
  bucket := ((⟨name, path, 0, [], []⟩ : SvcMetricBucket).mark .svcInit early).mark .svcInit late
  runs := []
  order := []
  now := late

inductive RunEvent where
  | enter (now : Nat)
  | leave (i : Nat) (answers : ElfAnswers) (now : Nat)

/-- A call makes its run mark, or ends; the end is marked only if it succeeds. A mark reads the
clock with the lock of the bucket held. -/
inductive RunStep : Measured → RunEvent → Measured → Prop where
  | enter (s : Measured) (now : Nat) : s.now ≤ now → now < horizon →
      RunStep s (.enter now)
        { s with
          bucket := s.bucket.mark .svcRun now, runs := s.runs ++ [⟨now, .running⟩], now := now }
  | complete (s : Measured) (i start : Nat) (answers : ElfAnswers) (now : Nat) :
      s.runs[i]? = some ⟨start, .running⟩ → answers.result = .ok () → s.now ≤ now → now < horizon →
      RunStep s (.leave i answers now)
        { s with
          bucket := s.bucket.mark .svcEnd now
          runs := s.runs.set i ⟨start, .completed now⟩
          order := s.order ++ [i]
          now := now }
  | fail (s : Measured) (i start : Nat) (answers : ElfAnswers) (now : Nat) :
      s.runs[i]? = some ⟨start, .running⟩ → answers.result ≠ .ok () → s.now ≤ now → now < horizon →
      RunStep s (.leave i answers now) { s with runs := s.runs.set i ⟨start, .failed⟩, now := now }

/-- From mark to mark, in the milliseconds of the clock. -/
def ElfRun.duration (run : ElfRun) : Option Nat :=
  run.finish.map fun finish => millis finish - millis run.start

/-- The durations of the calls that completed. -/
def Measured.durations (s : Measured) : List Nat := s.runs.filterMap ElfRun.duration

/-- `to_json` does not underflow and reports the durations of the calls that completed, and their
mean. -/
def Measured.Truthful (s : Measured) (b : Build) : Prop :=
  ∃ report, s.bucket.toJson b = some report ∧
    (report.threads.map ThreadReport.runDur).Perm s.durations ∧
    report.average = if s.durations = [] then none else some (s.durations.sum, s.durations.length)

/-- A call completes only when every call that was entered before it has completed, and not in the
first millisecond of the epoch. -/
def InTurn (s : Measured) (e : RunEvent) (_ : Measured) : Prop :=
  match e with
  | .enter _ => True
  | .leave i answers now => answers.result = .ok () →
      0 < millis now ∧ ∀ j < i, ∀ run, s.runs[j]? = some run → run.finish ≠ none

/-- Every mark reads a later millisecond than the one before it. -/
def Ticks (s : Measured) (e : RunEvent) (_ : Measured) : Prop :=
  match e with
  | .enter now => millis s.now < millis now
  | .leave _ answers now => answers.result = .ok () → millis s.now < millis now

/-- What every run of the service keeps: whose marks the bucket holds. -/
structure Measured.Traced (s : Measured) : Prop where
  small : s.now < horizon
  sound : s.bucket.Sound (s.runs.countP fun run => run.progress = .running) s.now
  starts : s.bucket.runT = s.runs.map fun run => millis run.start
  ends : s.bucket.endT.map some = s.order.map fun i => (s.runs[i]?.bind ElfRun.finish).map millis
  distinct : s.order.Nodup
  completed : ∀ i, i ∈ s.order ↔ (s.runs[i]?.bind ElfRun.finish).isSome
  began : ∀ run ∈ s.runs, run.start ≤ s.now ∧ ∀ finish, run.finish = some finish →
    run.start ≤ finish

namespace Measured.Traced
variable {s t : Measured} {now : Nat}

theorem load (name path : String) (early late : Nat) (order : early ≤ late)
    (small : late < horizon) :
    (Measured.load name path early late).Traced := by
  have first := (SvcMetricBucket.Sound.fresh name path early).initMark rfl
  have second := (first.1.later order).initMark first.2
  have untouched : ∀ (m : SvcMetricBucket) (now : Nat), (m.mark .svcInit now).endT = m.endT := by
    intro m now
    simp only [SvcMetricBucket.mark]
    split <;> rfl
  refine ⟨small, second.1, second.2, ?_, List.nodup_nil, by simp [Measured.load],
    by simp [Measured.load]⟩
  simp [Measured.load, untouched]

/-- A call that is not replaced keeps its finish; a running one had none. -/
theorem finish_set (found : s.runs[i]? = some ⟨start, .running⟩) (progress : Progress) (j : Nat) :
    ((s.runs.set i ⟨start, progress⟩)[j]?).bind ElfRun.finish =
      if i = j then (⟨start, progress⟩ : ElfRun).finish else (s.runs[j]?).bind ElfRun.finish := by
  have inside : i < s.runs.length := (List.getElem?_eq_some_iff.mp found).1
  rw [List.getElem?_set]
  by_cases same : i = j
  · subst same
    simp [inside]
  · simp [same]

theorem starts_set (found : s.runs[i]? = some ⟨start, .running⟩) (progress : Progress) :
    (s.runs.set i ⟨start, progress⟩).map (fun run => millis run.start) =
      s.runs.map fun run => millis run.start := by
  obtain ⟨inside, value⟩ := List.getElem?_eq_some_iff.mp found
  have bound : i < (s.runs.map fun run => millis run.start).length := by simpa using inside
  have same : millis start = (s.runs.map fun run => millis run.start)[i] := by simp [value]
  rw [List.map_set, same, List.set_getElem_self]

/-- A call that ends is no longer counted among the calls in progress. -/
theorem countP_set (found : s.runs[i]? = some ⟨start, .running⟩) (progress : Progress)
    (left : progress ≠ .running) :
    s.runs.countP (fun run => run.progress = .running) =
      (s.runs.set i ⟨start, progress⟩).countP (fun run => run.progress = .running) + 1 := by
  obtain ⟨inside, value⟩ := List.getElem?_eq_some_iff.mp found
  have counted : 0 < s.runs.countP fun run => run.progress = .running :=
    List.countP_pos_iff.mpr ⟨_, List.mem_of_getElem? found, by simp⟩
  rw [List.countP_set inside, value]
  simp [left]
  omega

theorem began_set (traced : s.Traced) (found : s.runs[i]? = some ⟨start, .running⟩)
    (later : s.now ≤ now)
    (ended : ∀ finish, (⟨start, progress⟩ : ElfRun).finish = some finish → finish = now) :
    ∀ run ∈ s.runs.set i ⟨start, progress⟩,
      run.start ≤ now ∧ ∀ finish, run.finish = some finish → run.start ≤ finish := by
  intro run member
  have past := (traced.began _ (List.mem_of_getElem? found)).1.trans later
  rcases List.mem_or_eq_of_mem_set member with old | rfl
  · exact ⟨(traced.began run old).1.trans later, (traced.began run old).2⟩
  · refine ⟨past, fun finish done => ?_⟩
    rw [ended finish done]
    exact past

theorem enter (traced : s.Traced) (later : s.now ≤ now) (small : now < horizon) :
    Traced { s with
      bucket := s.bucket.mark .svcRun now, runs := s.runs ++ [⟨now, .running⟩], now := now } := by
  have same : ∀ i : Nat, ((s.runs ++ [⟨now, .running⟩])[i]?).bind ElfRun.finish =
      (s.runs[i]?).bind ElfRun.finish := by
    intro i
    rcases Nat.lt_trichotomy i s.runs.length with old | rfl | beyond
    · rw [List.getElem?_append_left old]
    · simp [ElfRun.finish]
    · rw [List.getElem?_eq_none (by simp; omega), List.getElem?_eq_none beyond.le]
  refine ⟨small, ?_, ?_, ?_, traced.distinct, ?_, ?_⟩
  · have sound := (traced.sound.later later).run
    simpa [List.countP_append, Nat.add_comm] using sound
  · simp [SvcMetricBucket.mark, traced.starts]
  · simp only [same]
    exact traced.ends
  · simp only [same]
    exact traced.completed
  · intro run member
    rcases List.mem_append.mp member with old | new
    · exact ⟨(traced.began run old).1.trans later, (traced.began run old).2⟩
    · rw [List.mem_singleton.mp new]
      exact ⟨le_rfl, by simp [ElfRun.finish]⟩

theorem complete (traced : s.Traced) (found : s.runs[i]? = some ⟨start, .running⟩)
    (later : s.now ≤ now) (small : now < horizon) :
    Traced { s with
      bucket := s.bucket.mark .svcEnd now
      runs := s.runs.set i ⟨start, .completed now⟩
      order := s.order ++ [i]
      now := now } := by
  have ended := finish_set found (.completed now)
  have fresh : i ∉ s.order := by
    rw [traced.completed, found]
    simp [ElfRun.finish]
  refine ⟨small, ?_, ?_, ?_, ?_, ?_, ?_⟩
  · have sound := traced.sound.later later
    rw [countP_set found (.completed now) (by simp)] at sound
    exact sound.finish
  · rw [starts_set found]
    exact traced.starts
  · have old : s.order.map
        (fun j => (((s.runs.set i ⟨start, .completed now⟩)[j]?).bind ElfRun.finish).map millis) =
        s.order.map fun j => ((s.runs[j]?).bind ElfRun.finish).map millis := by
      refine List.map_congr_left fun j member => ?_
      have other : i ≠ j := fun same => fresh (same ▸ member)
      rw [ended, if_neg other]
    have marked : (s.bucket.mark .svcEnd now).endT = s.bucket.endT ++ [millis now] := rfl
    rw [marked, List.map_append, List.map_append, old, traced.ends, List.map_singleton,
      List.map_singleton, ended, if_pos rfl]
    rfl
  · refine List.nodup_append.mpr
      ⟨traced.distinct, List.nodup_singleton i, fun j member k last same => ?_⟩
    rw [same, List.mem_singleton.mp last] at member
    exact fresh member
  · intro j
    rw [ended, List.mem_append, traced.completed, List.mem_singleton]
    by_cases same : i = j
    · simp [same, ElfRun.finish]
    · simp [same, Ne.symm same]
  · exact traced.began_set found later fun finish done => (Option.some.inj done).symm

theorem fail (traced : s.Traced) (found : s.runs[i]? = some ⟨start, .running⟩)
    (later : s.now ≤ now) (small : now < horizon) :
    Traced { s with runs := s.runs.set i ⟨start, .failed⟩, now := now } := by
  have same : ∀ j : Nat,
      ((s.runs.set i ⟨start, .failed⟩)[j]?).bind ElfRun.finish =
      (s.runs[j]?).bind ElfRun.finish := by
    intro j
    rw [finish_set found]
    split
    · next equal =>
      subst equal
      rw [found]
      rfl
    · rfl
  refine ⟨small, ?_, ?_, ?_, traced.distinct, ?_, ?_⟩
  · have counted := countP_set found .failed (by simp)
    exact (traced.sound.later later).fewer (Nat.le.intro counted.symm)
  · rw [starts_set found]
    exact traced.starts
  · simp only [same]
    exact traced.ends
  · simp only [same]
    exact traced.completed
  · exact traced.began_set found later (by simp [ElfRun.finish])

theorem step (traced : s.Traced) (stepped : RunStep s e t) : t.Traced := by
  cases stepped with
  | enter now later small => exact traced.enter later small
  | complete i start answers now found ok later small => exact traced.complete found later small
  | fail i start answers now found bad later small => exact traced.fail found later small

theorem run (traced : s.Traced) (run : Run RunStep s es t) : t.Traced := run.stable step traced

/-- Both marks of the call that made the k-th end mark. -/
theorem marks {k : Nat} (traced : s.Traced) (inside : k < s.order.length) :
    ∃ (run : ElfRun) (finish : Nat),
    s.runs[s.order.getD k 0]? = some run ∧ run.finish = some finish ∧ run.start ≤ finish ∧
    s.bucket.runT.getD (s.order.getD k 0) 0 = millis run.start ∧
      s.bucket.endT.getD k 0 = millis finish := by
  have ended : s.order[k]? = some (s.order.getD k 0) := by
    rw [List.getD_eq_getElem?_getD, List.getElem?_eq_getElem inside, Option.getD_some]
  have completed := (traced.completed _).mp (List.mem_of_getElem? ended)
  obtain ⟨finish, bound⟩ := Option.isSome_iff_exists.mp completed
  obtain ⟨run, found, done⟩ := Option.bind_eq_some_iff.mp bound
  refine ⟨run, finish, found, done, (traced.began run (List.mem_of_getElem? found)).2 finish done,
    ?_, ?_⟩
  · rw [List.getD_eq_getElem?_getD, traced.starts, List.getElem?_map, found]
    rfl
  · have atEnd := congrArg (fun marks => marks[k]?) traced.ends
    simp only [List.getElem?_map, ended, Option.map_some, bound] at atEnd
    obtain ⟨mark, there, same⟩ := Option.map_eq_some_iff.mp atEnd
    rw [List.getD_eq_getElem?_getD, there, Option.getD_some, Option.some.inj same]

theorem endT_length (traced : s.Traced) : s.bucket.endT.length = s.order.length := by
  simpa using congrArg List.length traced.ends

theorem order_le (traced : s.Traced) : s.order.length ≤ s.bucket.runT.length := by
  have ends := traced.sound.ends
  rw [traced.endT_length] at ends
  omega

end Measured.Traced

theorem filterMap_eq_range (f : α → Option β) (list : List α) :
    list.filterMap f = (List.range list.length).filterMap fun i => list[i]?.bind f := by
  induction list with
  | nil => rfl
  | cons head rest ih =>
    rw [List.length_cons, List.range_succ_eq_map, List.filterMap_cons, List.filterMap_cons,
      List.filterMap_map]
    simp only [List.getElem?_cons_zero, Option.bind_some]
    cases f head <;> simp [ih]

theorem eq_map_getD (list : List Nat) :
    list = (List.range list.length).map fun k => list.getD k 0 := by
  refine List.ext_getElem (by simp) fun k inside _ => ?_
  simp [List.getD_eq_getElem?_getD, List.getElem?_eq_getElem inside]

section Reports
variable {s : Measured} {b : Build}

/-- The durations by position in the list of end marks: the one that `to_json` computes, and the
one of the call that made the mark. -/
def Measured.paired (s : Measured) (k : Nat) : Nat :=
  s.bucket.endT.getD k 0 - s.bucket.runT.getD k 0

def Measured.elapsed (s : Measured) (k : Nat) : Nat :=
  s.bucket.endT.getD k 0 - s.bucket.runT.getD (s.order.getD k 0) 0

theorem Measured.Traced.durations_perm (traced : s.Traced) :
    s.durations.Perm ((List.range s.order.length).map s.elapsed) := by
  have sorted : s.order.Perm
      ((List.range s.runs.length).filter fun i => (s.runs[i]?.bind ElfRun.finish).isSome) := by
    rw [List.perm_ext_iff_of_nodup traced.distinct (List.nodup_range.filter _)]
    intro i
    rw [traced.completed, List.mem_filter, List.mem_range]
    refine ⟨fun done => ⟨?_, done⟩, And.right⟩
    obtain ⟨finish, bound⟩ := Option.isSome_iff_exists.mp done
    obtain ⟨run, found, _⟩ := Option.bind_eq_some_iff.mp bound
    exact (List.getElem?_eq_some_iff.mp found).1
  have kept : s.durations =
      ((List.range s.runs.length).filter fun i => (s.runs[i]?.bind ElfRun.finish).isSome).filterMap
      fun i => s.runs[i]?.bind ElfRun.duration := by
    rw [Measured.durations, filterMap_eq_range, List.filterMap_filter]
    refine List.filterMap_congr fun i _ => ?_
    cases s.runs[i]? with
    | none => rfl
    | some run => cases h : run.finish <;> simp [ElfRun.duration, h]
  rw [kept]
  refine (sorted.symm.filterMap _).trans (List.Perm.of_eq ?_)
  conv_lhs => rw [eq_map_getD s.order, List.filterMap_map]
  rw [← List.filterMap_eq_map]
  refine List.filterMap_congr fun k member => ?_
  have inside := List.mem_range.mp member
  obtain ⟨run, finish, found, done, _, atRun, atEnd⟩ := traced.marks inside
  simp only [Function.comp, found, Option.bind_some, ElfRun.duration, done, Option.map_some,
    Measured.elapsed, atRun, atEnd]

theorem zip_map_eq (starts ends : List Nat) (shorter : ends.length ≤ starts.length) :
    (starts.zip ends).map (fun pair => pair.2 - pair.1) =
      (List.range ends.length).map fun k => ends.getD k 0 - starts.getD k 0 := by
  refine List.ext_getElem (by simp [shorter]) fun k inside _ => ?_
  simp only [List.length_map, List.length_zip] at inside
  have early : k < starts.length := by omega
  have late : k < ends.length := by omega
  simp [List.getD_eq_getElem?_getD, early, late]

/-- With all end marks past the first millisecond no pair is skipped. -/
theorem threadReports_runDur (b : Build) {initT : Nat} {pairs : List (Nat × Nat)} (idx : Nat)
    (ordered : ∀ pair ∈ pairs, pair.1 ≤ pair.2 ∧ pair.2 < 2 ^ 128)
    (positive : ∀ pair ∈ pairs, 0 < pair.2)
    (made : threadReports b initT idx pairs = some reports) :
    reports.map ThreadReport.runDur = pairs.map fun pair => pair.2 - pair.1 := by
  induction pairs generalizing idx reports with
  | nil =>
    rw [threadReports, Option.some.injEq] at made
    rw [← made]
    rfl
  | cons pair rest ih =>
    obtain ⟨run, finish⟩ := pair
    obtain ⟨ended, small⟩ := ordered _ List.mem_cons_self
    rw [threadReports, if_pos (positive _ List.mem_cons_self), sub128_eq b ended small,
      Option.bind_some] at made
    obtain ⟨initDur, _, mapped⟩ := Option.bind_eq_some_iff.mp made
    obtain ⟨others, tail, rfl⟩ := Option.map_eq_some_iff.mp mapped
    rw [List.map_cons, List.map_cons,
      ih (idx + 1) (fun pair member => ordered pair (List.mem_cons_of_mem _ member))
      (fun pair member => positive pair (List.mem_cons_of_mem _ member)) tail]

/-- What `to_json` computes from the marks of a traced service. -/
theorem Measured.Traced.toJson (traced : s.Traced) (positive : ∀ mark ∈ s.bucket.endT, 0 < mark)
    (b : Build) :
    ∃ report, s.bucket.toJson b = some report ∧
      report.threads.map ThreadReport.runDur = (List.range s.order.length).map s.paired ∧
      report.average = if report.threads = [] then none
        else some ((report.threads.map ThreadReport.runDur).sum, report.threads.length) := by
  obtain ⟨report, made⟩ := traced.sound.toJson traced.small b
  have whole := made
  rw [SvcMetricBucket.toJson] at made
  obtain ⟨threads, computed, rfl⟩ := Option.map_eq_some_iff.mp made
  refine ⟨_, whole, ?_, rfl⟩
  have ordered := traced.sound.ordered traced.small
  rw [threadReports_runDur b 0 (fun pair member => (ordered pair member).2)
    (fun pair member => positive _ (List.of_mem_zip member).2) computed,
    zip_map_eq _ _ (by rw [traced.endT_length]; exact traced.order_le), traced.endT_length]
  rfl

/-- The report is truthful as soon as its durations are, in any order. -/
theorem Measured.Traced.truthful_iff (traced : s.Traced)
    (positive : ∀ mark ∈ s.bucket.endT, 0 < mark) (b : Build) :
    s.Truthful b ↔ ((List.range s.order.length).map s.paired).Perm
      ((List.range s.order.length).map s.elapsed) := by
  obtain ⟨report, made, threads, average⟩ := traced.toJson positive b
  constructor
  · rintro ⟨other, again, same, _⟩
    rw [made, Option.some.injEq] at again
    rw [← again, threads] at same
    exact same.trans traced.durations_perm
  · intro same
    have perm : (report.threads.map ThreadReport.runDur).Perm s.durations := by
      rw [threads]
      exact same.trans traced.durations_perm.symm
    refine ⟨report, made, perm, ?_⟩
    have size : report.threads.length = s.durations.length := by simpa using perm.length_eq
    have empty : report.threads = [] ↔ s.durations = [] := by
      rw [← List.length_eq_zero_iff, ← List.length_eq_zero_iff, size]
    rw [average, perm.sum_eq, size]
    simp only [empty]

end Reports

section Turns
variable {s t : Measured}

/-- The calls that completed are the first ones, and they completed in the order they were
entered. -/
def Measured.InOrder (s : Measured) : Prop := s.order = List.range s.order.length

theorem Measured.InOrder.paired_eq (ordered : s.InOrder) :
    (List.range s.order.length).map s.paired = (List.range s.order.length).map s.elapsed := by
  refine List.map_congr_left fun k member => ?_
  have inside := List.mem_range.mp member
  have own : s.order.getD k 0 = k := by
    rw [ordered, List.getD_eq_getElem?_getD, List.getElem?_range inside, Option.getD_some]
  rw [Measured.paired, Measured.elapsed, own]

/-- A call that completes in turn is the first one that had not completed. -/
theorem next_of_inTurn (traced : s.Traced) (ordered : s.InOrder)
    (found : s.runs[i]? = some ⟨start, .running⟩)
    (earlier : ∀ j < i, ∀ run, s.runs[j]? = some run → run.finish ≠ none) : i = s.order.length := by
  have members (j : Nat) : j < s.order.length ↔ (s.runs[j]?.bind ElfRun.finish).isSome := by
    rw [← traced.completed, ordered, List.mem_range, List.length_range]
  have pending : ¬ i < s.order.length := by
    rw [members, found]
    simp [ElfRun.finish]
  rcases Nat.lt_or_ge s.order.length i with before | after
  · have bound := before.trans (List.getElem?_eq_some_iff.mp found).1
    have there := List.getElem?_eq_getElem bound
    have done := earlier _ before _ there
    have completed : (s.runs[s.order.length]?.bind ElfRun.finish).isSome := by
      rw [there]
      exact Option.isSome_iff_ne_none.mpr done
    exact absurd ((members _).mpr completed) (lt_irrefl _)
  · omega

theorem inOrder_snoc (order : List Nat) (i : Nat) :
    order ++ [i] = List.range (order ++ [i]).length ↔ order = List.range order.length ∧
      i = order.length := by
  rw [List.length_append, List.length_singleton, List.range_succ]
  constructor
  · intro same
    obtain ⟨front, last⟩ := List.append_inj' same rfl
    exact ⟨front, List.head_eq_of_cons_eq last⟩
  · rintro ⟨front, last⟩
    rw [← front, ← last]

/-- The marks of a service all of whose calls completed in turn. -/
structure Measured.Turned (s : Measured) : Prop where
  traced : s.Traced
  ordered : s.InOrder
  positive : ∀ mark ∈ s.bucket.endT, 0 < mark

theorem Measured.Turned.step (turned : s.Turned) (stepped : RunStep s e t)
    (turn : InTurn s e t) : t.Turned := by
  have traced := turned.traced.step stepped
  cases stepped with
  | enter now later small => exact ⟨traced, turned.ordered, turned.positive⟩
  | fail i start answers now found bad later small =>
    exact ⟨traced, turned.ordered, turned.positive⟩
  | complete i start answers now found ok later small =>
    obtain ⟨past, earlier⟩ := turn ok
    have next := next_of_inTurn turned.traced turned.ordered found earlier
    refine ⟨traced, (inOrder_snoc _ _).mpr ⟨turned.ordered, next⟩, fun mark member => ?_⟩
    rcases List.mem_append.mp member with old | new
    · exact turned.positive mark old
    · rw [List.mem_singleton.mp new]
      exact past

theorem Measured.Turned.truthful (turned : s.Turned) (b : Build) : s.Truthful b := by
  rw [turned.traced.truthful_iff turned.positive, turned.ordered.paired_eq]

/-- The marks of a service when every mark reads a later millisecond than the one before it. -/
structure Measured.Ticked (s : Measured) : Prop where
  traced : s.Traced
  starts : s.bucket.runT.Pairwise (· < ·)
  ends : s.bucket.endT.Pairwise (· < ·)
  positive : ∀ mark ∈ s.bucket.endT, 0 < mark

theorem pairwise_snoc {marks : List Nat} (rising : marks.Pairwise (· < ·))
    (past : ∀ mark ∈ marks, mark ≤ last) (later : last < next) :
    (marks ++ [next]).Pairwise (· < ·) := by
  refine List.pairwise_append.mpr
    ⟨rising, List.pairwise_singleton _ _, fun mark member newest only => ?_⟩
  rw [List.mem_singleton.mp only]
  exact (past mark member).trans_lt later

theorem Measured.Ticked.step (ticked : s.Ticked) (stepped : Where RunStep Ticks s e t) :
    t.Ticked := by
  obtain ⟨stepped, tick⟩ := stepped
  have traced := ticked.traced.step stepped
  cases stepped with
  | fail i start answers now found bad later small =>
    exact ⟨traced, ticked.starts, ticked.ends, ticked.positive⟩
  | enter now later small =>
    exact ⟨traced, pairwise_snoc ticked.starts ticked.traced.sound.past tick, ticked.ends,
      ticked.positive⟩
  | complete i start answers now found ok later small =>
    refine ⟨traced, ticked.starts, pairwise_snoc ticked.ends ticked.traced.sound.endPast (tick ok),
      fun mark member => ?_⟩
    rcases List.mem_append.mp member with old | new
    · exact ticked.positive mark old
    · rw [List.mem_singleton.mp new]
      exact (Nat.zero_le _).trans_lt (tick ok)

theorem strictMonoOn_getD {marks : List Nat} (rising : marks.Pairwise (· < ·)) :
    StrictMonoOn (fun k => (marks.getD k 0 : Int)) {k | k < marks.length} := by
  intro i inside j within less
  have ordered := List.pairwise_iff_getElem.mp rising i j inside within less
  simp only [List.getD_eq_getElem?_getD, List.getElem?_eq_getElem inside,
    List.getElem?_eq_getElem within, Option.getD_some]
  exact Int.ofNat_lt.mpr ordered

theorem Measured.Traced.paired_cast (traced : s.Traced) (inside : k < s.order.length) :
    (s.paired k : Int) = s.bucket.endT.getD k 0 - s.bucket.runT.getD k 0 := by
  have early : k < s.bucket.runT.length := inside.trans_le traced.order_le
  have late : k < s.bucket.endT.length := traced.endT_length ▸ inside
  have ordered :=
    traced.sound.paired k _ _ (List.getElem?_eq_getElem early) (List.getElem?_eq_getElem late)
  rw [Measured.paired, List.getD_eq_getElem?_getD, List.getD_eq_getElem?_getD,
    List.getElem?_eq_getElem early, List.getElem?_eq_getElem late, Option.getD_some,
    Option.getD_some, Int.ofNat_sub ordered]

theorem Measured.Traced.elapsed_cast (traced : s.Traced) (inside : k < s.order.length) :
    (s.elapsed k : Int) = s.bucket.endT.getD k 0 - s.bucket.runT.getD (s.order.getD k 0) 0 := by
  obtain ⟨run, finish, _, _, ordered, atRun, atEnd⟩ := traced.marks inside
  rw [Measured.elapsed, atRun, atEnd, Int.ofNat_sub (millis_mono ordered)]

/-- With later and later marks a truthful report has every end mark paired with its own call. -/
theorem Measured.Ticked.inOrder (ticked : s.Ticked) (truthful : s.Truthful b) : s.InOrder := by
  have traced := ticked.traced
  have perm := ((traced.truthful_iff ticked.positive b).mp truthful).map (Nat.cast : Nat → Int)
  simp only [List.map_map, Function.comp_def] at perm
  rw [List.map_congr_left fun k member => traced.paired_cast (List.mem_range.mp member),
    List.map_congr_left fun k member => traced.elapsed_cast (List.mem_range.mp member)] at perm
  have distinct : Set.InjOn (fun k => s.order.getD k 0) (Finset.range s.order.length) := by
    intro k first l second same
    have inside := Finset.mem_range.mp (Finset.mem_coe.mp first)
    have within := Finset.mem_range.mp (Finset.mem_coe.mp second)
    simp only [List.getD_eq_getElem?_getD, List.getElem?_eq_getElem inside,
      List.getElem?_eq_getElem within, Option.getD_some] at same
    exact (traced.distinct.getElem_inj_iff).mp same
  have below : ∀ k < s.order.length, s.order.getD k 0 < s.bucket.runT.length := by
    intro k inside
    obtain ⟨run, _, found, _⟩ := traced.marks inside
    rw [traced.starts, List.length_map]
    exact (List.getElem?_eq_some_iff.mp found).1
  have climbs := strictMonoOn_getD ticked.ends
  rw [traced.endT_length] at climbs
  have own :=
    Pairing.partner_eq traced.order_le (strictMonoOn_getD ticked.starts) climbs distinct below
    (Multiset.coe_eq_coe.mpr perm)
  calc s.order = (List.range s.order.length).map fun k => s.order.getD k 0 := eq_map_getD s.order
    _ = (List.range s.order.length).map fun k => k :=
      List.map_congr_left fun k member => own k (List.mem_range.mp member)
    _ = List.range s.order.length := List.map_id _

/-- A call that completes out of turn leaves calls out of order for good. -/
theorem inTurn_of_inOrder (traced : s.Traced) (stepped : Where RunStep Ticks s e t)
    (ordered : t.InOrder) :
    InTurn s e t ∧ s.InOrder := by
  obtain ⟨stepped, tick⟩ := stepped
  cases stepped with
  | enter now later small => exact ⟨trivial, ordered⟩
  | fail i start answers now found bad later small => exact ⟨fun ok => absurd ok bad, ordered⟩
  | complete i start answers now found ok later small =>
    obtain ⟨before, next⟩ := (inOrder_snoc _ _).mp ordered
    refine ⟨fun _ => ⟨(Nat.zero_le _).trans_lt (tick ok), fun j less run there unfinished => ?_⟩,
      before⟩
    have done : j ∈ s.order := by
      rw [before, List.mem_range, ← next]
      exact less
    rw [traced.completed, there, Option.bind_some, unfinished] at done
    exact absurd done (by simp)

end Turns

/-- `to_json` underflows in no run. The report is truthful in every run in which the calls
complete in turn, and with a clock that moves on between two marks in no other run. -/
theorem serviceReport_truthful (b : Build) (name path : String) (early late : Nat)
    (loaded : early ≤ late) (small : late < horizon) (es : List RunEvent) (s : Measured) :
    (Run RunStep (.load name path early late) es s → ∃ report, s.bucket.toJson b = some report) ∧
    (Run (Where RunStep InTurn) (.load name path early late) es s → s.Truthful b) ∧
    (Run (Where RunStep Ticks) (.load name path early late) es s →
      (s.Truthful b ↔ Run (Where (Where RunStep Ticks) InTurn)
        (.load name path early late) es s)) := by
  have traced := Measured.Traced.load name path early late loaded small
  have unmarked : (Measured.load name path early late).bucket.endT = [] := by
    exact List.eq_nil_of_length_eq_zero traced.endT_length
  have turned : (Measured.load name path early late).Turned := ⟨traced, rfl, by simp [unmarked]⟩
  have ticked : (Measured.load name path early late).Ticked :=
    ⟨traced, by rw [traced.starts]; exact List.Pairwise.nil, by simp [unmarked], by simp [unmarked]⟩
  refine ⟨fun run => ?_, fun run => ?_, fun run => ⟨fun truthful => ?_, fun inTurn => ?_⟩⟩
  · have reached := traced.run run
    exact reached.sound.toJson reached.small b
  · exact (run.stable (P := Measured.Turned)
      (fun turned stepped => turned.step stepped.1 stepped.2) turned).truthful b
  · have last :=
      run.stable (P := Measured.Ticked) (fun ticked stepped => ticked.step stepped) ticked
    have ordered := last.inOrder truthful
    refine run.where_of_lasting (P := Measured.Traced) (Q := fun s => ¬ s.InOrder)
      (fun traced stepped => traced.step stepped.1)
      (fun traced stepped out ordered => out (inTurn_of_inOrder traced stepped ordered).1)
      (fun traced disorder stepped ordered => disorder (inTurn_of_inOrder traced stepped ordered).2)
      traced (fun disorder => disorder ordered)
  · exact (inTurn.stable (P := Measured.Turned)
      (fun turned stepped => turned.step stepped.1.1 stepped.2) turned).truthful b

def ElfAnswers.good : ElfAnswers := ⟨true, .ok (), .ok ()⟩

/-- Two calls one after the other, of 250 ms and 40 ms; the third fails. -/
theorem sequential_run :
    ∃ es s, Run (Where RunStep InTurn) (.load "mapper" "libmapper.so" 5000000 6000000) es s ∧
    s.durations = [250, 40] := by
  refine ⟨[.enter 10000000, .leave 0 .good 260000000, .enter 300000000,
      .leave 1 .good 340000000, .enter 400000000,
    .leave 2 ⟨false, .ok (), .ok ()⟩ 400000000], _,
    .cons ⟨.enter _ 10000000 (by decide) (by decide), trivial⟩
    (.cons ⟨.complete _ 0 10000000 .good 260000000 rfl rfl (by decide) (by decide),
      fun _ => ⟨by decide, by simp⟩⟩
    (.cons ⟨.enter _ 300000000 (by decide) (by decide), trivial⟩
    (.cons ⟨.complete _ 1 300000000 .good 340000000 rfl rfl (by decide) (by decide),
      fun _ => ⟨by decide, ?_⟩⟩
    (.cons ⟨.enter _ 400000000 (by decide) (by decide), trivial⟩
    (.cons ⟨.fail _ 2 400000000 ⟨false, .ok (), .ok ()⟩ 400000000 rfl (by decide) (by decide)
      (by decide),
      fun ok => absurd ok (by decide)⟩ (.nil _)))))), rfl⟩
  intro j less run there
  obtain rfl : j = 0 := by omega
  obtain rfl : run = ⟨10000000, .completed 260000000⟩ := (Option.some.inj there).symm
  decide

theorem serviceReport_truthful_sequential :
    ∃ es s,
    Run (Where RunStep InTurn) (.load "mapper" "libmapper.so" 5000000 6000000) es s ∧
      s.durations = [250, 40] ∧
    s.Truthful debug := by
  obtain ⟨es, s, run, durations⟩ := sequential_run
  have report :=
    serviceReport_truthful debug "mapper" "libmapper.so" 5000000 6000000 (by decide)
      (by decide) es s
  exact ⟨es, s, run, durations, report.2.1 run⟩

/-- The second call is entered while the first one runs, and ends before it. The calls took 2000 ms
and 100 ms; the report says 600 ms and 1500 ms. -/
theorem serviceReport_crossed :
    ∃ es s, Run RunStep (.load "mapper" "libmapper.so" 5000000 6000000) es s ∧
    s.durations = [2000, 100] ∧ ¬ s.Truthful debug := by
  refine ⟨[.enter 1000000000, .enter 1500000000, .leave 1 .good 1600000000,
      .leave 0 .good 3000000000], _,
    .cons (.enter _ 1000000000 (by decide) (by decide))
      (.cons (.enter _ 1500000000 (by decide) (by decide))
        (.cons (.complete _ 1 1500000000 .good 1600000000 rfl rfl (by decide) (by decide))
          (.cons (.complete _ 0 1000000000 .good 3000000000 rfl rfl (by decide) (by decide))
            (.nil _)))), rfl, ?_⟩
  rintro ⟨report, made, same, _⟩
  have threads : report.threads = [⟨0, 600, 995⟩, ⟨1, 1500, 1495⟩] :=
    congrArg (fun json => (json.map ServiceReport.threads).getD []) made.symm
  rw [threads] at same
  exact absurd same (by decide)

end AlloyStack.Visor.Metric
