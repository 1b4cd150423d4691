import Mathlib.Data.List.Basic
import Mathlib.Data.Nat.ModEq
import AlloyStack.Library.Binary32
import AlloyStack.Library.Rust
import AlloyStack.Library.Transition
import AlloyStack.Visor.WorkflowOrder

/-! `metric.rs`: the bucket of an isolation and those of its services, the marks that are made
from `Isolation::new` to the end of `Isolation::run`, and what `analyze` reports afterwards. The
clock is read in nanoseconds since the epoch. -/
namespace AlloyStack.Visor.Metric
open Rust Workflow

inductive MetricEvent where
  | isolBegin
  | loadService
  | isolEnd
  | svcInit
  | svcRun
  | svcEnd
  | mem
  deriving DecidableEq, Repr

/-- `now_microsec!` and `now_millis!`. -/
def micros (now : Nat) : Nat := now / 1000
def millis (now : Nat) : Nat := now / 1000000

/-- `Duration` counts seconds in 64 bits. -/
def horizon : Nat := 2 ^ 64 * 1000000000

/-- The times that `json!` takes: its numbers have 64 bits, and the largest marks are
microseconds. -/
def printable : Nat := 2 ^ 64 * 1000

/-- `x - y` on `u128`. -/
def sub128 (b : Build) (x y : Nat) : Option Nat :=
  if b.overflowChecks ∧ x < y then none else some ((x + 2 ^ 128 - y) % 2 ^ 128)

structure SvcMetricBucket where
  svcName : String
  svcPath : String
  initT : Nat
  runT : List Nat
  endT : List Nat

/-- `SvcMetricBucket::mark` with the three events that the visor passes to it. -/
def SvcMetricBucket.mark (m : SvcMetricBucket) (event : MetricEvent) (now : Nat) :
    SvcMetricBucket :=
  match event with
  | .svcInit => if m.initT = 0 then { m with initT := millis now } else m
  | .svcRun => { m with runT := m.runT ++ [millis now] }
  | .svcEnd => { m with endT := m.endT ++ [millis now] }
  | _ => m

structure MetricBucket where
  svcMetrics : List SvcMetricBucket := []
  beginT : Nat := 0
  endT : Nat := 0
  loadServiceNum : Nat := 0
  memMetrics : List (Nat × Nat) := []
  /-- A panic inside `mark` leaves the lock of the bucket poisoned. -/
  poisoned : Bool := false

namespace MetricBucket

def newSvcMetric (m : MetricBucket) (name path : String) : MetricBucket :=
  { m with svcMetrics := m.svcMetrics ++ [⟨name, path, 0, [], []⟩] }

def markSvc (m : MetricBucket) (j : Nat) (event : MetricEvent) (now : Nat) : MetricBucket :=
  { m with svcMetrics := m.svcMetrics.modify j fun svc => svc.mark event now }

/-- `MetricBucket::mark`. The two assertions and the last arm panic with the lock held. -/
def mark (b : Build) (m : MetricBucket) (event : MetricEvent) (now : Nat) : MetricBucket :=
  if m.poisoned then m
  else
    match event with
    | .loadService =>
      match b.add32 m.loadServiceNum 1 with
      | some n => { m with loadServiceNum := n }
      | none => { m with poisoned := true }
    | .mem => { m with memMetrics := m.memMetrics ++ [(micros now, 0)] }
    | .isolBegin =>
      if m.beginT = 0 then { m with beginT := micros now } else { m with poisoned := true }
    | .isolEnd => if m.endT = 0 then { m with endT := micros now } else { m with poisoned := true }
    | _ => { m with poisoned := true }

end MetricBucket

/-- One entry of `SvcMetricBucketInner::to_json`. -/
structure ThreadReport where
  idx : Nat
  runDur : Nat
  initDur : Nat
  deriving DecidableEq, Repr

/-- The loop of `to_json` over the pairs of marks; `none` is a panic. -/
def threadReports (b : Build) (initT : Nat) : Nat → List (Nat × Nat) → Option (List ThreadReport)
  | _, [] => some []
  | idx, (run, finish) :: rest =>
    if 0 < finish then
      (sub128 b finish run).bind fun runDur =>
        (sub128 b run initT).bind fun initDur =>
          (threadReports b initT (idx + 1) rest).map (⟨idx, runDur, initDur⟩ :: ·)
    else threadReports b initT (idx + 1) rest

/-- The report of a service; the average is kept as its sum and its number of terms. -/
structure ServiceReport where
  name : String
  path : String
  initT : Nat
  threads : List ThreadReport
  average : Option (Nat × Nat)

def SvcMetricBucket.toJson (b : Build) (m : SvcMetricBucket) : Option ServiceReport :=
  (threadReports b m.initT 0 (m.runT.zip m.endT)).map fun threads =>
    { name := m.svcName, path := m.svcPath, initT := m.initT, threads
      average :=
        if threads = [] then none
        else some ((threads.map ThreadReport.runDur).sum, threads.length) }

/-- `json!(dur as f32 / 1000.)`, where `none` is the `null` that stands for an infinity. -/
def durationMs (dur : Nat) : Option ℚ :=
  (Binary32.round dur).bind fun micros => Binary32.round (micros / 1000)

structure IsolationReport where
  beginT : Nat
  endT : Nat
  loadServiceNum : Nat
  memMetrics : List (Nat × Nat)
  totalDur : Option ℚ

def MetricBucket.toJson (b : Build) (m : MetricBucket) : Option IsolationReport :=
  (sub128 b m.endT m.beginT).map fun dur =>
    { beginT := m.beginT, endT := m.endT, loadServiceNum := m.loadServiceNum,
      memMetrics := m.memMetrics, totalDur := durationMs dur }

inductive MetricOpt where
  | none
  | all
  | totalDur
  | mem
  deriving DecidableEq, Repr

/-- What `analyze` prints. -/
inductive Report where
  | nothing
  | all (services : List ServiceReport) (isolation : IsolationReport)
  | totalDur (totalDur : Option ℚ)
  | mem (memMetrics : List (Nat × Nat))

/-- The entry `total_dur(ms)`, if there is one. -/
def Report.total : Report → Option (Option ℚ)
  | .all _ isolation => some isolation.totalDur
  | .totalDur total => some total
  | _ => Option.none

def servicesJson (b : Build) : List SvcMetricBucket → Option (List ServiceReport)
  | [] => some []
  | m :: rest => (m.toJson b).bind fun report => (servicesJson b rest).map (report :: ·)

/-- `MetricBucket::analyze`; `none` is a panic. -/
def MetricBucket.analyze (b : Build) (m : MetricBucket) (opt : MetricOpt) : Option Report :=
  if m.poisoned then none
  else
    match opt with
    | .none => some .nothing
    | .all => (servicesJson b m.svcMetrics).bind fun services => (m.toJson b).map (.all services)
    | .mem => some (.mem m.memMetrics)
    | .totalDur => (m.toJson b).map fun isolation => .totalDur isolation.totalDur

/-- An isolation with its marks. `modules` are the loaded modules by name, each with the number
of its bucket; `frames` the calls of `Service::run` in progress; `begun` and `ended` the
readings of the clock at the begin mark and at the return of `run`. -/
structure Metered where
  running : Option Running
  bucket : MetricBucket
  modules : String → Option Nat
  frames : List (Place × Nat)
  now : Nat
  begun : Nat
  ended : Option Nat

/-- `Isolation::new`, its marks made at `begun` and `now`. -/
def newMetered (b : Build) (begun now : Nat) : Metered where
  running := none
  bucket := (({} : MetricBucket).mark b .isolBegin begun).mark b .mem now
  modules := fun _ => none
  frames := []
  now := now
  begun := begun
  ended := none

/-- The answers of a load: whether the library could be opened, and the result. -/
structure Loading where
  opened : Bool
  result : Outcome Unit

/-- What is fixed during a run: the build, the registered libraries, the workflow and the
outcomes of its calls. With `guarded` the visor has steps before the groups that can fail. -/
structure Installation where
  build : Build
  registered : String → Option String
  plan : Plan
  outcomes : Outcomes
  guarded : Bool

namespace Metered
variable (v : Installation) (s : Metered)

/-- `ServiceLoader::load`. The library and the service mark the initialisation. -/
def load (name : String) (loading : Loading) (early late : Nat) : Metered :=
  if s.bucket.poisoned then s
  else
    match v.registered name with
    | none => s
    | some path =>
      let j := s.bucket.svcMetrics.length
      let bucket := (s.bucket.newSvcMetric name path).markSvc j .svcInit early
      let bucket := if loading.opened then bucket.markSvc j .svcInit late else bucket
      { s with
        bucket := bucket
        modules :=
          if loading.result = .ok () then Function.update s.modules name (some j) else s.modules }

def appOrLoad (name : String) (loading : Loading) (early late : Nat) : Metered :=
  match s.modules name with
  | some _ => s
  | none => s.load v name loading early late

def serviceOrLoad (name : String) (loading : Loading) (early late : Nat) : Metered :=
  match s.modules name with
  | some _ => s
  | none =>
    let marked := { s with bucket := s.bucket.mark v.build .loadService early }
    marked.load v name loading early late

/-- The service marks of `ElfService::run` around the call of the user function. -/
def enter (p : Place) (now : Nat) : Metered :=
  match (v.plan.app p).bind fun app => s.modules app.name with
  | some j => { s with frames := (p, j) :: s.frames, bucket := s.bucket.markSvc j .svcRun now }
  | none => s

def leave (p : Place) (now : Nat) : Metered :=
  match s.frames.find? fun frame => frame.1 = p with
  | some frame =>
    { s with
      frames := s.frames.erase frame
      bucket :=
        if v.plan.result v.outcomes p = .ok () then s.bucket.markSvc frame.2 .svcEnd now
        else s.bucket }
  | none => s

/-- What a step of `run` does to the services. -/
def serve (e : Event) (opened : Bool) (early late : Nat) : Metered :=
  match e with
  | .load p =>
    match v.plan.app p with
    | some app => s.appOrLoad v app.name ⟨opened, v.outcomes.load p⟩ early late
    | none => s
  | .start p => s.enter v p late
  | .finish p => s.leave v p late
  | _ => s

/-- The marks that `run` makes itself. -/
def note (marks : List Mark) (early late : Nat) : MetricBucket :=
  marks.foldl (fun bucket mark =>
    match mark with
    | .mem => bucket.mark v.build .mem early
    | .isolEnd => bucket.mark v.build .isolEnd late) s.bucket

/-- The state of `run` after a step, with the time of its return. -/
def reach (t : Running) (late : Nat) : Metered :=
  { s with
    running := some t
    ended := match t.control with
      | .ended _ => s.ended.or (some late)
      | _ => s.ended }

end Metered

inductive Entry where
  | appOrLoad (name : String)
  | serviceOrLoad (name : String)
  | metric (event : MetricEvent)
  | begin
  | refuse
  | work (e : Event)

/-- One step between two readings of the clock: modules are loaded by `preload` and by host
calls, functions mark events through the host call `metric`, and `run` begins and proceeds. -/
inductive MetricStep (v : Installation) (s : Metered) : Entry → Metered → Prop where
  | appOrLoad (name : String) (loading : Loading) (early late : Nat) :
      s.now ≤ early → early ≤ late → late < printable →
      MetricStep v s (.appOrLoad name) { s.appOrLoad v name loading early late with now := late }
  | serviceOrLoad (name : String) (loading : Loading) (early late : Nat) :
      s.now ≤ early → early ≤ late → late < printable →
      MetricStep v s (.serviceOrLoad name)
        { s.serviceOrLoad v name loading early late with now := late }
  | metric (event : MetricEvent) (late : Nat) : s.now ≤ late → late < printable → s.frames ≠ [] →
      MetricStep v s (.metric event)
        { s with bucket := s.bucket.mark v.build event late, now := late }
  | begin (late : Nat) : s.now ≤ late → late < printable → s.running = none →
      MetricStep v s .begin { s with
        running := some v.plan.begin, bucket := s.note v v.plan.begin.marks late late, now := late }
  | refuse (message : String) (early late : Nat) : s.now ≤ early → early ≤ late → late < printable →
      s.running = none → v.guarded = true →
      MetricStep v s .refuse
        { s.reach { v.plan.begin with control := .ended (.err message) } late with
        bucket := s.note v v.plan.begin.marks early late, now := late }
  | work (e : Event) (r t : Running) (opened : Bool) (early late : Nat) :
      s.now ≤ early → early ≤ late → late < printable → s.running = some r →
        Workflow.Step v.plan v.outcomes r e t →
      MetricStep v s (.work e) { (s.serve v e opened early late).reach t late with
        bucket :=
          (s.serve v e opened early late).note v (t.marks.drop r.marks.length) early late, now :=
            late }

end AlloyStack.Visor.Metric
