import Mathlib.Logic.Function.Basic
import AlloyStack.Library.Rust
import AlloyStack.Library.Transition

/-! `Isolation::run` with the default features: the groups of a config run one after another,
the apps of a group on scoped threads; without groups the apps run in config order on the
calling thread. What a load, a thread creation or an app returns is part of the input. -/
namespace AlloyStack.Visor.Workflow
open Rust

/-- `BTreeMap<String, String>`. -/
abbrev Args := String → Option String

structure App where
  name : String
  args : Args

inductive IsolationGroupApp where
  | name (name : String)
  | detailed (app : App)

def IsolationGroupApp.toIsolation (id : String) : IsolationGroupApp → App
  | .name app => { name := app, args := Function.update (fun _ => none) "id" (some id) }
  | .detailed app => { app with args := Function.update app.args "id" (some id) }

structure IsolationGroup where
  list : List IsolationGroupApp
  args : Args

/-- The arguments of an app override those of its group. -/
def IsolationGroup.toIsolation (group : IsolationGroup) : List App :=
  group.list.mapIdx fun idx entry =>
    let app := entry.toIsolation (toString idx)
    { app with args := fun key => (app.args key).or (group.args key) }

/-- The fields of the config that `run` depends on; an app has a name and a path. -/
structure IsolationConfig where
  apps : List (String × String)
  groups : List IsolationGroup

/-- The fields of `Isolation` that `run` reads. -/
structure Plan where
  appNames : List String
  groups : List (List App)

def newIsolation (config : IsolationConfig) : Plan where
  appNames := config.apps.map Prod.fst
  groups := config.groups.map IsolationGroup.toIsolation

/-- An app of the schedule: the index of its group and its index in the group. -/
abbrev Place := Nat × Nat

/-- What `run` iterates over. In a sequence every app gets the arguments `{"id": "0"}`. -/
def Plan.schedule (w : Plan) : List (List App) :=
  if w.groups.isEmpty then
    [w.appNames.map fun name => { name, args := Function.update (fun _ => none) "id" (some "0") }]
  else w.groups

def Plan.group (w : Plan) (k : Nat) : List App := w.schedule.getD k []

def Plan.app (w : Plan) (p : Place) : Option App := (w.group p.1)[p.2]?

/-- The environment: `app_or_load`, `spawn_scoped` and `Service::run` at each place. -/
structure Outcomes where
  load : Place → Outcome Unit
  spawn : Place → Outcome Unit
  run : Place → Args → Outcome Unit

/-- The life of one call of `Service::run`; `ready` is a thread created but not scheduled yet. -/
inductive Status where
  | idle
  | ready
  | running
  | done
  deriving DecidableEq, Repr

/-- Where the thread that called `run` is. `leaving` is the end of the closure of
`thread::scope` with its result and the number of handles already joined; `listed` and
`inside` are the loop of `run_as_sequence` before a load and during an app. -/
inductive Control where
  | loading (k i : Nat)
  | spawning (k i : Nat)
  | joining (k i : Nat)
  | leaving (k joined : Nat) (result : Outcome Unit)
  | listed (i : Nat)
  | inside (i : Nat)
  | ended (result : Outcome Unit)
  deriving DecidableEq

inductive Mark where
  | mem
  | isolEnd
  deriving DecidableEq

structure Running where
  control : Control
  status : Place → Status
  marks : List Mark

def Plan.begin (w : Plan) : Running where
  control := if w.groups.isEmpty then .listed 0 else .loading 0 0
  status := fun _ => .idle
  marks := [.mem]

inductive Event where
  | load (p : Place)
  | spawn (p : Place)
  | start (p : Place)
  | finish (p : Place)
  | join (p : Place)
  | move
  deriving DecidableEq

/-- The loop over the groups after `run_group_in_parallel`. -/
def afterGroup (k : Nat) : Outcome Unit → Control
  | .ok () => .loading (k + 1) 0
  | failed => .ended (failed.mapErr fun e => s!"run_group_in_parallel failed: {e}")

/-- The first failed load ends the group. -/
def afterLoad (k i : Nat) : Outcome Unit → Control
  | .ok () => .loading k (i + 1)
  | failed => afterGroup k failed

def afterSpawn (k i : Nat) : Outcome Unit → Control
  | .ok () => .spawning k (i + 1)
  | failed => .leaving k 0 failed

/-- `handle.join().expect("join failed?")?`. -/
def afterJoin (k i : Nat) : Outcome Unit → Control
  | .ok () => .joining k (i + 1)
  | failed => .leaving k (i + 1) failed

/-- The loop of `run_as_sequence` after one app, and `run` after the loop. -/
def afterInline (i : Nat) : Outcome Unit → Control
  | .ok () => .listed (i + 1)
  | failed => .ended (failed.mapErr fun e => s!"run_as_sequence failed: {e}")

def threadResult (app : App) (result : Outcome Unit) : Outcome Unit :=
  result.mapErr fun e => s!"app {app.name} run failed. {e}"

/-- `thread::scope` panics if its closure panicked, or if a thread panicked whose handle was
never joined. -/
def scopeResult (w : Plan) (o : Outcomes) (status : Place → Status) (k joined : Nat)
    (result : Outcome Unit) : Outcome Unit :=
  if ∃ i < (w.group k).length, joined ≤ i ∧ status (k, i) = .done ∧
      ∃ app ∈ w.app (k, i), o.run (k, i) app.args = .panic then .panic
  else result

/-- One step of the calling thread or of an app thread. -/
inductive Step (w : Plan) (o : Outcomes) : Running → Event → Running → Prop where
  | load : s.control = .loading k i → w.app (k, i) = some app →
      Step w o s (.load (k, i)) { s with control := afterLoad k i (o.load (k, i)) }
  | loaded : s.control = .loading k i → w.app (k, i) = none → k < w.schedule.length →
      Step w o s .move { s with control := .spawning k 0 }
  | spawn : s.control = .spawning k i → w.app (k, i) = some app → o.spawn (k, i) = .ok () →
      Step w o s (.spawn (k, i)) { s with
        control := afterSpawn k i (.ok ()), status := Function.update s.status (k, i) .ready }
  | spawnFailed : s.control = .spawning k i → w.app (k, i) = some app → o.spawn (k, i) ≠ .ok () →
      Step w o s (.spawn (k, i)) { s with control := afterSpawn k i (o.spawn (k, i)) }
  | spawned : s.control = .spawning k i → w.app (k, i) = none →
      Step w o s .move { s with control := .joining k 0 }
  | join : s.control = .joining k i → w.app (k, i) = some app → s.status (k, i) = .done →
      Step w o s (.join (k, i)) { s with
        control := afterJoin k i (threadResult app (o.run (k, i) app.args)) }
  | joined : s.control = .joining k i → w.app (k, i) = none →
      Step w o s .move { s with control := .leaving k i (.ok ()) }
  | leave : s.control = .leaving k joined result →
      (∀ i, s.status (k, i) = .idle ∨ s.status (k, i) = .done) →
      Step w o s .move { s with
        control := afterGroup k (scopeResult w o s.status k joined result) }
  | groupsEnd : s.control = .loading k i → w.schedule.length ≤ k →
      Step w o s .move { s with control := .ended (.ok ()), marks := s.marks ++ [.mem, .isolEnd] }
  | call : s.control = .listed i → w.app (0, i) = some app → o.load (0, i) = .ok () →
      Step w o s (.load (0, i)) { s with
        control := .inside i, status := Function.update s.status (0, i) .ready }
  | callFailed : s.control = .listed i → w.app (0, i) = some app → o.load (0, i) ≠ .ok () →
      Step w o s (.load (0, i)) { s with
        control := afterInline i ((o.load (0, i)).mapErr fun e => s!"load app failed: {e}") }
  | returned : s.control = .inside i → w.app (0, i) = some app → s.status (0, i) = .done →
      Step w o s (.join (0, i)) { s with
        control := afterInline i ((o.run (0, i) app.args).mapErr
          fun e => s!"app_{app.name} run failed, reason: {e}") }
  | sequenceEnd : s.control = .listed i → w.app (0, i) = none →
      Step w o s .move { s with control := .ended (.ok ()), marks := s.marks ++ [.mem, .isolEnd] }
  | start : s.status p = .ready →
      Step w o s (.start p) { s with status := Function.update s.status p .running }
  | finish : s.status p = .running →
      Step w o s (.finish p) { s with status := Function.update s.status p .done }

end AlloyStack.Visor.Workflow
