import Mathlib.Algebra.Order.BigOperators.Group.Finset
import AlloyStack.Library.LockOrder
import AlloyStack.Visor.HostCallCache

/-! The locks of host-call resolution. A thread in `get_or_find` holds `USER_HOST_CALL` and, while
the visor looks the call up, `ISOLATION_CTX` of its library; the visor takes `ISOL_TABLE` and
the lock of the isolation, and under it `ISOLATION_CTX` of every library that it initialises. A
step goes from one lock to the next; guards are dropped with the step before. -/
namespace AlloyStack.Visor
open AsStd Transition LockPhases

inductive CallLock where
  | userHostCall (lib : Lib)
  | isolationCtx (lib : Lib)
  | isolTable
  | inner (isol : Nat)
  deriving DecidableEq, Repr

/-- The host call for which the visor loads a module, if it is not loading one for itself. -/
abbrev Caller := Option (Lib × CommonHostCall)

/-- Where a thread waits: at the library's table, at its context for the address of the visor's
function and again for the number of its isolation, at the table of isolations, at the lock of
the isolation, and at the context of the library that it initialises, twice. -/
inductive Waiting where
  | idle
  | table (lib : Lib) (call : CommonHostCall)
  | finder (lib : Lib) (call : CommonHostCall)
  | context (lib : Lib) (call : CommonHostCall)
  | getIsol (lib : Lib) (call : CommonHostCall) (isol : Nat)
  | inner (caller : Caller) (isol : Nat) (name : String)
  | setHandler (caller : Caller) (isol : Nat) (module : Module)
  | getHandler (caller : Caller) (isol : Nat) (module : Module)
  deriving DecidableEq, Repr

def Caller.holds : Caller → CallLock → Bool
  | some (lib, _), .userHostCall other | some (lib, _), .isolationCtx other => lib == other
  | _, _ => false

namespace Waiting

def wants : Waiting → Option CallLock
  | idle => none
  | table lib _ => some (.userHostCall lib)
  | finder lib _ | context lib _ => some (.isolationCtx lib)
  | getIsol _ _ _ => some .isolTable
  | inner _ isol _ => some (.inner isol)
  | setHandler _ _ module | getHandler _ _ module => some (.isolationCtx module.lib)

def holds : Waiting → CallLock → Bool
  | finder lib _, .userHostCall other | context lib _, .userHostCall other => lib == other
  | getIsol lib call _, lock => Caller.holds (some (lib, call)) lock
  | inner caller _ _, lock => caller.holds lock
  | setHandler caller isol _, lock | getHandler caller isol _, lock =>
    lock == .inner isol || caller.holds lock
  | _, _ => false

/-- The number of locks still to be waited for. -/
def ahead : Waiting → Nat
  | idle => 0
  | table _ _ => 7
  | finder _ _ => 6
  | context _ _ => 5
  | getIsol _ _ _ => 4
  | inner _ _ _ => 3
  | setHandler _ _ _ => 2
  | getHandler _ _ _ => 1

end Waiting

variable (host : Host) (handlers : Handlers)

/-- The visor has the module: a host call looks up its symbol. -/
def Linkage.deliver (k : Linkage) (caller : Caller) (module : Module) : Linkage :=
  match caller with
  | none => k
  | some (lib, call) =>
    match host.symbol module.lib call.toString with
    | none => k
    | some addr => k.store lib call addr

def Linkage.cache (k : Linkage) (caller : Caller) (isol : Nat) (module : Module) : Linkage :=
  Linkage.deliver host { k with process := k.process.insert isol module.name module } caller module

/-- What a thread does once it has the lock that it waits for. A panic drops the guards. -/
def Waiting.next (linking : Linking) (k : Linkage) : Waiting → Waiting × Linkage
  | .idle => (.idle, k)
  | .table lib call =>
    match k.tables lib call.entry with
    | some _ => (.idle, k)
    | none => (.finder lib call, k)
  | .finder lib call =>
    match k.process.context lib with
    | none => (.idle, k)
    | some _ => (.context lib call, k)
  | .context lib call =>
    match k.process.context lib with
    | none => (.idle, k)
    | some isol => (.getIsol lib call isol, k)
  | .getIsol lib call isol =>
    match host.loaders isol with
    | none => (.idle, k)
    | some _ =>
      match handlers.address call with
      | some addr => (.idle, k.store lib call addr)
      | none => (.inner (some (lib, call)) isol call.belongTo, k)
  | .inner caller isol name =>
    match k.process.modules isol name with
    | some module => (.idle, k.deliver host caller module)
    | none =>
      match host.loaders isol with
      | none => (.idle, k)
      | some loader =>
        match linkModule host loader isol name linking k.process with
        | (.error _, p) => (.idle, { k with process := p })
        | (.ok module, p) =>
          if !module.withLibos || shouldNotSetContext host module.name then
            (.idle, Linkage.cache host { k with process := p } caller isol module)
          else
            match host.symbol module.lib "set_handler_addr" with
            | none => (.idle, { k with process := p.close module.lib })
            | some _ => (.setHandler caller isol module, { k with process := p })
  | .setHandler caller isol module =>
    let k := { k with process := k.process.setHandler module.lib isol }
    match host.symbol module.lib "get_handler_addr" with
    | none => (.idle, { k with process := k.process.close module.lib })
    | some _ => (.getHandler caller isol module, k)
  | .getHandler caller isol module => (.idle, k.cache host caller isol module)

/-- The threads of the process. -/
structure Threads (T : Type) where
  waiting : T → Waiting
  linkage : Linkage := {}

/-- The library's code is running: some isolation has a module of it. -/
def Process.Runs (p : Process) (lib : Lib) : Prop :=
  ∃ isol name module, p.modules isol name = some module ∧ module.lib = lib

inductive Act (T : Type) where
  | call (thread : T) (lib : Lib) (call : CommonHostCall)
  | load (thread : T) (isol : Nat) (name : String)
  | go (thread : T) (linking : Linking)

variable {T : Type} [DecidableEq T]

/-- The thread gets its lock. -/
def Threads.go (t : T) (linking : Linking) (s : Threads T) : Threads T where
  waiting := Function.update s.waiting t ((s.waiting t).next host handlers linking s.linkage).1
  linkage := ((s.waiting t).next host handlers linking s.linkage).2

/-- A thread makes a host call in the code of a loaded library, or the visor asks for a module;
or a thread gets its lock, which nobody holds. -/
inductive ThreadStep : Threads T → Act T → Threads T → Prop where
  | call : s.waiting t = .idle → s.linkage.process.Runs lib →
      ThreadStep s (.call t lib call)
        { s with waiting := Function.update s.waiting t (.table lib call) }
  | load : s.waiting t = .idle → (host.loaders isol).isSome →
      ThreadStep s (.load t isol name)
        { s with waiting := Function.update s.waiting t (.inner none isol name) }
  | go {s : Threads T} {t : T} {lock : CallLock} {linking : Linking} :
      (s.waiting t).wants = some lock → Unheld Waiting.holds s.waiting lock →
      ThreadStep s (.go t linking) (s.go host handlers t linking)

/-- No isolation has one library under two names. -/
def Host.Distinct : Prop :=
  ∀ isol loader, host.loaders isol = some loader → ∀ a b first second,
    loader.registered a = some first → loader.registered b = some second →
    host.file (host.filename first) = host.file (host.filename second) → a = b

/-- Cached modules are what the loader linked under their names. -/
def Process.Filed (p : Process) : Prop :=
  ∀ isol name module, p.modules isol name = some module →
    ∃ loader, host.loaders isol = some loader ∧ Linked host loader name module

/-- A host call for which a module is loaded comes from a running library of the isolation. -/
def Caller.Sound (caller : Caller) (k : Linkage) (isol : Nat) (name : String) : Prop :=
  ∀ lib call, caller = some (lib, call) → k.process.Runs lib ∧
    k.process.context lib = some isol ∧ name = call.belongTo ∧ handlers.address call = none

/-- The module has been linked and is not yet in the isolation. -/
structure Module.Loading (module : Module) (k : Linkage) (isol : Nat) : Prop where
  missing : k.process.modules isol module.name = none
  linked : k.process.linked isol = some module.lib.lmid
  built : ∃ loader, host.loaders isol = some loader ∧ Linked host loader module.name module

def Waiting.Sound (k : Linkage) : Waiting → Prop
  | .idle => True
  | .table lib _ | .finder lib _ | .context lib _ => k.process.Runs lib
  | .getIsol lib _ isol => k.process.Runs lib ∧ k.process.context lib = some isol
  | .inner caller isol name => caller.Sound handlers k isol name ∧ (host.loaders isol).isSome
  | .setHandler caller isol module =>
    caller.Sound handlers k isol module.name ∧ module.Loading host k isol ∧ module.Contextual host
  | .getHandler caller isol module =>
    caller.Sound handlers k isol module.name ∧ module.Loading host k isol ∧
      k.process.context module.lib = some isol

structure Threads.Sound (s : Threads T) : Prop where
  coherent : s.linkage.Coherent host handlers
  filed : s.linkage.process.Filed host
  each : ∀ t, (s.waiting t).Sound host handlers s.linkage
  exclusive : Exclusive Waiting.holds s.waiting

variable {host handlers} {p q : Process} {k l : Linkage} {isol : Nat} {lib : Lib}
  {call : CommonHostCall} {linking : Linking} {caller : Caller} {module : Module}

theorem Process.Runs.extends (runs : Process.Runs p lib) (grows : p.Extends q) : q.Runs lib := by
  obtain ⟨isol, name, module, cached, same⟩ := runs
  exact ⟨isol, name, module, grows.modules isol name module cached, same⟩

theorem Caller.Sound.extends (sound : Caller.Sound handlers caller k isol name)
    (grows : k.process.Extends l.process) : Caller.Sound handlers caller l isol name := by
  intro lib call same
  obtain ⟨runs, inside, named⟩ := sound lib call same
  exact ⟨runs.extends grows, grows.context lib isol inside, named⟩

/-- A library that is being initialised runs nowhere: it would be a module of the same isolation
under another name. -/
theorem Module.Loading.not_runs (loading : Module.Loading host module k isol)
    (placed : k.process.Placed host) (filed : k.process.Filed host) (distinct : host.Distinct) :
    ¬ k.process.Runs module.lib := by
  rintro ⟨i, name, other, cached, same⟩
  have here := placed.modules i name other cached
  rw [same] at here
  obtain rfl := placed.apart i isol _ here loading.linked
  obtain ⟨loader, found, built⟩ := loading.built
  obtain ⟨loader', found', built'⟩ := filed i name other cached
  obtain rfl : loader' = loader := Option.some.inj (found'.symm.trans found)
  have alike := built'.file.symm.trans ((congrArg Lib.file same).trans built.file)
  obtain rfl := distinct i loader' found _ _ _ _ built'.registered built.registered alike
  rw [loading.missing] at cached
  cases cached

@[simp] theorem store_process (k : Linkage) (lib : Lib) (call : CommonHostCall) (addr : Nat) :
    (k.store lib call addr).process = k.process := rfl

theorem deliver_process (k : Linkage) (caller : Caller) (module : Module) :
    (k.deliver host caller module).process = k.process := by
  unfold Linkage.deliver
  split
  · rfl
  · split
    · rfl
    · rfl

theorem Linkage.Coherent.deliver (coherent : k.Coherent host handlers)
    (sound : caller.Sound handlers k isol name)
    (cached : k.process.modules isol name = some module) :
    (k.deliver host caller module).Coherent host handlers := by
  unfold Linkage.deliver
  split
  · exact coherent
  · rename_i lib call
    obtain ⟨_, inside, rfl, foreign⟩ := sound lib call rfl
    split
    · exact coherent
    · rename_i addr exported
      refine coherent.store inside ?_
      simp only [Process.lookup, foreign, cached]
      exact exported

theorem Process.Filed.insert (filed : p.Filed host) (found : host.loaders isol = some loader)
    (built : Linked host loader module.name module) :
    (p.insert isol module.name module).Filed host := by
  intro i key other stored
  rw [insert_modules] at stored
  split at stored
  · rename_i here
    obtain ⟨rfl, rfl⟩ := here
    obtain rfl := Option.some.inj stored
    exact ⟨loader, found, built⟩
  · exact filed i key other stored

/-- What one step of a thread keeps. It adds modules only under the lock of their isolation. -/
structure Advances (host : Host) (handlers : Handlers) (w : Waiting) (k : Linkage)
    (after : Waiting × Linkage) : Prop where
  coherent : after.2.Coherent host handlers
  grows : k.process.Extends after.2.process
  filed : after.2.process.Filed host
  sound : after.1.Sound host handlers after.2
  modules : ∀ i name, after.2.process.modules i name = k.process.modules i name ∨
    w.holds (.inner i) = true ∨ w.wants = some (.inner i)

/-- Steps that only move the thread. -/
theorem Advances.move (coherent : k.Coherent host handlers) (filed : k.process.Filed host)
    (sound : Waiting.Sound host handlers k after) : Advances host handlers w k (after, k) :=
  ⟨coherent, .refl _, filed, sound, fun _ _ => .inl rfl⟩

/-- The end of a load. -/
theorem Advances.cache {middle : Linkage} (coherent : middle.Coherent host handlers)
    (grows : k.process.Extends middle.process) (filed : middle.process.Filed host)
    (loading : module.Loading host middle isol)
    (inside : module.Contextual host → middle.process.context module.lib = some isol)
    (sound : caller.Sound handlers middle isol module.name)
    (unchanged : middle.process.modules = k.process.modules)
    (locked : w.holds (.inner isol) = true ∨ w.wants = some (.inner isol)) :
    Advances host handlers w k (.idle, middle.cache host caller isol module) := by
  have extended : middle.process.Extends (middle.process.insert isol module.name module) :=
    (Process.Extends.refl _).insert loading.missing
  have placed := coherent.placed.insert loading.linked inside
  obtain ⟨loader, found, built⟩ := loading.built
  have inserted := filed.insert found built
  have process : (middle.cache host caller isol module).process =
    middle.process.insert isol module.name module := deliver_process ..
  refine ⟨?_, ?_, ?_, trivial, ?_⟩
  · refine (coherent.extend placed extended).deliver (sound.extends extended) ?_
    rw [insert_modules, if_pos ⟨rfl, rfl⟩]
  · rw [process]
    exact grows.trans extended
  · rw [process]
    exact inserted
  · intro i name
    by_cases here : i = isol
    · subst here
      exact .inr locked
    · dsimp only
      rw [process, insert_modules, if_neg (fun both => here both.1), unchanged]
      exact .inl rfl

/-- Under the lock of its isolation a thread finds the module, or links it. -/
theorem inner_advances (separate : host.Separate) (complete : host.Complete)
    (coherent : k.Coherent host handlers) (filed : k.process.Filed host)
    (calling : caller.Sound handlers k isol name) (loading : (host.loaders isol).isSome)
    (linking : Linking) :
    Advances host handlers (.inner caller isol name) k
      (Waiting.next host handlers linking k (.inner caller isol name)) := by
  dsimp only [Waiting.next]
  split
  · rename_i module cached
    refine ⟨coherent.deliver calling cached, ?_, ?_, trivial, ?_⟩
    · rw [deliver_process]
      exact .refl _
    · rw [deliver_process]
      exact filed
    · intro i key
      rw [deliver_process]
      exact .inl rfl
  · rename_i missing
    split
    · exact .move coherent filed trivial
    · rename_i loader found
      rcases linkModule_cases host loader isol name linking k.process with
        ⟨e, failed⟩ | ⟨module, linked, opens, built⟩
      · rw [failed]
        exact .move coherent filed trivial
      · rw [linked]
        obtain ⟨placed, grows, own⟩ := coherent.placed.getOrInit separate loading opens
        have same : ((k.process.opened module.lib).getOrInit isol module.lib.lmid).modules =
            k.process.modules := rfl
        generalize (k.process.opened module.lib).getOrInit isol module.lib.lmid = r
          at placed grows own same
        dsimp only
        have extended := coherent.extend placed grows
        have listed : r.Filed host := by
          intro i key other cached
          rw [same] at cached
          exact filed i key other cached
        obtain rfl := built.named
        have pending : module.Loading host { k with process := r } isol :=
          ⟨by rw [same]; exact missing, own, loader, found, built⟩
        have calls : caller.Sound handlers { k with process := r } isol module.name :=
          calling.extends grows
        split
        · rename_i plain
          refine .cache extended grows listed pending (fun contextual => ?_) calls same
            (.inr rfl)
          simp [contextual.1, contextual.2] at plain
        · rename_i takes
          have contextual : module.Contextual host := by simpa [Module.Contextual] using takes
          split
          · rename_i lacks
            have sets := (complete isol loader _ module found built contextual).1
            rw [lacks] at sets
            cases sets
          · exact ⟨extended, grows, listed, ⟨calls, pending, contextual⟩,
              fun i key => .inl (by rw [same])⟩

theorem next_advances (separate : host.Separate) (complete : host.Complete)
    (coherent : k.Coherent host handlers) (filed : k.process.Filed host) {w : Waiting}
    (sound : w.Sound host handlers k) (linking : Linking) :
    Advances host handlers w k (w.next host handlers linking k) := by
  cases w with
  | idle => exact .move coherent filed trivial
  | table lib call =>
    dsimp only [Waiting.next]
    split
    · exact .move coherent filed trivial
    · exact .move coherent filed sound
  | finder lib call =>
    dsimp only [Waiting.next]
    split
    · exact .move coherent filed trivial
    · exact .move coherent filed sound
  | context lib call =>
    dsimp only [Waiting.next]
    split
    · exact .move coherent filed trivial
    · rename_i isol inside
      exact .move coherent filed ⟨sound, inside⟩
  | getIsol lib call isol =>
    obtain ⟨runs, inside⟩ := sound
    dsimp only [Waiting.next]
    split
    · exact .move coherent filed trivial
    · rename_i loader found
      split
      · rename_i addr own
        refine ⟨coherent.store inside ?_, .refl _, filed, trivial, fun _ _ => .inl rfl⟩
        simp only [Process.lookup, own]
      · rename_i foreign
        refine .move coherent filed ⟨?_, by rw [found]; rfl⟩
        rintro _ _ ⟨⟩
        exact ⟨runs, inside, rfl, foreign⟩
  | inner caller isol name =>
    exact inner_advances separate complete coherent filed sound.1 sound.2 linking
  | setHandler caller isol module =>
    obtain ⟨calling, loading, contextual⟩ := sound
    obtain ⟨placed, grows⟩ := coherent.placed.setHandler loading.linked
    have extended := coherent.extend placed grows
    dsimp only [Waiting.next]
    split
    · rename_i lacks
      obtain ⟨loader, found, built⟩ := loading.built
      have gets := (complete isol loader _ module found built contextual).2
      rw [lacks] at gets
      cases gets
    · refine ⟨extended, grows, filed, ⟨calling.extends grows, ?_, ?_⟩, fun _ _ => .inl rfl⟩
      · exact ⟨loading.missing, loading.linked, loading.built⟩
      · exact Function.update_self ..
  | getHandler caller isol module =>
    obtain ⟨calling, loading, inside⟩ := sound
    exact .cache coherent (.refl _) filed loading (fun _ => inside) calling rfl
      (.inl (by simp [Waiting.holds]))

theorem next_holds {w : Waiting} {lock : CallLock}
    (held : (w.next host handlers linking k).1.holds lock = true) :
    w.holds lock = true ∨ w.wants = some lock := by
  cases w with
  | idle => cases held
  | table lib call =>
    dsimp only [Waiting.next] at held
    split at held
    · cases held
    · cases lock with
      | userHostCall other =>
        obtain rfl : lib = other := by simpa [Waiting.holds] using held
        exact .inr rfl
      | _ => cases held
  | finder lib call =>
    dsimp only [Waiting.next] at held
    split at held
    · cases held
    · cases lock with
      | userHostCall other => exact .inl held
      | _ => cases held
  | context lib call =>
    dsimp only [Waiting.next] at held
    split at held
    · cases held
    · cases lock with
      | userHostCall other => exact .inl held
      | isolationCtx other =>
        obtain rfl : lib = other := by simpa [Waiting.holds, Caller.holds] using held
        exact .inr rfl
      | _ => cases held
  | getIsol lib call isol =>
    dsimp only [Waiting.next] at held
    split at held
    · cases held
    · split at held
      · cases held
      · exact .inl held
  | inner caller isol name =>
    dsimp only [Waiting.next] at held
    repeat' split at held
    all_goals first
      | cases held
      | skip
    simp only [Waiting.holds, Bool.or_eq_true, beq_iff_eq] at held
    rcases held with rfl | before
    · exact .inr rfl
    · exact .inl before
  | setHandler caller isol module =>
    dsimp only [Waiting.next] at held
    split at held
    · cases held
    · exact .inl held
  | getHandler caller isol module => cases held

theorem next_ahead {w : Waiting} (waits : w.wants = some lock) :
    (w.next host handlers linking k).1.ahead < w.ahead := by
  cases w with
  | idle => cases waits
  | _ =>
    dsimp only [Waiting.next]
    repeat' split
    all_goals simp [Waiting.ahead]

theorem Waiting.Sound.extends {w : Waiting} (sound : w.Sound host handlers k)
    (grows : k.process.Extends l.process)
    (same : ∀ i, w.holds (.inner i) = true →
      ∀ name, l.process.modules i name = k.process.modules i name) :
    w.Sound host handlers l := by
  have pending : ∀ {isol module}, Module.Loading host module k isol →
      w.holds (.inner isol) = true → Module.Loading host module l isol := by
    intro isol module loading held
    refine ⟨?_, grows.linked isol _ loading.linked, loading.built⟩
    rw [same isol held]
    exact loading.missing
  cases w with
  | idle => trivial
  | table lib call => exact Process.Runs.extends sound grows
  | finder lib call => exact Process.Runs.extends sound grows
  | context lib call => exact Process.Runs.extends sound grows
  | getIsol lib call isol => exact ⟨sound.1.extends grows, grows.context lib isol sound.2⟩
  | inner caller isol name => exact ⟨sound.1.extends grows, sound.2⟩
  | setHandler caller isol module =>
    exact ⟨sound.1.extends grows, pending sound.2.1 (by simp [Waiting.holds]), sound.2.2⟩
  | getHandler caller isol module =>
    obtain ⟨calling, loading, inside⟩ := sound
    exact ⟨calling.extends grows, pending loading (by simp [Waiting.holds]),
      grows.context _ _ inside⟩

namespace Threads.Sound
variable {s u : Threads T} {t : T}

omit [DecidableEq T] in
theorem initial (host : Host) (handlers : Handlers) :
    Sound host handlers (⟨fun _ => .idle, {}⟩ : Threads T) where
  coherent := .initial host handlers
  filed := nofun
  each := fun _ => trivial
  exclusive := .initial fun _ _ => rfl

theorem begin (sound : s.Sound host handlers) {w : Waiting}
    (ready : w.Sound host handlers s.linkage) (none : ∀ lock, w.holds lock = false) :
    Sound host handlers { s with waiting := Function.update s.waiting t w } := by
  refine ⟨sound.coherent, sound.filed, fun i => ?_, ?_⟩
  · dsimp only
    by_cases here : i = t
    · rw [here, Function.update_self]
      exact ready
    · rw [Function.update_of_ne here]
      exact sound.each i
  · refine sound.exclusive.update fun lock held => ?_
    rw [none lock] at held
    cases held

theorem step (sound : s.Sound host handlers) (separate : host.Separate) (complete : host.Complete)
    (stepped : ThreadStep host handlers s act u) : u.Sound host handlers := by
  cases stepped with
  | call _ runs => exact sound.begin runs fun lock => by cases lock <;> rfl
  | load _ loading =>
    exact sound.begin ⟨nofun, loading⟩ fun lock => by cases lock <;> rfl
  | @go _ t lock linking waits unheld =>
    have advances :=
      next_advances separate complete sound.coherent sound.filed (sound.each t) linking
    have taken : ∀ other, ((s.waiting t).next host handlers linking s.linkage).1.holds other =
        true → (s.waiting t).holds other = true ∨ Unheld Waiting.holds s.waiting other := by
      intro other held
      rcases next_holds held with before | wanted
      · exact .inl before
      · rw [waits] at wanted
        obtain rfl := Option.some.inj wanted
        exact .inr unheld
    refine ⟨advances.coherent, advances.filed, fun i => ?_, sound.exclusive.update taken⟩
    dsimp only [Threads.go]
    by_cases here : i = t
    · rw [here, Function.update_self]
      exact advances.sound
    · rw [Function.update_of_ne here]
      refine (sound.each i).extends advances.grows fun isol held name => ?_
      rcases advances.modules isol name with same | mine | wanted
      · exact same
      · exact absurd (sound.exclusive i t _ held mine) here
      · rw [waits] at wanted
        obtain rfl := Option.some.inj wanted
        rw [unheld i] at held
        cases held

theorem run (separate : host.Separate) (complete : host.Complete)
    (path : Run (ThreadStep host handlers) ⟨fun _ => .idle, {}⟩ acts s) :
    s.Sound host handlers :=
  path.stable (fun sound stepped => sound.step separate complete stepped) (initial host handlers)

end Threads.Sound

open Classical in
/-- The order of the locks. The context of a library comes last until the library runs. -/
noncomputable def Process.rank (p : Process) : CallLock → Nat
  | .userHostCall _ => 0
  | .isolationCtx lib => if p.Runs lib then 1 else 4
  | .isolTable => 2
  | .inner _ => 3

theorem rank_isolationCtx_le (p : Process) (lib : Lib) : 1 ≤ p.rank (.isolationCtx lib) := by
  unfold Process.rank
  dsimp only
  split <;> omega

theorem rank_runs (runs : p.Runs lib) : p.rank (.isolationCtx lib) = 1 := if_pos runs

/-- The locks of a host call come before those of the visor. -/
theorem Caller.Sound.rank_le (sound : caller.Sound handlers k isol name)
    (held : caller.holds lock = true) : k.process.rank lock ≤ 1 := by
  unfold Caller.holds at held
  split at held
  · exact Nat.zero_le _
  · rename_i lib call other
    obtain rfl : lib = other := by simpa using held
    exact Nat.le_of_eq (rank_runs (sound lib call rfl).1)
  · cases held

/-- At the context of a library that it initialises, a thread waits for the last lock. -/
theorem Module.Loading.rank_lt (loading : Module.Loading host module k isol)
    (placed : k.process.Placed host) (filed : k.process.Filed host) (distinct : host.Distinct)
    (sound : caller.Sound handlers k isol module.name)
    (held : (lock == .inner isol || caller.holds lock) = true) :
    k.process.rank lock < k.process.rank (.isolationCtx module.lib) := by
  have last : k.process.rank (.isolationCtx module.lib) = 4 :=
    if_neg (loading.not_runs placed filed distinct)
  rw [last]
  simp only [Bool.or_eq_true, beq_iff_eq] at held
  rcases held with rfl | own
  · exact Nat.lt_succ_self 3
  · have bound := sound.rank_le own
    omega

omit [DecidableEq T] in
theorem Threads.Sound.ranked {s : Threads T} (sound : s.Sound host handlers)
    (distinct : host.Distinct) :
    Ranked Waiting.holds Waiting.wants s.waiting s.linkage.process.rank := by
  intro i wanted held waits holds
  have ready := sound.each i
  have placed := sound.coherent.placed
  generalize s.waiting i = w at waits holds ready
  cases w with
  | idle => cases waits
  | table lib call => cases holds
  | finder lib call =>
    obtain rfl := Option.some.inj waits
    cases held with
    | userHostCall other => exact rank_isolationCtx_le ..
    | _ => cases holds
  | context lib call =>
    obtain rfl := Option.some.inj waits
    cases held with
    | userHostCall other => exact rank_isolationCtx_le ..
    | _ => cases holds
  | getIsol lib call isol =>
    obtain rfl := Option.some.inj waits
    cases held with
    | userHostCall other => exact Nat.two_pos
    | isolationCtx other =>
      obtain rfl : lib = other := by simpa [Waiting.holds, Caller.holds] using holds
      rw [rank_runs ready.1]
      exact Nat.one_lt_two
    | _ => cases holds
  | inner caller isol name =>
    obtain rfl := Option.some.inj waits
    have bound := ready.1.rank_le holds
    exact Nat.lt_of_le_of_lt bound (by simp [Process.rank])
  | setHandler caller isol module =>
    obtain rfl := Option.some.inj waits
    exact ready.2.1.rank_lt placed sound.filed distinct ready.1 holds
  | getHandler caller isol module =>
    obtain rfl := Option.some.inj waits
    obtain ⟨calling, loading, _⟩ := ready
    exact loading.rank_lt placed sound.filed distinct calling holds

/-- Only the threads of the set are in a request. -/
def Threads.Within (busy : Finset T) (s : Threads T) : Prop :=
  ∀ t, t ∉ busy → s.waiting t = .idle

/-- The locks that these threads are still to wait for. -/
def Threads.ahead (busy : Finset T) (s : Threads T) : Nat := ∑ t ∈ busy, (s.waiting t).ahead

/-- The steps of requests that are under way. -/
def Going (_ : Threads T) (act : Act T) (_ : Threads T) : Prop :=
  ∃ t linking, act = .go t linking

theorem Threads.Within.go {s u : Threads T} {busy : Finset T} (within : s.Within busy)
    (stepped : Where (ThreadStep host handlers) Going s act u) :
    u.Within busy ∧ u.ahead busy < s.ahead busy := by
  obtain ⟨stepped, t, linking, rfl⟩ := stepped
  cases stepped with
  | go waits unheld =>
    have inside : t ∈ busy := by
      by_contra outside
      rw [within t outside] at waits
      cases waits
    refine ⟨fun i outside => ?_, ?_⟩
    · have other : i ≠ t := fun same => outside (same ▸ inside)
      dsimp only [Threads.go]
      rw [Function.update_of_ne other]
      exact within i outside
    · refine Finset.sum_lt_sum (fun i member => ?_) ⟨t, inside, ?_⟩
      · by_cases here : i = t
        · subst here
          dsimp only [Threads.go]
          rw [Function.update_self]
          exact Nat.le_of_lt (next_ahead waits)
        · dsimp only [Threads.go]
          rw [Function.update_of_ne here]
      · dsimp only [Threads.go]
        rw [Function.update_self]
        exact next_ahead waits

/-- One isolation that has a library under two names. -/
def sharedHost : Host where
  namespaces := false
  loaders := fun isol => if isol = 1 then some {
    registered := register [("reader", "libreader.so"), ("writer", "libreader.so")]
      [("fdtab", "libfdtab.so")]
    withLibos := true } else none
  reposRoot := "/alloystack"
  isFile := fun path => path == "libreader.so" || path == "libfdtab.so"
  file := fun path => if path == "libreader.so" then 10 else 20
  symbol := fun lib name => some (lib.file + name.length)
  newNamespace := nextNamespace
  empty := nextNamespace_empty

/-- The second thread is to load the library under its other name, while the first has made a
host call in it and waits for the lock of the isolation. -/
def sharedThreads : Threads (Fin 2) :=
  let go (t : Fin 2) : Threads (Fin 2) → Threads (Fin 2) :=
    Threads.go sharedHost pairHandlers t none
  let start (t : Fin 2) (w : Waiting) (s : Threads (Fin 2)) : Threads (Fin 2) :=
    { s with waiting := Function.update s.waiting t w }
  let loaded := go 0 (go 0 (go 0 (start 0 (.inner none 1 "reader") ⟨fun _ => .idle, {}⟩)))
  let called := go 0 (go 0 (go 0 (go 0 (start 0 (.table ⟨0, 10⟩ .read) loaded))))
  go 1 (start 1 (.inner none 1 "writer") called)

/-- The condition on names is needed: this state is reached, and neither thread gets its lock. -/
theorem shared_library_deadlocks :
    Run (ThreadStep sharedHost pairHandlers) ⟨fun _ => .idle, {}⟩
      [.load 0 1 "reader", .go 0 none, .go 0 none, .go 0 none, .call 0 ⟨0, 10⟩ .read,
        .go 0 none, .go 0 none, .go 0 none, .go 0 none, .load 1 1 "writer", .go 1 none]
      sharedThreads ∧
    (sharedThreads.waiting 0).wants = some (.inner 1) ∧
    (sharedThreads.waiting 1).wants = some (.isolationCtx ⟨0, 10⟩) ∧
    ∀ t linking v, ¬ ThreadStep sharedHost pairHandlers sharedThreads (.go t linking) v := by
  have free : ∀ {s : Threads (Fin 2)} {lock}, (s.waiting 0).holds lock = false →
      (s.waiting 1).holds lock = false → Unheld Waiting.holds s.waiting lock :=
    fun first second => Fin.forall_fin_two.mpr ⟨first, second⟩
  have first : (sharedThreads.waiting 0).wants = some (.inner 1) := rfl
  have second : (sharedThreads.waiting 1).wants = some (.isolationCtx ⟨0, 10⟩) := rfl
  refine ⟨?_, first, second, ?_⟩
  · exact .cons (.load rfl rfl) <| .cons (.go rfl (free rfl rfl)) <|
      .cons (.go rfl (free rfl rfl)) <| .cons (.go rfl (free rfl rfl)) <|
      .cons (.call rfl ⟨1, "reader", _, rfl, rfl⟩) <| .cons (.go rfl (free rfl rfl)) <|
      .cons (.go rfl (free rfl rfl)) <| .cons (.go rfl (free rfl rfl)) <|
      .cons (.go rfl (free rfl rfl)) <| .cons (.load rfl rfl) <|
      .cons (.go rfl (free rfl rfl)) <| .nil _
  · refine Fin.forall_fin_two.mpr ⟨?_, ?_⟩
    · intro linking v stepped
      cases stepped with
      | go waits unheld =>
        obtain rfl := Option.some.inj (first.symm.trans waits)
        exact Bool.noConfusion (show true = false from unheld 1)
    · intro linking v stepped
      cases stepped with
      | go waits unheld =>
        obtain rfl := Option.some.inj (second.symm.trans waits)
        exact Bool.noConfusion (show true = false from unheld 0)

end AlloyStack.Visor
