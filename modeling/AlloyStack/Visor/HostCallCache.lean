import AlloyStack.AsStd.HostCalls
import AlloyStack.Visor.LinkNamespaces

/-! The resolution of host calls: `find_host_call` of the visor, which loads the service that
exports a call, and the table in which every library keeps what it has found. Calls of all
libraries of all isolations and loads by the visor come in any order. -/
namespace AlloyStack.Visor
open AsStd Transition

/-- The addresses of the calls that the visor answers itself. -/
structure Handlers where
  metricHandler : Nat
  fsImageHandler : Nat
  spawnFaultThreadHandler : Nat

def Handlers.address (handlers : Handlers) : CommonHostCall → Option Nat
  | .metric => some handlers.metricHandler
  | .fsImage => some handlers.fsImageHandler
  | .spawnFaultThread => some handlers.spawnFaultThreadHandler
  | _ => none

variable (host : Host) (handlers : Handlers)

/-- `find_host_call`. Every failure is a panic, which `none` stands for. -/
def findHostCall (isol : Nat) (id : HostCallID) (linking : Linking) (p : Process) :
    Option Nat × Process :=
  match host.loaders isol with
  | none => (none, p)
  | some loader =>
    match id with
    | .common .metric => (some handlers.metricHandler, p)
    | .common .fsImage => (some handlers.fsImageHandler, p)
    | .common .spawnFaultThread => (some handlers.spawnFaultThreadHandler, p)
    | id =>
      match id.belongTo with
      | none => (none, p)
      | some svcName =>
        match moduleOrLoad host loader isol svcName linking p with
        | (.error _, p) => (none, p)
        | (.ok service, p) => (host.symbol service.lib id.toString, p)

/-- The process with `USER_HOST_CALL` of every library. -/
structure Linkage where
  process : Process := {}
  tables : Lib → UserHostCall := fun _ _ => none

/-- The address of a call goes into the table of a library. -/
def Linkage.store (s : Linkage) (lib : Lib) (call : CommonHostCall) (addr : Nat) : Linkage :=
  { s with tables :=
      Function.update s.tables lib (Function.update (s.tables lib) call.entry (some addr)) }

/-- `get_or_find` on the table of a library, whose context names the isolation. -/
def getOrFind (lib : Lib) (call : CommonHostCall) (linking : Linking) (s : Linkage) :
    Option Nat × Linkage :=
  match s.tables lib call.entry with
  | some addr => (some addr, s)
  | none =>
    match s.process.context lib with
    | none => (none, s)
    | some isol =>
      match findHostCall host handlers isol (.common call) linking s.process with
      | (none, p) => (none, { s with process := p })
      | (some addr, p) => (some addr, Linkage.store { s with process := p } lib call addr)

/-- One step of any thread: a module asked for by the visor itself, or a host call in the code
of a library. Both run under locks. -/
inductive Asked where
  | load (isol : Nat) (name : String) (linking : Linking)
  | call (lib : Lib) (call : CommonHostCall) (linking : Linking)

def ask : Asked → Linkage → Linkage
  | .load isol name linking, s =>
    match host.loaders isol with
    | none => s
    | some loader =>
      { s with process := (moduleOrLoad host loader isol name linking s.process).2 }
  | .call lib call linking, s => (getOrFind host handlers lib call linking s).2

def AskStep (s : Linkage) (asked : Asked) (t : Linkage) : Prop := t = ask host handlers asked s

/-- The address of a call without any table: the visor's own function, or the symbol of the
call's name in the service that the isolation has loaded for it. -/
def Process.lookup (p : Process) (isol : Nat) (call : CommonHostCall) : Option Nat :=
  match handlers.address call with
  | some addr => some addr
  | none => (p.modules isol call.belongTo).bind fun service =>
      host.symbol service.lib call.toString

variable {host handlers} {p q : Process} {s t : Linkage} {isol : Nat} {lib : Lib}
  {call : CommonHostCall} {linking : Linking}

theorem lookup_extends (grows : p.Extends q)
    (found : p.lookup host handlers isol call = some addr) :
    q.lookup host handlers isol call = some addr := by
  unfold Process.lookup at found ⊢
  cases own : handlers.address call with
  | some handler => simpa only [own] using found
  | none =>
    simp only [own] at found ⊢
    obtain ⟨service, cached, exported⟩ := Option.bind_eq_some_iff.mp found
    rw [grows.modules isol _ service cached]
    exact exported

/-- The two ways of `find_host_call` for a call of an isolation that exists. -/
theorem findHostCall_eq (loading : host.loaders isol = some loader) (call : CommonHostCall)
    (linking : Linking) (p : Process) :
    findHostCall host handlers isol (.common call) linking p =
      match handlers.address call with
      | some addr => (some addr, p)
      | none =>
        match moduleOrLoad host loader isol call.belongTo linking p with
        | (.error _, p) => (none, p)
        | (.ok service, p) => (host.symbol service.lib call.toString, p) := by
  unfold findHostCall
  rw [loading]
  cases call <;> rfl

/-- What was found once is found again, whatever the linker answers. -/
theorem findHostCall_of_lookup (loading : host.loaders isol = some loader)
    (found : p.lookup host handlers isol call = some addr) (linking : Linking) :
    findHostCall host handlers isol (.common call) linking p = (some addr, p) := by
  rw [findHostCall_eq loading]
  unfold Process.lookup at found
  cases own : handlers.address call with
  | some handler =>
    simp only [own] at found
    rw [Option.some.inj found]
  | none =>
    simp only [own] at found
    obtain ⟨service, cached, exported⟩ := Option.bind_eq_some_iff.mp found
    simp only [moduleOrLoad, cached, exported]

theorem findHostCall_effect (handlers : Handlers) (placed : p.Placed host)
    (separate : host.Separate) (complete : host.Complete) (isol : Nat) (call : CommonHostCall)
    (linking : Linking) :
    let answer :=
  findHostCall host handlers isol (.common call) linking p
    answer.2.Placed host ∧ p.Extends answer.2 ∧
      ∀ addr, answer.1 = some addr → answer.2.lookup host handlers isol call = some addr := by
  dsimp only
  cases loading : host.loaders isol with
  | none =>
    simp only [findHostCall, loading]
    exact ⟨placed, .refl p, nofun⟩
  | some loader =>
    rw [findHostCall_eq loading]
    cases own : handlers.address call with
    | some handler =>
      refine ⟨placed, .refl p, ?_⟩
      rintro _ ⟨⟩
      simp only [Process.lookup, own]
    | none =>
      have effect := placed.moduleOrLoad separate complete loading call.belongTo linking
      rcases answered : moduleOrLoad host loader isol call.belongTo linking p with ⟨result, q⟩
      rw [answered] at effect
      obtain ⟨after, grows⟩ := effect
      cases result with
      | error e => exact ⟨after, grows, nofun⟩
      | ok service =>
        refine ⟨after, grows, fun addr exported => ?_⟩
        simp only [Process.lookup, own, moduleOrLoad_cached answered]
        exact exported

/-- Every address in a table is the one that a fresh lookup in the library's isolation gives. -/
structure Linkage.Coherent (host : Host) (handlers : Handlers) (s : Linkage) : Prop where
  placed : s.process.Placed host
  tables : ∀ lib call addr, s.tables lib call.entry = some addr →
    ∃ isol, s.process.context lib = some isol ∧
      s.process.lookup host handlers isol call = some addr

namespace Linkage.Coherent

theorem initial (host : Host) (handlers : Handlers) : Linkage.Coherent host handlers {} :=
  ⟨placed_initial host, nofun⟩

theorem extend (coherent : s.Coherent host handlers) (placed : q.Placed host)
    (grows : s.process.Extends q) : Coherent host handlers { s with process := q } := by
  refine ⟨placed, fun lib call addr cached => ?_⟩
  obtain ⟨isol, inside, found⟩ := coherent.tables lib call addr cached
  exact ⟨isol, grows.context lib isol inside, lookup_extends grows found⟩

theorem store (coherent : s.Coherent host handlers)
    (inside : s.process.context lib = some isol)
    (found : s.process.lookup host handlers isol call = some addr) :
    (s.store lib call addr).Coherent host handlers := by
  refine ⟨coherent.placed, fun other id value stored => ?_⟩
  unfold Linkage.store at stored
  dsimp only at stored
  by_cases same : other = lib
  · subst same
    rw [Function.update_self] at stored
    by_cases named : id = call
    · subst named
      rw [Function.update_self] at stored
      obtain rfl := Option.some.inj stored
      exact ⟨isol, inside, found⟩
    · rw [Function.update_of_ne (fun alike => named (entry_injective alike))] at stored
      exact coherent.tables other id value stored
  · rw [Function.update_of_ne same] at stored
    exact coherent.tables other id value stored

/-- A resolution that succeeds gives the address of the lookup, for the isolation that the
library is in. -/
theorem getOrFind (coherent : s.Coherent host handlers) (separate : host.Separate)
    (complete : host.Complete) (lib : Lib) (call : CommonHostCall) (linking : Linking) :
    let answer := getOrFind host handlers lib call linking s
    answer.2.Coherent host handlers ∧ s.process.Extends answer.2.process ∧
      ∀ addr, answer.1 = some addr → ∃ isol, answer.2.process.context lib = some isol ∧
        answer.2.process.lookup host handlers isol call = some addr := by
  dsimp only
  unfold Visor.getOrFind
  cases cached : s.tables lib call.entry with
  | some addr =>
    refine ⟨coherent, .refl _, ?_⟩
    rintro _ ⟨⟩
    exact coherent.tables lib call addr cached
  | none =>
    cases inside : s.process.context lib with
    | none => exact ⟨coherent, .refl _, nofun⟩
    | some isol =>
      have effect :=
        findHostCall_effect handlers coherent.placed separate complete isol call linking
      rcases answered : findHostCall host handlers isol (.common call) linking s.process with
        ⟨answer, q⟩
      rw [answered] at effect
      obtain ⟨placed, grows, found⟩ := effect
      simp only [answered]
      have extended := coherent.extend placed grows
      cases answer with
      | none => exact ⟨extended, grows, nofun⟩
      | some addr =>
        have here := grows.context lib isol inside
        refine ⟨extended.store here (found addr rfl), grows, ?_⟩
        rintro _ ⟨⟩
        exact ⟨isol, here, found addr rfl⟩

theorem ask (coherent : s.Coherent host handlers) (separate : host.Separate)
    (complete : host.Complete) (asked : Asked) :
    (ask host handlers asked s).Coherent host handlers ∧
      s.process.Extends (Visor.ask host handlers asked s).process := by
  cases asked with
  | load isol name linking =>
    cases loading : host.loaders isol with
    | none =>
      simp only [Visor.ask, loading]
      exact ⟨coherent, .refl _⟩
    | some loader =>
      obtain ⟨placed, grows⟩ := coherent.placed.moduleOrLoad separate complete loading name linking
      simp only [Visor.ask, loading]
      exact ⟨coherent.extend placed grows, grows⟩
  | call lib call linking =>
    obtain ⟨after, grows, _⟩ := coherent.getOrFind separate complete lib call linking
    exact ⟨after, grows⟩

theorem run (coherent : s.Coherent host handlers) (separate : host.Separate)
    (complete : host.Complete) (path : Run (AskStep host handlers) s asks t) :
    t.Coherent host handlers ∧ s.process.Extends t.process := by
  induction path with
  | nil => exact ⟨coherent, .refl _⟩
  | cons stepped _ ih =>
    subst stepped
    obtain ⟨after, grows⟩ := coherent.ask separate complete _
    obtain ⟨last, further⟩ := ih after
    exact ⟨last, grows.trans further⟩

end Linkage.Coherent

theorem loading_of_context (placed : p.Placed host) (inside : p.context lib = some isol) :
    ∃ loader, host.loaders isol = some loader :=
  Option.isSome_iff_exists.mp (placed.known isol _ (placed.context lib isol inside))

/-- Once any module of an isolation has resolved a call, every module of the isolation resolves
it, at any later time and whatever the linker answers, to the same address, and this is the
address of the call's symbol in the service that the isolation itself has loaded. -/
theorem resolution_agrees (separate : host.Separate) (complete : host.Complete)
    (past : Run (AskStep host handlers) {} asks s)
    (caller : s.process.modules isol name = some module) (contextual : module.Contextual host)
    (resolved : (getOrFind host handlers module.lib call linking s).1 = some addr)
    (later : Run (AskStep host handlers)
      (getOrFind host handlers module.lib call linking s).2 more t)
    (asker : t.process.modules isol key = some other) (ready : other.Contextual host)
    (answer : Linking) :
    t.process.lookup host handlers isol call = some addr ∧
      (getOrFind host handlers other.lib call answer t).1 = some addr := by
  have before := ((Linkage.Coherent.initial host handlers).run separate complete past).1
  obtain ⟨after, grows, found⟩ := before.getOrFind separate complete module.lib call linking
  obtain ⟨last, further⟩ := after.run separate complete later
  obtain ⟨i, inside, here⟩ := found addr resolved
  -- The module's library is in the isolation that asked for the module.
  have own := grows.context _ _ ((before.placed.entered isol name module caller).2 contextual)
  obtain rfl : i = isol := Option.some.inj (inside.symm.trans own)
  have stays := lookup_extends further here
  refine ⟨stays, ?_⟩
  have asking := (last.placed.entered i key other asker).2 ready
  unfold getOrFind
  cases cached : t.tables other.lib call.entry with
  | some value =>
    obtain ⟨j, context, fresh⟩ := last.tables other.lib call value cached
    obtain rfl : j = i := Option.some.inj (context.symm.trans asking)
    exact fresh.symm.trans stays
  | none =>
    obtain ⟨loader, loading⟩ := loading_of_context last.placed asking
    simp only [asking, findHostCall_of_lookup loading stays]

/-- With feature `namespace` two loaded modules share a link namespace exactly if they are of one
isolation, none is in the namespace of the visor, and every open library is in the namespace of
exactly one isolation. -/
theorem isolations_apart (flag : host.namespaces = true) (complete : host.Complete)
    (run : Run (AskStep host handlers) {} asks s) :
    (∀ i j name key module other, s.process.modules i name = some module →
      s.process.modules j key = some other → (module.lib.lmid = other.lib.lmid ↔ i = j)) ∧
    (∀ i name module, s.process.modules i name = some module → module.lib.lmid ≠ 0) ∧
    ∀ lib ∈ s.process.loaded, ∃! i, s.process.linked i = some lib.lmid := by
  have placed := ((Linkage.Coherent.initial host handlers).run (.inl flag) complete run).1.placed
  refine ⟨?_, ?_, ?_⟩
  · intro i j name key module other first second
    have left := placed.modules i name module first
    have right := placed.modules j key other second
    constructor
    · intro same
      rw [← same] at right
      exact placed.apart i j _ left right
    · rintro rfl
      exact Option.some.inj (left.symm.trans right)
  · intro i name module cached
    exact (placed.used flag i _ (placed.modules i name module cached)).1
  · intro lib member
    obtain ⟨i, linked⟩ := placed.owner lib member
    exact ⟨i, linked, fun j other => placed.apart j i _ other linked⟩

/-- The namespace after the last one in use. -/
def nextNamespace (used : List Nat) : Nat := used.foldr max 0 + 1

theorem nextNamespace_empty (used : List Nat) :
    nextNamespace used ≠ 0 ∧ nextNamespace used ∉ used := by
  have below : ∀ n ∈ used, n ≤ used.foldr max 0 := by
    induction used with
    | nil => simp
    | cons first used ih =>
      intro n member
      rcases List.mem_cons.mp member with rfl | later
      · exact Nat.le_max_left ..
      · exact (ih n later).trans (Nat.le_max_right ..)
  refine ⟨Nat.succ_ne_zero _, fun member => ?_⟩
  exact Nat.not_succ_le_self _ (below _ member)

/-- Two isolations with an app and a file table each. -/
def pairHost : Host where
  namespaces := true
  loaders := fun isol => if isol = 1 ∨ isol = 2 then some {
    registered := register [("reader", "libreader.so")] [("fdtab", "libfdtab.so")]
    withLibos := true } else none
  reposRoot := "/alloystack"
  isFile := fun path => path == "libreader.so" || path == "libfdtab.so"
  file := fun path => if path == "libreader.so" then 10 else 20
  symbol := fun lib name => some (lib.lmid * 1000 + lib.file + name.length)
  newNamespace := nextNamespace
  empty := nextNamespace_empty

theorem pair_complete : pairHost.Complete := fun _ _ _ _ _ _ _ => ⟨rfl, rfl⟩

def pairHandlers : Handlers := ⟨1, 2, 3⟩

def pairLoads : List Asked := [.load 1 "reader" none, .load 2 "reader" none]

def pairState : Linkage :=
  pairLoads.foldl (fun s asked => ask pairHost pairHandlers asked s) {}

theorem pair_run : Run (AskStep pairHost pairHandlers) {} pairLoads pairState :=
  .cons rfl (.cons rfl (.nil _))

/-- The app of the second isolation, and what its first `read` leaves behind. -/
def secondReader : Module := ⟨"reader", "libreader.so", ⟨2, 10⟩, true⟩

def afterRead : Linkage := (getOrFind pairHost pairHandlers secondReader.lib .read none pairState).2

/-- The other isolation loads its own file table in between, and the linker refuses everything
at the end. -/
theorem read_agrees :
    let t := ask pairHost pairHandlers (.load 1 "fdtab" none) afterRead
    t.process.lookup pairHost pairHandlers 2 .read = some 2024 ∧
      (getOrFind pairHost pairHandlers ⟨2, 20⟩ .read (some "no memory") t).1 = some 2024 := by
  intro t
  have caller : pairState.process.modules 2 "reader" = some secondReader := rfl
  have asker : t.process.modules 2 "fdtab" =
    some ⟨"fdtab", "libfdtab.so", ⟨2, 20⟩, true⟩ := rfl
  exact resolution_agrees (.inl rfl) pair_complete pair_run caller ⟨rfl, rfl⟩ rfl
    (.cons rfl (.nil _)) asker
    ⟨rfl, rfl⟩ (some "no memory")

theorem readers_apart : secondReader.lib.lmid = 1 ↔ 2 = 1 :=
  (isolations_apart rfl pair_complete pair_run).1 2 1 "reader" "reader" secondReader
    ⟨"reader", "libreader.so", ⟨1, 10⟩, true⟩ rfl rfl

/-- The file tables miss a function. -/
def bareHost : Host :=
  { pairHost with symbol := fun lib name =>
      if lib.file = 20 ∧ name = "get_handler_addr" then none else pairHost.symbol lib name }

-- The first load of the first isolation fails and frees its namespace, which its lock keeps: then
-- both isolations have one and the same reader.
example :
    let asks := [.load 1 "fdtab" none, .load 2 "reader" none, .load 1 "reader" none]
    let s := asks.foldl (fun s asked => ask bareHost pairHandlers asked s) {}
    s.process.modules 1 "reader" = some ⟨"reader", "libreader.so", ⟨1, 10⟩, true⟩ ∧
      s.process.modules 2 "reader" = s.process.modules 1 "reader" := ⟨rfl, rfl⟩

end AlloyStack.Visor
