import Mathlib.Data.List.Basic
import Mathlib.Logic.Function.Basic
import AlloyStack.Library.PathText
import AlloyStack.Library.Transition
import AlloyStack.Visor.ServiceLoader

/-! The libraries that the isolations of one process have linked, without feature `enable_mpk`.
With feature `namespace` the first library of an isolation opens a link namespace and the others
are linked into it; without it every library is linked once for the whole process. -/
namespace AlloyStack.Visor
open Rust Transition

/-- A library as the linker keeps it: one copy of its code and statics for each namespace. -/
structure Lib where
  lmid : Nat
  file : Nat
  deriving DecidableEq, Repr

/-- An `Arc<Service>` with the library it holds. -/
structure Module where
  name : String
  path : String
  lib : Lib
  withLibos : Bool
  deriving DecidableEq, Repr

/-- The parts of the process that do not change: the features and isolations of the visor, the
file system, and the symbols of each library. `file` gives the identity of a file, by which the
linker knows that it has a library already. `newNamespace` is the choice of the linker for
`LM_ID_NEWLM`: a namespace in which no library is, which may be one that was used before. -/
structure Host where
  namespaces : Bool
  loaders : Nat → Option ServiceLoader
  reposRoot : String
  isFile : String → Bool
  file : String → Nat
  symbol : Lib → String → Option Nat
  newNamespace : List Nat → Nat
  empty : ∀ used, newNamespace used ≠ 0 ∧ newNamespace used ∉ used

/-- What changes: the libraries that are open, once for every handle, each loader's `OnceLock` and
its isolation's modules, and `ISOLATION_CTX` of each library, of which only the number of the
isolation is read here. -/
structure Process where
  loaded : List Lib := []
  linked : Nat → Option Nat := fun _ => none
  modules : Nat → String → Option Module := fun _ _ => none
  context : Lib → Option Nat := fun _ => none

/-- The linker's answer to an open: an error, or its consent. -/
abbrev Linking := Option String

/-- The handle is in the list of the linker. -/
def Process.opened (p : Process) (lib : Lib) : Process := { p with loaded := lib :: p.loaded }

/-- The drop of a `Library`. The last handle takes the statics of the library with it. -/
def Process.close (p : Process) (lib : Lib) : Process :=
  let loaded := p.loaded.erase lib
  { p with
    loaded
    context := if lib ∈ loaded then p.context else Function.update p.context lib none }

variable (host : Host)

/-- The path is tried as it is and then below the repository. -/
def Host.filename (path : String) : String :=
  if host.isFile path then path else PathText.join host.reposRoot path

/-- `load_dynlib`. -/
def loadDynlib (filename : String) (lmid : Option Nat) (linking : Linking) (p : Process) :
    Except String Lib × Process :=
  let filename := host.filename filename
  if !host.isFile filename then
    (.error s!"load dynlib failed. filename is invaild: {filename}", p)
  else
    match linking with
    | some message =>
      (.error (if host.namespaces then s!"dlmopen error: {message}" else message), p)
    | none =>
      let lib : Lib :=
        if host.namespaces then
          ⟨lmid.getD (host.newNamespace (p.loaded.map Lib.lmid)), host.file filename⟩
        else ⟨0, host.file filename⟩
      (.ok lib, p.opened lib)

/-- `SHOULD_NOT_SET_CONTEXT`. -/
def shouldNotSetContext (name : String) : Bool :=
  (host.namespaces && name == "libc") || name == "stdio" || name == "time"

/-- `set_handler_addr` of a library. -/
def Process.setHandler (p : Process) (lib : Lib) (isol : Nat) : Process :=
  { p with context := Function.update p.context lib (some isol) }

/-- `Service::init`. The handler set here is the one read back, so that the last check of the
source passes. -/
def Module.init (module : Module) (isol : Nat) (p : Process) : Except String Unit × Process :=
  if !module.withLibos || shouldNotSetContext host module.name then (.ok (), p)
  else
    match host.symbol module.lib "set_handler_addr" with
    | none => (.error "missing set_handler_addr?", p)
    | some _ =>
      let p := p.setHandler module.lib isol
      match host.symbol module.lib "get_handler_addr" with
      | none => (.error "missing get_handler_addr?", p)
      | some _ => (.ok (), p)

/-- `namespace.get_or_init` of the isolation's loader. -/
def Process.getOrInit (p : Process) (isol lmid : Nat) : Process :=
  { p with linked := Function.update p.linked isol (some ((p.linked isol).getD lmid)) }

/-- `ServiceLoader::load` up to the service's own initialisation. -/
def linkModule (loader : ServiceLoader) (isol : Nat) (name : String) (linking : Linking)
    (p : Process) : Except String Module × Process :=
  match loader.registered name with
  | none => (.error s!"unregistry library, name={name}", p)
  | some libPath =>
    match loadDynlib host libPath (p.linked isol) linking p with
    | (.error e, p) => (.error s!"load_dynlib faile: {e}", p)
    | (.ok lib, p) =>
      (.ok ⟨name, libPath, lib, loader.withLibos⟩, p.getOrInit isol lib.lmid)

/-- `ServiceLoader::load`. A service that cannot be initialised is dropped with its library; the
lock keeps the namespace. -/
def loadModule (loader : ServiceLoader) (isol : Nat) (name : String) (linking : Linking)
    (p : Process) : Except String Module × Process :=
  match linkModule host loader isol name linking p with
  | (.error e, p) => (.error e, p)
  | (.ok module, p) =>
    match module.init host isol p with
    | (.error e, p) => (.error e, p.close module.lib)
    | (.ok (), p) => (.ok module, p)

/-- `isol_inner.modules.insert`. -/
def Process.insert (p : Process) (isol : Nat) (name : String) (module : Module) : Process :=
  let cached := Function.update (p.modules isol) name (some module)
  { p with modules := Function.update p.modules isol cached }

/-- `service_or_load` and `app_or_load`, which are the same without protection keys. -/
def moduleOrLoad (loader : ServiceLoader) (isol : Nat) (name : String) (linking : Linking)
    (p : Process) : Except String Module × Process :=
  match p.modules isol name with
  | some module => (.ok module, p)
  | none =>
    match loadModule host loader isol name linking p with
    | (.error e, p) => (.error e, p)
    | (.ok module, p) => (.ok module, p.insert isol name module)

/-- The code of the module can make host calls: its library was given the context. -/
def Module.Contextual (module : Module) : Prop :=
  module.withLibos = true ∧ shouldNotSetContext host module.name = false

/-- Library instances are not shared between isolations: each has its namespaces, or there is
one isolation only. -/
def Host.Separate : Prop :=
  host.namespaces = true ∨
    ∀ i j, (host.loaders i).isSome → (host.loaders j).isSome → i = j

/-- The library that an open returns, for a loader whose lock holds `lmid`. -/
inductive Opens (p : Process) : Option Nat → Lib → Prop where
  | joins : host.namespaces = true → Opens p (some lmid) ⟨lmid, file⟩
  | opens : host.namespaces = true →
      Opens p none ⟨host.newNamespace (p.loaded.map Lib.lmid), file⟩
  | base : host.namespaces = false → Opens p lmid ⟨0, file⟩

variable {host} {loader : ServiceLoader} {isol : Nat} {name : String} {linking : Linking}
  {p q : Process}

theorem loadDynlib_cases (host : Host) (path : String) (lmid : Option Nat) (linking : Linking)
    (p : Process) :
    (∃ e, loadDynlib host path lmid linking p = (.error e, p)) ∨
      ∃ lib, loadDynlib host path lmid linking p = (.ok lib, p.opened lib) ∧ Opens host p lmid lib ∧
        lib.file = host.file (host.filename path) := by
  unfold loadDynlib
  generalize host.filename path = filename
  dsimp only
  cases host.isFile filename with
  | false => exact .inl ⟨_, rfl⟩
  | true =>
    cases linking with
    | some message => exact .inl ⟨_, rfl⟩
    | none =>
      refine .inr ?_
      cases flag : host.namespaces with
      | false => exact ⟨_, rfl, .base flag, rfl⟩
      | true =>
        cases lmid with
        | some lmid => exact ⟨_, rfl, .joins flag, rfl⟩
        | none => exact ⟨_, rfl, .opens flag, rfl⟩

theorem Opens.lmid_base (opens : Opens host p lmid lib) (off : host.namespaces = false) :
    lib.lmid = 0 := by
  cases opens with
  | joins flag =>
    rw [off] at flag
    cases flag
  | opens flag =>
    rw [off] at flag
    cases flag
  | base => rfl

/-- A module that was linked, as the loader builds it. -/
structure Linked (host : Host) (loader : ServiceLoader) (name : String) (module : Module) :
    Prop where
  named : module.name = name
  registered : loader.registered name = some module.path
  file : module.lib.file = host.file (host.filename module.path)

/-- Every library that takes the context exports the two functions for it, as those with `as_std`
do. -/
def Host.Complete (host : Host) : Prop :=
  ∀ isol loader name module, host.loaders isol = some loader → Linked host loader name module →
    module.Contextual host → (host.symbol module.lib "set_handler_addr").isSome ∧
      (host.symbol module.lib "get_handler_addr").isSome

/-- Then the initialisation does not fail, and sets the context where there is one. -/
theorem init_complete (complete : host.Complete) (found : host.loaders isol = some loader)
    (built : Linked host loader name module) (p : Process) :
    (¬ module.Contextual host ∧ module.init host isol p = (.ok (), p)) ∨
      module.init host isol p = (.ok (), p.setHandler module.lib isol) := by
  unfold Module.init
  split
  · rename_i plain
    refine .inl ⟨fun contextual => ?_, rfl⟩
    simp [contextual.1, contextual.2] at plain
  · rename_i takes
    have contextual : module.Contextual host := by simpa [Module.Contextual] using takes
    obtain ⟨sets, gets⟩ := complete isol loader name module found built contextual
    obtain ⟨setter, sets⟩ := Option.isSome_iff_exists.mp sets
    obtain ⟨getter, gets⟩ := Option.isSome_iff_exists.mp gets
    rw [sets, gets]
    exact .inr rfl

theorem linkModule_cases (host : Host) (loader : ServiceLoader) (isol : Nat) (name : String)
    (linking : Linking) (p : Process) :
    (∃ e, linkModule host loader isol name linking p = (.error e, p)) ∨
      ∃ module, linkModule host loader isol name linking p =
        (.ok module, (p.opened module.lib).getOrInit isol module.lib.lmid) ∧
        Opens host p (p.linked isol) module.lib ∧ Linked host loader name module := by
  unfold linkModule
  cases registered : loader.registered name with
  | none => exact .inl ⟨_, rfl⟩
  | some libPath =>
    dsimp only
    rcases loadDynlib_cases host libPath (p.linked isol) linking p with
      ⟨e, failed⟩ | ⟨lib, opened, opens, file⟩
    · rw [failed]
      exact .inl ⟨_, rfl⟩
    · rw [opened]
      exact .inr ⟨_, rfl, opens, rfl, registered, file⟩

theorem insert_modules (p : Process) (isol : Nat) (name : String) (module : Module) (i : Nat)
    (key : String) :
    (p.insert isol name module).modules i key =
      if i = isol ∧ key = name then some module else p.modules i key := by
  unfold Process.insert
  dsimp only
  by_cases same : i = isol
  · subst same
    rw [Function.update_self, Function.update_apply]
    simp only [true_and]
  · rw [Function.update_of_ne same, if_neg (fun both => same both.1)]

theorem moduleOrLoad_cached
    (answered : moduleOrLoad host loader isol name linking p = (.ok module, q)) :
    q.modules isol name = some module := by
  unfold moduleOrLoad at answered
  split at answered
  · rename_i cached
    cases answered
    exact cached
  · split at answered
    · cases answered
    · cases answered
      rw [insert_modules, if_pos ⟨rfl, rfl⟩]

/-- Where the libraries of the isolations are: every isolation that has linked anything has one
namespace of its own, all its modules are in it, and a library knows the isolation it is in. -/
structure Process.Placed (host : Host) (p : Process) : Prop where
  known : ∀ i lmid, p.linked i = some lmid → (host.loaders i).isSome
  base : host.namespaces = false → ∀ i lmid, p.linked i = some lmid → lmid = 0
  used : host.namespaces = true → ∀ i lmid, p.linked i = some lmid →
    lmid ≠ 0 ∧ lmid ∈ p.loaded.map Lib.lmid
  owner : ∀ lib ∈ p.loaded, ∃ i, p.linked i = some lib.lmid
  apart : ∀ i j lmid, p.linked i = some lmid → p.linked j = some lmid → i = j
  context : ∀ lib i, p.context lib = some i → p.linked i = some lib.lmid
  modules : ∀ i name module, p.modules i name = some module → p.linked i = some module.lib.lmid
  entered : ∀ i name module, p.modules i name = some module →
    module.name = name ∧ (module.Contextual host → p.context module.lib = some i)

theorem placed_initial (host : Host) : Process.Placed host {} where
  known := nofun
  base := nofun
  used := nofun
  owner := nofun
  apart := nofun
  context := nofun
  modules := nofun
  entered := nofun

/-- What is never taken back: namespaces of isolations, loaded modules, and the isolation of a
library. -/
structure Process.Extends (p q : Process) : Prop where
  linked : ∀ i lmid, p.linked i = some lmid → q.linked i = some lmid
  context : ∀ lib i, p.context lib = some i → q.context lib = some i
  modules : ∀ i name module, p.modules i name = some module → q.modules i name = some module

theorem Process.Extends.refl (p : Process) : p.Extends p :=
  ⟨fun _ _ => id, fun _ _ => id, fun _ _ _ => id⟩

theorem Process.Extends.trans (first : Process.Extends p q) (second : q.Extends t) :
    p.Extends t :=
  ⟨fun i lmid same => second.linked i lmid (first.linked i lmid same),
    fun lib i same => second.context lib i (first.context lib i same),
    fun i name module same => second.modules i name module (first.modules i name module same)⟩

theorem Process.Extends.insert (grows : Process.Extends p q)
    (missing : p.modules isol name = none) : p.Extends (q.insert isol name module) := by
  refine ⟨grows.linked, grows.context, fun i key other before => ?_⟩
  rw [insert_modules, if_neg]
  · exact grows.modules i key other before
  · rintro ⟨rfl, rfl⟩
    rw [missing] at before
    cases before

namespace Process.Placed

/-- The library is in the namespace of its isolation, new or old. -/
theorem getD_lmid (placed : p.Placed host) (opens : Opens host p (p.linked isol) lib) :
    (p.linked isol).getD lib.lmid = lib.lmid := by
  cases linked : p.linked isol with
  | none => rfl
  | some lmid =>
    rw [linked] at opens
    cases opens with
    | joins => rfl
    | base flag => exact placed.base flag isol lmid linked

theorem kept (placed : p.Placed host) (opens : Opens host p (p.linked isol) lib)
    (linked : p.linked i = some lmid) :
    Function.update p.linked isol (some lib.lmid) i = some lmid := by
  by_cases same : i = isol
  · subst same
    have placing := placed.getD_lmid opens
    rw [linked] at placing
    rw [Function.update_self, ← placing]
    rfl
  · rw [Function.update_of_ne same, linked]

/-- No other isolation has the namespace of a library that has just been opened. -/
theorem opens_apart (placed : p.Placed host) (separate : host.Separate)
    (loading : (host.loaders isol).isSome) (opens : Opens host p (p.linked isol) lib)
    (other : p.linked j = some lib.lmid) : j = isol := by
  generalize linked : p.linked isol = lock at opens
  cases opens with
  | joins => exact placed.apart j isol _ other linked
  | opens flag => exact absurd (placed.used flag j _ other).2 (host.empty _).2
  | base flag =>
    rcases separate with spaces | single
    · rw [flag] at spaces
      cases spaces
    · exact single j isol (placed.known j _ other) loading

theorem opens_ne_zero (placed : p.Placed host) (flag : host.namespaces = true)
    (opens : Opens host p (p.linked isol) lib) : lib.lmid ≠ 0 := by
  generalize linked : p.linked isol = lock at opens
  cases opens with
  | joins => exact (placed.used flag isol _ linked).1
  | opens => exact (host.empty _).1
  | base off =>
    rw [off] at flag
    cases flag

/-- Linking keeps the placement, and puts a module into its isolation's namespace. -/
theorem getOrInit (placed : p.Placed host) (separate : host.Separate)
    (loading : (host.loaders isol).isSome) (opens : Opens host p (p.linked isol) lib) :
    ((p.opened lib).getOrInit isol lib.lmid).Placed host ∧
      p.Extends ((p.opened lib).getOrInit isol lib.lmid) ∧
      ((p.opened lib).getOrInit isol lib.lmid).linked isol = some lib.lmid := by
  have same : (p.opened lib).getOrInit isol lib.lmid = { p with
      loaded := lib :: p.loaded
      linked := Function.update p.linked isol (some lib.lmid) } := by
    rw [Process.getOrInit, Process.opened]
    dsimp only
    rw [placed.getD_lmid opens]
  rw [same]
  have self : Function.update p.linked isol (some lib.lmid) isol = some lib.lmid :=
    Function.update_self ..
  have keeps : ∀ {i lmid}, p.linked i = some lmid →
      Function.update p.linked isol (some lib.lmid) i = some lmid := placed.kept opens
  have source : ∀ {i lmid}, Function.update p.linked isol (some lib.lmid) i = some lmid →
      i = isol ∧ lmid = lib.lmid ∨ p.linked i = some lmid := by
    intro i lmid linked
    by_cases same : i = isol
    · subst same
      rw [self] at linked
      exact .inl ⟨rfl, (Option.some.inj linked).symm⟩
    · rw [Function.update_of_ne same] at linked
      exact .inr linked
  refine ⟨⟨?_, ?_, ?_, ?_, ?_, ?_, ?_, placed.entered⟩,
    ⟨fun _ _ => keeps, fun _ _ => id, fun _ _ _ => id⟩, self⟩
  · intro i lmid linked
    rcases source linked with ⟨rfl, _⟩ | old
    · exact loading
    · exact placed.known i lmid old
  · intro off i lmid linked
    rcases source linked with ⟨rfl, rfl⟩ | old
    · exact opens.lmid_base off
    · exact placed.base off i lmid old
  · intro flag i lmid linked
    rcases source linked with ⟨rfl, rfl⟩ | old
    · exact ⟨placed.opens_ne_zero flag opens, by simp⟩
    · obtain ⟨positive, used⟩ := placed.used flag i lmid old
      exact ⟨positive, List.mem_cons_of_mem _ used⟩
  · intro other member
    rcases List.mem_cons.mp member with rfl | old
    · exact ⟨isol, self⟩
    · obtain ⟨i, linked⟩ := placed.owner other old
      exact ⟨i, keeps linked⟩
  · intro i j lmid first second
    rcases source first with ⟨rfl, rfl⟩ | old
    · rcases source second with ⟨rfl, _⟩ | other
      · rfl
      · exact (placed.opens_apart separate loading opens other).symm
    · rcases source second with ⟨rfl, rfl⟩ | other
      · exact placed.opens_apart separate loading opens old
      · exact placed.apart i j lmid old other
  · exact fun other i inside => keeps (placed.context other i inside)
  · exact fun i name module cached => keeps (placed.modules i name module cached)

/-- The context of a library is overwritten only by the isolation that it is in already. -/
theorem setHandler (placed : p.Placed host) (linked : p.linked isol = some lib.lmid) :
    (p.setHandler lib isol).Placed host ∧ p.Extends (p.setHandler lib isol) := by
  have stays : ∀ other i, p.context other = some i →
      (p.setHandler lib isol).context other = some i := by
    intro other i inside
    by_cases same : other = lib
    · subst same
      obtain rfl := placed.apart i isol _ (placed.context other i inside) linked
      exact Function.update_self ..
    · exact (Function.update_of_ne same ..).trans inside
  refine ⟨{ placed with context := ?_, entered := ?_ },
    ⟨fun _ _ => id, stays, fun _ _ _ => id⟩⟩
  · intro other i inside
    by_cases same : other = lib
    · subst same
      have set : (p.setHandler other isol).context other = some isol := Function.update_self ..
      obtain rfl := Option.some.inj (set.symm.trans inside)
      exact linked
    · exact placed.context other i ((Function.update_of_ne same ..).symm.trans inside)
  · intro i name module cached
    obtain ⟨named, inside⟩ := placed.entered i name module cached
    exact ⟨named, fun contextual => stays _ i (inside contextual)⟩

theorem insert {module : Module} (placed : p.Placed host)
    (linked : p.linked isol = some module.lib.lmid)
    (inside : module.Contextual host → p.context module.lib = some isol) :
    (p.insert isol module.name module).Placed host := by
  refine { placed with modules := ?_, entered := ?_ }
  · intro i key other stored
    rw [insert_modules] at stored
    split at stored
    · rename_i here
      obtain ⟨rfl, rfl⟩ := here
      obtain rfl := Option.some.inj stored
      exact linked
    · exact placed.modules i key other stored
  · intro i key other stored
    rw [insert_modules] at stored
    split at stored
    · rename_i here
      obtain ⟨rfl, rfl⟩ := here
      obtain rfl := Option.some.inj stored
      exact ⟨rfl, inside⟩
    · exact placed.entered i key other stored

theorem loadModule (placed : p.Placed host) (separate : host.Separate) (complete : host.Complete)
    (found : host.loaders isol = some loader) (name : String) (linking : Linking) :
    let answer := loadModule host loader isol name linking p
    answer.2.Placed host ∧ p.Extends answer.2 ∧ ∀ module, answer.1 = .ok module →
      module.name = name ∧ answer.2.linked isol = some module.lib.lmid ∧
      (module.Contextual host → answer.2.context module.lib = some isol) := by
  dsimp only
  unfold Visor.loadModule
  rcases linkModule_cases host loader isol name linking p with
    ⟨e, failed⟩ | ⟨module, linked, opens, built⟩
  · rw [failed]
    exact ⟨placed, .refl p, nofun⟩
  · rw [linked]
    dsimp only
    obtain ⟨after, grows, own⟩ := placed.getOrInit separate (by rw [found]; rfl) opens
    generalize (p.opened module.lib).getOrInit isol module.lib.lmid = r at after grows own
    rcases init_complete complete found built r with ⟨plain, ended⟩ | ended
    · rw [ended]
      refine ⟨after, grows, ?_⟩
      rintro _ ⟨⟩
      exact ⟨built.named, own, fun contextual => absurd contextual plain⟩
    · rw [ended]
      obtain ⟨set, keeps⟩ := after.setHandler own
      refine ⟨set, grows.trans keeps, ?_⟩
      rintro _ ⟨⟩
      exact ⟨built.named, own, fun _ => Function.update_self ..⟩

theorem moduleOrLoad (placed : p.Placed host) (separate : host.Separate) (complete : host.Complete)
    (found : host.loaders isol = some loader) (name : String) (linking : Linking) :
    (moduleOrLoad host loader isol name linking p).2.Placed host ∧
      p.Extends (Visor.moduleOrLoad host loader isol name linking p).2 := by
  unfold Visor.moduleOrLoad
  cases cached : p.modules isol name with
  | some module => exact ⟨placed, .refl p⟩
  | none =>
    have effect := placed.loadModule separate complete found name linking
    rcases loaded : Visor.loadModule host loader isol name linking p with ⟨result, q⟩
    rw [loaded] at effect
    obtain ⟨after, grows, own⟩ := effect
    cases result with
    | error e => exact ⟨after, grows⟩
    | ok module =>
      obtain ⟨rfl, linked, inside⟩ := own module rfl
      exact ⟨after.insert linked inside, grows.insert cached⟩

end Process.Placed

end AlloyStack.Visor
