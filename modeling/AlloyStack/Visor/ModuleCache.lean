import AlloyStack.Library.Transition
import AlloyStack.Visor.ServiceLoader

/-! The cache of loaded modules of one isolation, with feature `enable_mpk`. A module is
inserted before it is tagged with its protection key, and a cached module is returned to
either kind of request without a look at its key. -/
namespace AlloyStack.Visor
open Rust Transition

/-- `IsolationInner` with the poison flag of its mutex. The last three fields record the
history: the number of objects allocated so far, the modules loaded by `load_app` with the
key allocated for each, and the modules whose segments the call that loaded them tagged, with
that key. -/
structure Modules where
  modules : String → Option Service := fun _ => none
  poisoned : Bool := false
  objects : Nat := 0
  allocated : List (Service × Int) := []
  tagged : List (Service × Int) := []

/-- The isolation's loader in a given build. -/
structure Installation where
  build : Build
  perFunc : Bool
  loader : ServiceLoader

def libosPkey : Int := AsStd.LIBOS_PKEY

def Installation.loadService (v : Installation) (sys : System) (name : String) (s : Modules) :
    Outcome Service × Modules :=
  (v.loader.load sys s.objects name libosPkey, { s with objects := s.objects + 1 })

def Installation.loadApp (v : Installation) (sys : System) (name : String) (s : Modules) :
    Outcome Service × Modules :=
  match (mustPkeyAlloc v.build v.perFunc sys.pkeyCounter).1 with
  | none => (.panic, s)
  | some pkey =>
    match v.loader.load sys s.objects name pkey with
    | .ok app =>
      (.ok app, { s with objects := s.objects + 1, allocated := (app, pkey) :: s.allocated })
    | failed => (failed, { s with objects := s.objects + 1 })

/-- The shape shared by `service_or_load` and `app_or_load`, which differ in the loader and
in the key the new module is tagged with. A panic under the lock poisons it. -/
def orLoad (load : Modules → Outcome Service × Modules) (pkey : Service → Int) (sys : System)
    (name : String) (s : Modules) : Outcome Service × Modules :=
  if s.poisoned then (.panic, s)
  else match s.modules name with
    | some module => (.ok module, s)
    | none =>
      match load s with
      | (.panic, s) => (.panic, { s with poisoned := true })
      | (.err e, s) => (.err e, s)
      | (.ok module, s) =>
        let s := { s with modules := Function.update s.modules name (some module) }
        let done := setLibsWithPkey sys [module.path] (pkey module) sys.segments
        let s := if LibraryTagged sys done.2 then
          { s with tagged := (module, pkey module) :: s.tagged } else s
        match done.1 with
        | .ok () => (.ok module, s)
        | .error e => (.err e, s)

def Installation.serviceOrLoad (v : Installation) (sys : System) (name : String) :
    Modules → Outcome Service × Modules :=
  orLoad (v.loadService sys name) (fun _ => libosPkey) sys name

def Installation.appOrLoad (v : Installation) (sys : System) (name : String) :
    Modules → Outcome Service × Modules :=
  orLoad (v.loadApp sys name) Service.pkey sys name

inductive Role where
  | service
  | app
  deriving DecidableEq, Repr

/-- One call, with the answers it gets from the system. -/
structure Request where
  role : Role
  name : String
  sys : System

def Installation.load (v : Installation) (r : Request) : Modules → Outcome Service × Modules :=
  match r.role with
  | .service => v.loadService r.sys r.name
  | .app => v.loadApp r.sys r.name

def Installation.answer (v : Installation) (r : Request) : Modules → Outcome Service × Modules :=
  match r.role with
  | .service => v.serviceOrLoad r.sys r.name
  | .app => v.appOrLoad r.sys r.name

/-- The mutex of the isolation serialises the calls. -/
def RequestStep (v : Installation) (s : Modules) (r : Request) (t : Modules) : Prop :=
  t = (v.answer r s).2

/-- What the module was asked for: a service tagged with the key of the LibOS, or an app
tagged with the key that `load_app` allocated for it. -/
def Serves (s : Modules) (module : Service) : Role → Prop
  | .service => (module, libosPkey) ∈ s.tagged
  | .app => ∃ pkey, (module, pkey) ∈ s.allocated ∧ (module, pkey) ∈ s.tagged

/-- A module is returned only if it was tagged as asked for, and a failed call leaves no
untagged module under its name. -/
def Answered (v : Installation) (s : Modules) (r : Request) (t : Modules) : Prop :=
  match (v.answer r s).1 with
  | .ok module => Serves t module r.role
  | .err _ => ∀ module, t.modules r.name = some module → (module, module.pkey) ∈ t.tagged
  | .panic => True

/-- The guard on a call: a cached module is asked for in the role it was loaded for, and the
library of a module that has just been loaded shows its path and accepts its key. -/
def Admitted (v : Installation) (s : Modules) (r : Request) (_ : Modules) : Prop :=
  s.poisoned = true ∨
  match s.modules r.name, r.role with
  | some module, .service => module.pkey = libosPkey
  | some module, .app => ∃ pkey, (module, pkey) ∈ s.allocated
  | none, _ => ∀ module, (v.load r s).1 = .ok module → Taggable r.sys module.path module.pkey

/-- Every cached module carries its own key, and no other key was ever set or allocated. -/
structure Modules.Sound (s : Modules) : Prop where
  cached : ∀ name module, s.modules name = some module → (module, module.pkey) ∈ s.tagged
  tags : ∀ module pkey, (module, pkey) ∈ s.tagged → pkey = module.pkey ∧ module.object < s.objects
  allocations : ∀ module pkey, (module, pkey) ∈ s.allocated → pkey = module.pkey

theorem modules_sound_initial : Modules.Sound {} where
  cached := by simp
  tags := by simp
  allocations := by simp

/-- The effect of a load, for either role. -/
structure Loads (s t : Modules) (role : Role) (outcome : Outcome Service) : Prop where
  modules : t.modules = s.modules
  tagged : t.tagged = s.tagged
  objects : s.objects ≤ t.objects
  fresh : ∀ module, outcome = .ok module → module.object = s.objects ∧ s.objects < t.objects
  service : role = .service → t.allocated = s.allocated ∧ ∀ module, outcome = .ok module →
    module.pkey = libosPkey
  app : role = .app → (∃ module, outcome = .ok module ∧
    t.allocated = (module, module.pkey) :: s.allocated) ∨
    (∀ module, outcome ≠ .ok module) ∧ t.allocated = s.allocated

theorem load_effect (v : Installation) (r : Request) (s : Modules) :
    Loads s (v.load r s).2 r.role (v.load r s).1 := by
  cases role : r.role with
  | service =>
    simp only [Installation.load, role, Installation.loadService]
    refine ⟨rfl, rfl, Nat.le_succ _, fun module loaded => ?_,
      fun _ => ⟨rfl, fun module loaded => ?_⟩, nofun⟩
    · exact ⟨(load_ok_object loaded).1, Nat.lt_succ_self _⟩
    · exact (load_ok_object loaded).2
  | app =>
    have failing (t : Modules) (outcome : Outcome Service)
        (grown : t = { s with objects := t.objects })
        (bound : s.objects ≤ t.objects) (failed : ∀ module, outcome ≠ .ok module) :
        Loads s t .app outcome := by
      rw [grown]
      exact ⟨rfl, rfl, bound, fun module loaded => absurd loaded (failed module), nofun,
        fun _ => .inr ⟨failed, rfl⟩⟩
    simp only [Installation.load, role, Installation.loadApp]
    cases (mustPkeyAlloc v.build v.perFunc r.sys.pkeyCounter).1 with
    | none => exact failing _ _ rfl (Nat.le_refl _) (by simp)
    | some pkey =>
      dsimp only
      cases loaded : v.loader.load r.sys s.objects r.name pkey with
      | ok module =>
        obtain ⟨object, own⟩ := load_ok_object loaded
        refine ⟨rfl, rfl, Nat.le_succ _, ?_, nofun, fun _ => .inl ⟨module, rfl, by rw [own]⟩⟩
        rintro _ ⟨⟩
        exact ⟨object, Nat.lt_succ_self _⟩
      | err e => exact failing _ _ rfl (Nat.le_succ _) (by simp)
      | panic => exact failing _ _ rfl (Nat.le_succ _) (by simp)

/-- The answers to both kinds of request, with the key of the new module in both. -/
inductive Answers (v : Installation) (r : Request) (s : Modules) :
    Outcome Service → Modules → Prop where
  | poisoned : s.poisoned = true → Answers v r s .panic s
  | hit : s.poisoned = false → s.modules r.name = some module → Answers v r s (.ok module) s
  | panics : s.poisoned = false → s.modules r.name = none → v.load r s = (.panic, t) →
      Answers v r s .panic { t with poisoned := true }
  | fails : s.poisoned = false → s.modules r.name = none → v.load r s = (.err e, t) →
      Answers v r s (.err e) t
  | loads : s.poisoned = false → s.modules r.name = none → v.load r s = (.ok module, t) →
      Taggable r.sys module.path module.pkey → outcome = .ok module ∨ (∃ e, outcome = .err e) →
      Answers v r s outcome { t with
        modules := Function.update t.modules r.name (some module)
        tagged := (module, module.pkey) :: t.tagged }
  | misses : s.poisoned = false → s.modules r.name = none → v.load r s = (.ok module, t) →
      ¬ Taggable r.sys module.path module.pkey →
      outcome = .ok module ∧ ¬ Shown r.sys module.path ∨ (∃ e, outcome = .err e) →
      Answers v r s outcome { t with modules := Function.update t.modules r.name (some module) }

theorem answer_cases (v : Installation) (r : Request) (s : Modules) :
    Answers v r s (v.answer r s).1 (v.answer r s).2 := by
  have shape : ∃ pkey, v.answer r s = orLoad (v.load r) pkey r.sys r.name s ∧
      ∀ module t, v.load r s = (.ok module, t) → pkey module = module.pkey := by
    cases role : r.role with
    | service =>
      refine ⟨fun _ => libosPkey, by simp only [Installation.answer, Installation.load, role,
        Installation.serviceOrLoad], fun module t loaded => ?_⟩
      have effect := (load_effect v r s).service role
      exact (effect.2 module (by rw [loaded])).symm
    | app =>
      exact ⟨Service.pkey, by simp only [Installation.answer, Installation.load, role,
        Installation.appOrLoad], fun _ _ _ => rfl⟩
  obtain ⟨pkey, same, own⟩ := shape
  rw [same, orLoad]
  cases poison : s.poisoned with
  | true => exact .poisoned poison
  | false =>
    cases cached : s.modules r.name with
    | some module => exact .hit poison cached
    | none =>
      rcases loaded : v.load r s with ⟨outcome, t⟩
      cases outcome with
      | panic => exact .panics poison cached loaded
      | err e => exact .fails poison cached loaded
      | ok module =>
        simp only [own module t loaded]
        have tags := libraryTagged_iff r.sys module.path module.pkey
        have shows (done) (shown : Shown r.sys module.path) :=
          @taggable_of_ok _ _ module.pkey shown done
        generalize setLibsWithPkey r.sys [module.path] module.pkey r.sys.segments = done
          at tags shows
        rcases done with ⟨result, segments⟩
        dsimp only at tags ⊢
        by_cases taggable : Taggable r.sys module.path module.pkey
        · rw [if_pos (tags.mpr taggable)]
          cases result with
          | ok _ => exact .loads poison cached loaded taggable (.inl rfl)
          | error e => exact .loads poison cached loaded taggable (.inr ⟨e, rfl⟩)
        · rw [if_neg (mt tags.mp taggable)]
          cases result with
          | ok _ =>
            exact .misses poison cached loaded taggable (.inl ⟨rfl, mt (shows rfl) taggable⟩)
          | error e => exact .misses poison cached loaded taggable (.inr ⟨e, rfl⟩)

namespace Modules.Sound
variable {v : Installation} {s t : Modules} {r : Request}

/-- Loading keeps the bookkeeping: a new module is fresh and its key is its own. -/
theorem load (sound : s.Sound) (loaded : v.load r s = (outcome, t)) : t.Sound := by
  have effect := load_effect v r s
  rw [loaded] at effect
  refine ⟨?_, ?_, ?_⟩
  · intro name module cached
    rw [effect.modules] at cached
    rw [effect.tagged]
    exact sound.cached name module cached
  · intro module pkey tagged
    rw [effect.tagged] at tagged
    obtain ⟨own, old⟩ := sound.tags module pkey tagged
    exact ⟨own, old.trans_le effect.objects⟩
  · intro module pkey allocated
    cases role : r.role with
    | service =>
      rw [(effect.service role).1] at allocated
      exact sound.allocations module pkey allocated
    | app =>
      rcases effect.app role with ⟨added, _, list⟩ | ⟨_, list⟩
      · rw [list] at allocated
        rcases List.mem_cons.mp allocated with new | old
        · cases new
          rfl
        · exact sound.allocations module pkey old
      · rw [list] at allocated
        exact sound.allocations module pkey allocated

theorem hit_iff (sound : s.Sound) (cached : s.modules r.name = some module)
    (clear : s.poisoned = false) :
    Serves s module r.role ↔ Admitted v s r t := by
  have own := sound.cached r.name module cached
  cases role : r.role with
  | service =>
    simp only [Serves, Admitted, clear, cached, role, Bool.false_eq_true, false_or]
    constructor
    · exact fun tagged => (sound.tags module _ tagged).1.symm
    · exact fun same => same ▸ own
  | app =>
    simp only [Serves, Admitted, clear, cached, role, Bool.false_eq_true, false_or]
    constructor
    · rintro ⟨pkey, allocated, _⟩
      exact ⟨pkey, allocated⟩
    · rintro ⟨pkey, allocated⟩
      exact ⟨pkey, allocated, sound.allocations module pkey allocated ▸ own⟩

theorem miss_iff (missing : s.modules r.name = none) (clear : s.poisoned = false) :
    Admitted v s r t ↔ ∀ module, (v.load r s).1 = .ok module →
      Taggable r.sys module.path module.pkey := by
  simp [Admitted, missing, clear]

theorem loaded_serves (loaded : v.load r s = (.ok module, t))
    (tagged : (module, module.pkey) ∈ after.tagged) (same : after.allocated = t.allocated) :
    Serves after module r.role := by
  have effect := load_effect v r s
  rw [loaded] at effect
  cases role : r.role with
  | service =>
    have key := (effect.service role).2 module rfl
    rw [key] at tagged
    exact tagged
  | app =>
    rcases effect.app role with ⟨added, outcome, list⟩ | ⟨failed, _⟩
    · cases outcome
      exact ⟨module.pkey, by rw [same, list]; exact List.mem_cons_self, tagged⟩
    · exact absurd rfl (failed module)

/-- A module that has just been loaded was not tagged before. -/
theorem untagged (sound : s.Sound) (loaded : v.load r s = (.ok module, t)) (pkey : Int) :
    (module, pkey) ∉ t.tagged := by
  have effect := load_effect v r s
  rw [loaded] at effect
  intro tagged
  rw [effect.tagged] at tagged
  have old := (sound.tags module _ tagged).2
  have new := (effect.fresh module rfl).1
  omega

theorem serves_tagged {role : Role} (serves : Serves s module role) :
    ∃ pkey, (module, pkey) ∈ s.tagged := by
  cases role with
  | service => exact ⟨_, serves⟩
  | app =>
    obtain ⟨pkey, _, tagged⟩ := serves
    exact ⟨pkey, tagged⟩

theorem step_iff (sound : s.Sound) (stepped : RequestStep v s r t) :
    Answered v s r t ↔ Admitted v s r t := by
  rw [stepped, Answered]
  have answers := answer_cases v r s
  generalize v.answer r s = answer at answers ⊢
  obtain ⟨outcome, t⟩ := answer
  dsimp only at answers ⊢
  cases answers with
  | poisoned poison => simp [Admitted, poison]
  | hit clear cached => exact sound.hit_iff cached clear
  | panics clear missing loaded =>
    rw [miss_iff missing clear, loaded]
    simp
  | fails clear missing loaded =>
    have effect := load_effect v r s
    rw [loaded] at effect
    have kept : t.modules = s.modules := effect.modules
    rw [miss_iff missing clear, loaded]
    simp [kept, missing]
  | @loads t module outcome clear missing loaded taggable ends =>
    rw [miss_iff missing clear, loaded]
    have admitted : ∀ other, Outcome.ok module = .ok other →
        Taggable r.sys other.path other.pkey := by
      rintro _ ⟨⟩
      exact taggable
    refine ⟨fun _ => admitted, fun _ => ?_⟩
    rcases ends with rfl | ⟨e, rfl⟩
    · exact loaded_serves loaded List.mem_cons_self rfl
    · intro other stored
      obtain rfl : module = other := by simpa using stored
      exact List.mem_cons_self
  | @misses t module outcome clear missing loaded untaggable ends =>
    rw [miss_iff missing clear, loaded]
    have untagged : ∀ pkey, (module, pkey) ∉ t.tagged := sound.untagged loaded
    refine ⟨fun answered => ?_, fun admitted => absurd (admitted module rfl) untaggable⟩
    rcases ends with ⟨rfl, _⟩ | ⟨e, rfl⟩
    · exact absurd (serves_tagged answered).choose_spec (untagged _)
    · exact absurd (answered module (by simp)) (untagged _)

theorem step (sound : s.Sound) (stepped : RequestStep v s r t) (admitted : Admitted v s r t) :
    t.Sound := by
  rw [stepped] at admitted ⊢
  have answers := answer_cases v r s
  generalize v.answer r s = answer at answers admitted ⊢
  obtain ⟨outcome, t⟩ := answer
  dsimp only at answers admitted ⊢
  cases answers with
  | poisoned => exact sound
  | hit => exact sound
  | panics clear missing loaded =>
    obtain ⟨cached, tags, allocations⟩ := sound.load loaded
    exact ⟨cached, tags, allocations⟩
  | fails clear missing loaded => exact sound.load loaded
  | @loads t' module outcome clear missing loaded taggable ends =>
    obtain ⟨cached, tags, allocations⟩ := sound.load loaded
    have effect := load_effect v r s
    rw [loaded] at effect
    refine ⟨?_, ?_, allocations⟩
    · intro name other stored
      by_cases same : name = r.name
      · subst same
        obtain rfl : module = other := by simpa using stored
        exact List.mem_cons_self
      · exact List.mem_cons_of_mem _ (cached name other (by simpa [same] using stored))
    · intro other pkey tagged
      rcases List.mem_cons.mp tagged with new | old
      · cases new
        obtain ⟨object, grown⟩ := effect.fresh module rfl
        exact ⟨rfl, object ▸ grown⟩
      · exact tags other pkey old
  | @misses t' module outcome clear missing loaded untaggable ends =>
    rw [miss_iff missing clear, loaded] at admitted
    exact absurd (admitted module rfl) untaggable

end Modules.Sound

/-- In every run of requests with arbitrary answers of the system, each call meets the
contract exactly when each call is admitted by the guard. -/
theorem requests_answered_iff (v : Installation) (requests : List Request) (s : Modules) :
    Run (Where (RequestStep v) (Answered v)) {} requests s ↔
      Run (Where (RequestStep v) (Admitted v)) {} requests s :=
  Run.where_iff (fun sound stepped admitted => sound.step stepped admitted)
    (fun sound stepped => sound.step_iff stepped) modules_sound_initial

/-- A service registered under one name, in a process where the first `pkey_mprotect` on
its segment is refused and the next ones would succeed. -/
def refusingService (refused : Bool) : Request where
  role := .service
  name := "fdtab"
  sys := {
    pkeyCounter := 0
    dynlib := .ok ()
    heapMprotect := none
    init := .ok ()
    segments := [⟨0x1000, 0x1000, 5, some "/lib/libfdtab.so"⟩]
    library := fun _ => true
    pkeyMprotect := fun _ _ => if refused then some 22 else none }

def fdtabInstallation : Installation where
  build := release
  perFunc := false
  loader := { registered := register [] [("fdtab", "libfdtab.so")], withLibos := true }

/-- The first call reports the failure but leaves the module in the cache, so that the second
call returns it untagged. -/
theorem requests_answered_fails :
    let first := fdtabInstallation.answer (refusingService true) {}
    let second := fdtabInstallation.answer (refusingService false) first.2
    first.1 = .err "mprotect failed, errno=22" ∧
    second.1 = .ok ⟨0, "fdtab", "libfdtab.so", 15⟩ ∧ second.2.tagged = [] ∧
    ¬ Answered fdtabInstallation first.2 (refusingService false) second.2 := by
  intro first second
  have returned : second.1 = .ok ⟨0, "fdtab", "libfdtab.so", 15⟩ := by decide
  have untagged : second.2.tagged = [] := by decide
  refine ⟨by decide, returned, untagged, fun answered => ?_⟩
  rw [Answered, show (fdtabInstallation.answer (refusingService false) first.2).1 =
    _ from returned] at answered
  have tagged : (_, libosPkey) ∈ second.2.tagged := answered
  rw [untagged] at tagged
  cases tagged

end AlloyStack.Visor
