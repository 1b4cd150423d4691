import AlloyStack.Visor.IsolationConfig
import AlloyStack.Visor.ModuleCache

/-! `Isolation::preload`: every module of a config is loaded before the workflow runs, each in the
role in which the workflow and the services ask for it later. -/
namespace AlloyStack.Visor
open Rust Transition Config

/-- `self.app_names.contains(svc_name)` -/
def roleIn (config : IsolationConfig) (name : String) : Role :=
  if name ∈ config.apps.map LoadableUnit.name then .app else .service

section Preload
variable (v : Installation) (config : IsolationConfig) (sys : Nat → System)

/-- The loop over the modules, with the answers of the system to each call. -/
def preloadLoop : (names : List String) → (call : Nat) → Modules → Outcome Unit × Modules
  | [], _, s => (.ok (), s)
  | name :: names, call, s =>
    match v.answer ⟨roleIn config name, name, sys call⟩ s with
    | (.ok _, s) => preloadLoop names (call + 1) s
    | (.err e, s) => (.err e, s)
    | (.panic, s) => (.panic, s)

end Preload

section Loading
variable {v : Installation} {config : IsolationConfig} {s t : Modules} {r : Request}
  {module : Service}

theorem Serves.mono {role : Role} (serves : Serves s module role)
    (tagged : s.tagged ⊆ t.tagged) (allocated : s.allocated ⊆ t.allocated) :
    Serves t module role := by
  cases role with
  | service => exact tagged serves
  | app =>
    obtain ⟨pkey, keyed, marked⟩ := serves
    exact ⟨pkey, allocated keyed, tagged marked⟩

/-- Every module in the cache is one that its name asks for. -/
def AllServe (config : IsolationConfig) (s : Modules) : Prop :=
  ∀ name module, s.modules name = some module → Serves s module (roleIn config name)

theorem load_allocated (v : Installation) (r : Request) (s : Modules) :
    s.allocated ⊆ (v.load r s).2.allocated := by
  have effect := load_effect v r s
  cases role : r.role with
  | service => exact (effect.service role).1 ▸ List.Subset.refl _
  | app =>
    rcases effect.app role with ⟨added, -, list⟩ | ⟨-, list⟩
    · exact list ▸ List.subset_cons_self _ _
    · exact list ▸ List.Subset.refl _

theorem load_path (loaded : v.load r s = (.ok module, t)) :
    v.loader.registered r.name = some module.path := by
  cases role : r.role with
  | service =>
    simp only [Installation.load, role, Installation.loadService, Prod.mk.injEq] at loaded
    exact load_ok_path loaded.1
  | app =>
    simp only [Installation.load, role, Installation.loadApp] at loaded
    split at loaded
    · cases loaded
    · split at loaded
      · rename_i app result
        obtain ⟨⟨⟩, -⟩ := Prod.mk.inj loaded
        exact load_ok_path result
      · rename_i failed
        exact absurd (Prod.mk.inj loaded).1 (failed module)

/-- A call that succeeds where the maps show the library keeps every module right for its name. -/
theorem AllServe.answer (serve : AllServe config s) (role : r.role = roleIn config r.name)
    (shown : ∀ path, v.loader.registered r.name = some path → Shown r.sys path)
    (answered : v.answer r s = (.ok module, t)) :
    AllServe config t := by
  have answers := answer_cases v r s
  rw [answered] at answers
  cases answers with
  | hit clear cached => exact serve
  | @loads t' other _ clear missing loaded taggable ends =>
    obtain ⟨⟨⟩⟩ | ⟨_, ⟨⟩⟩ := ends
    have effect := load_effect v r s
    have allocated := load_allocated v r s
    rw [loaded] at effect allocated
    intro name other stored
    by_cases same : name = r.name
    · subst same
      obtain rfl : module = other := by simpa using stored
      rw [← role]
      exact Modules.Sound.loaded_serves loaded List.mem_cons_self rfl
    · have before : s.modules name = some other := by
        rw [← effect.modules]
        simpa [same] using stored
      refine (serve name other before).mono ?_ allocated
      rw [effect.tagged]
      exact List.subset_cons_self _ _
  | misses clear missing loaded untaggable ends =>
    obtain ⟨⟨⟩, hidden⟩ | ⟨_, ⟨⟩⟩ := ends
    exact absurd (shown _ (load_path loaded)) hidden

variable {sys : Nat → System}

theorem AllServe.preloadLoop (serve : AllServe config s) (names : List String) (call : Nat)
    (shown : ∀ i name path, names[i]? = some name → v.loader.registered name = some path →
      Shown (sys (call + i)) path)
    (done : preloadLoop v config sys names call s = (.ok (), t)) :
    AllServe config t := by
  induction names generalizing s call with
  | nil =>
    obtain ⟨-, rfl⟩ := Prod.mk.inj done
    exact serve
  | cons name names ih =>
    rw [Visor.preloadLoop] at done
    split at done
    next module next answered =>
      refine ih (serve.answer rfl (fun path => shown 0 name path rfl) answered) (call + 1) ?_ done
      intro i other path listed
      rw [Nat.add_right_comm]
      exact shown (i + 1) other path listed
    · cases done
    · cases done

end Loading

/-- A process with both libraries mapped, in which the linker has just mapped the second, or the
first, and every call succeeds. -/
def willing (call : Nat) : System where
  pkeyCounter := 0
  dynlib := .ok ()
  heapMprotect := none
  init := .ok ()
  segments :=
    [⟨0x1000, 0x1000, 5, some "/lib/libfdtab.so"⟩, ⟨0x2000, 0x1000, 5, some "/lib/libhello.so"⟩]
  library := fun segment => segment.startAddr = if call = 0 then 0x1000 else 0x2000
  pkeyMprotect := fun _ _ => none

end AlloyStack.Visor
