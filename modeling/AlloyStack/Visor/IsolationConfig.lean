import Mathlib.Data.List.Basic
import Mathlib.Data.List.Forall2
import Mathlib.Data.List.Pairwise
import AlloyStack.Library.PathText
import AlloyStack.Visor.WorkflowRun

/-! `isolation/config.rs`: the expansion of a group into apps with their arguments, and configs
that are read from a file and written to one. -/
namespace AlloyStack.Visor.Workflow

def IsolationGroupApp.appName : IsolationGroupApp → String
  | .name app => app
  | .detailed app => app.name

def IsolationGroupApp.ownArgs : IsolationGroupApp → Args
  | .name _ => fun _ => none
  | .detailed app => app.args

/-- What the entry number `i` of a group is to become. -/
structure Expands (group : IsolationGroup) (i : Nat) (entry : IsolationGroupApp) (app : App) :
    Prop where
  name : app.name = entry.appName
  index : app.args "id" = some (toString i)
  own : ∀ key value, key ≠ "id" → entry.ownArgs key = some value → app.args key = some value
  inherited : ∀ key value, key ≠ "id" → entry.ownArgs key = none → group.args key = some value →
    app.args key = some value
  only : ∀ key value, app.args key = some value →
    key = "id" ∨ entry.ownArgs key = some value ∨ group.args key = some value

theorem toIsolation_appName (index : String) (entry : IsolationGroupApp) :
    (entry.toIsolation index).name = entry.appName := by
  cases entry with
  | name => rfl
  | detailed => rfl

theorem toIsolation_args (index : String) (entry : IsolationGroupApp) :
    (entry.toIsolation index).args = Function.update entry.ownArgs "id" (some index) := by
  cases entry with
  | name => rfl
  | detailed => rfl

theorem toIsolation_expands (group : IsolationGroup) (i : Nat) (entry : IsolationGroupApp) :
    Expands group i entry { entry.toIsolation (toString i) with
      args := fun key => ((entry.toIsolation (toString i)).args key).or (group.args key) } := by
  constructor
  case name => exact toIsolation_appName _ entry
  case index => simp [toIsolation_args]
  case own =>
    intro key value other own
    simp [toIsolation_args, Function.update_of_ne other, own]
  case inherited =>
    intro key value other own shared
    simp [toIsolation_args, Function.update_of_ne other, own, shared]
  case only =>
    intro key value found
    by_cases same : key = "id"
    · exact .inl same
    · simp only [toIsolation_args, Function.update_of_ne same, Option.or_eq_some_iff] at found
      rcases found with own | shared
      · exact .inr (.inl own)
      · exact .inr (.inr shared.2)

theorem toIsolation_getElem? (group : IsolationGroup) (i : Nat) :
    group.toIsolation[i]? = group.list[i]?.map fun entry => { entry.toIsolation (toString i) with
      args := fun key => ((entry.toIsolation (toString i)).args key).or (group.args key) } := by
  rw [IsolationGroup.toIsolation, List.getElem?_mapIdx]

theorem decimal_inj {i j : Nat} : toString i = toString j ↔ i = j := by
  constructor
  · intro same
    rw [Nat.toString_eq_repr, Nat.toString_eq_repr] at same
    have digits := congrArg String.toList same
    rw [Nat.toList_repr, Nat.toList_repr] at digits
    exact Text.digits_injective digits
  · rintro rfl
    rfl

/-- One app per entry in the order of the list, named and equipped as the entry says, with
identifiers that tell the apps of a group apart. -/
theorem group_expansion (group : IsolationGroup) :
    group.toIsolation.length = group.list.length ∧
    (∀ i entry, group.list[i]? = some entry → ∃ app, group.toIsolation[i]? = some app ∧
      Expands group i entry app) ∧
    group.toIsolation.Pairwise fun first second => first.args "id" ≠ second.args "id" := by
  refine ⟨List.length_mapIdx, ?_, ?_⟩
  · intro i entry listed
    exact ⟨_, by rw [toIsolation_getElem?, listed]; rfl, toIsolation_expands group i entry⟩
  · rw [List.pairwise_iff_getElem]
    intro i j first second ordered
    simp only [IsolationGroup.toIsolation, List.getElem_mapIdx, toIsolation_args,
      Function.update_self, Option.some_or, ne_eq, Option.some.injEq, decimal_inj]
    omega

end AlloyStack.Visor.Workflow

namespace AlloyStack.Visor.Config
open PathText Workflow

structure LoadableUnit where
  name : String
  path : String
  deriving DecidableEq

structure IsolationConfig where
  services : List LoadableUnit
  apps : List LoadableUnit
  fsImage : Option String
  withLibos : Option Bool
  groups : List IsolationGroup

/-- The build, the machine and `serde_json`. A path is writable when `fs::write` succeeds
there; `parse` and `pretty` are `from_reader` and `to_string_pretty`. -/
structure Environment where
  namespaces : Bool
  debugAssertions : Bool
  isolConfigPath : String
  writable : String → Bool
  parse : String → Except String IsolationConfig
  pretty : IsolationConfig → String

/-- The regular files with their contents. -/
abbrev Files := String → Option String

inductive ReadError where
  | open (path : String)
  | json (message : String)
  deriving DecidableEq

namespace Environment
variable (env : Environment)

def targetPath : String := join "target" (if env.debugAssertions then "debug" else "release")

/-- What the loop of `from_file` does to each library. -/
def relocate (unit : LoadableUnit) : LoadableUnit :=
  { unit with path := join env.targetPath unit.path }

def libc : LoadableUnit := ⟨"libc", "/usr/lib/x86_64-linux-gnu/libc.so.6"⟩

/-- `from_file` after parsing. -/
def settle (config : IsolationConfig) : IsolationConfig :=
  let services := config.services.map env.relocate
  { config with
    services := if env.namespaces then libc :: services else services
    apps := config.apps.map env.relocate }

/-- `from_file` up to the parsed config. -/
def read (files : Files) (p : String) : Except ReadError IsolationConfig :=
  let p := if (files p).isSome then p else join env.isolConfigPath p
  match files p with
  | none => .error (.open p)
  | some content => (env.parse content).mapError .json

def fromFile (files : Files) (p : String) : Except ReadError IsolationConfig :=
  (env.read files p).map env.settle

/-- `to_file`: `none` is an I/O error. -/
def toFile (files : Files) (config : IsolationConfig) (p : String) : Option Files :=
  if env.writable p then some (Function.update files p (some (env.pretty config))) else none

end Environment

/-- Equality of units where paths are compared by components, as `PathBuf` does. -/
def LoadableUnit.Same (first second : LoadableUnit) : Prop :=
  first.name = second.name ∧ components first.path = components second.path

structure IsolationConfig.Same (first second : IsolationConfig) : Prop where
  services : List.Forall₂ LoadableUnit.Same first.services second.services
  apps : List.Forall₂ LoadableUnit.Same first.apps second.apps
  fsImage : first.fsImage = second.fsImage
  withLibos : first.withLibos = second.withLibos
  groups : first.groups = second.groups

/-- A config read from `source` and written to `p` is read back as the same config. -/
def RoundTrips (env : Environment) (same : IsolationConfig → IsolationConfig → Prop) (files : Files)
    (source p : String) : Prop :=
  ∀ config after, env.fromFile files source = .ok config → env.toFile files config p = some after →
    ∃ again, env.fromFile after p = .ok again ∧ same again config

section RoundTrip
variable {env : Environment} {files : Files} {source p : String} {raw config : IsolationConfig}

theorem targetPath_plain (env : Environment) :
    Plain env.targetPath ∧ isAbsolute env.targetPath = false ∧
    2 ≤ (components env.targetPath).length := by
  unfold Environment.targetPath Plain
  cases env.debugAssertions with
  | true => decide +kernel
  | false => decide +kernel

/-- What `from_file` makes of what `to_file` has written. -/
theorem fromFile_toFile (serde : env.parse (env.pretty config) = .ok config)
    (written : env.toFile files config p = some after) :
    env.fromFile after p = .ok (env.settle config) := by
  unfold Environment.toFile at written
  split at written
  · obtain rfl := Option.some.inj written
    simp [Environment.fromFile, Environment.read, serde, Except.mapError, Except.map]
  · cases written

def AllAbsolute (config : IsolationConfig) : Prop :=
  ∀ unit ∈ config.services ++ config.apps, isAbsolute unit.path = true

theorem relocate_same_iff (env : Environment) (unit : LoadableUnit) :
    LoadableUnit.Same (env.relocate unit) unit ↔ isAbsolute unit.path = true := by
  obtain ⟨plain, _, deep⟩ := targetPath_plain env
  cases absolute : isAbsolute unit.path with
  | true => simp [LoadableUnit.Same, Environment.relocate, join_absolute absolute]
  | false => simp [LoadableUnit.Same, Environment.relocate, components_join_ne plain deep absolute]

theorem relocate_absolute (env : Environment) {unit : LoadableUnit}
    (absolute : isAbsolute unit.path = true) :
    env.relocate unit = unit := by
  rw [Environment.relocate, join_absolute absolute]

theorem isAbsolute_relocate (env : Environment) (unit : LoadableUnit) :
    isAbsolute (env.relocate unit).path = isAbsolute unit.path := by
  obtain ⟨plain, relative, _⟩ := targetPath_plain env
  exact isAbsolute_join plain relative

theorem relocate_list_same (env : Environment) (units : List LoadableUnit) :
    List.Forall₂ LoadableUnit.Same (units.map env.relocate) units ↔
      ∀ unit ∈ units, isAbsolute unit.path = true := by
  simp only [List.forall₂_map_left_iff, List.forall₂_same, relocate_same_iff]

/-- Reading settles a config again: paths are moved once more, and with namespaces there is one
more service. -/
theorem settle_same_iff (env : Environment) (config : IsolationConfig) :
    (env.settle config).Same config ↔ env.namespaces = false ∧ AllAbsolute config := by
  constructor
  · intro same
    have count := same.services.length_eq
    have apps := (relocate_list_same env config.apps).mp same.apps
    cases flag : env.namespaces with
    | true => simp [Environment.settle, flag] at count
    | false =>
      have services := same.services
      simp only [Environment.settle, flag, Bool.false_eq_true, if_false] at services
      have services := (relocate_list_same env config.services).mp services
      refine ⟨rfl, fun unit member => ?_⟩
      rcases List.mem_append.mp member with service | app
      · exact services unit service
      · exact apps unit app
  · rintro ⟨flag, absolute⟩
    have services := (relocate_list_same env config.services).mpr
      fun unit member => absolute unit (List.mem_append_left _ member)
    have apps := (relocate_list_same env config.apps).mpr
      fun unit member => absolute unit (List.mem_append_right _ member)
    refine ⟨?_, apps, rfl, rfl, rfl⟩
    simpa only [Environment.settle, flag, Bool.false_eq_true, if_false] using services

theorem relocate_list (env : Environment) {units : List LoadableUnit}
    (absolute : ∀ unit ∈ units, isAbsolute unit.path = true) : units.map env.relocate = units :=
  (List.map_congr_left fun unit member => relocate_absolute env (absolute unit member)).trans
    (List.map_id units)

theorem settle_eq (flag : env.namespaces = false) (absolute : AllAbsolute config) :
    env.settle config = config := by
  have services :=
    relocate_list env fun unit member => absolute unit (List.mem_append_left _ member)
  have apps := relocate_list env fun unit member => absolute unit (List.mem_append_right _ member)
  simp only [Environment.settle, flag, services, apps, Bool.false_eq_true, if_false]

theorem same_refl (config : IsolationConfig) : config.Same config where
  services := List.forall₂_same.mpr fun _ _ => ⟨rfl, rfl⟩
  apps := List.forall₂_same.mpr fun _ _ => ⟨rfl, rfl⟩
  fsImage := rfl
  withLibos := rfl
  groups := rfl

theorem allAbsolute_settle (flag : env.namespaces = false) :
    AllAbsolute (env.settle raw) ↔ AllAbsolute raw := by
  simp only [AllAbsolute, Environment.settle, flag, Bool.false_eq_true, if_false, ← List.map_append,
    List.forall_mem_map, isAbsolute_relocate]

theorem roundTrips_iff (opened : env.read files source = .ok raw) (writable : env.writable p = true)
    (serde : env.parse (env.pretty (env.settle raw)) = .ok (env.settle raw))
    (same : IsolationConfig → IsolationConfig → Prop) :
    RoundTrips env same files source p ↔ same (env.settle (env.settle raw)) (env.settle raw) := by
  have loaded : env.fromFile files source = .ok (env.settle raw) := by
    rw [Environment.fromFile, opened]
    rfl
  have written : env.toFile files (env.settle raw) p =
      some (Function.update files p (some (env.pretty (env.settle raw)))) := by
    rw [Environment.toFile, if_pos writable]
  constructor
  · intro trips
    obtain ⟨again, reread, equal⟩ := trips _ _ loaded written
    rw [fromFile_toFile serde written] at reread
    obtain rfl := Except.ok.inj reread
    exact equal
  · intro equal config after read wrote
    obtain rfl := Except.ok.inj (loaded.symm.trans read)
    exact ⟨_, fromFile_toFile serde wrote, equal⟩

/-- A config survives the round trip exactly when it names all its libraries by absolute paths
and the visor is built without namespaces. -/
theorem config_round_trip_iff (opened : env.read files source = .ok raw)
    (writable : env.writable p = true)
    (serde : env.parse (env.pretty (env.settle raw)) = .ok (env.settle raw)) :
    (RoundTrips env IsolationConfig.Same files source p ↔ env.namespaces = false ∧
      AllAbsolute raw) ∧
    (RoundTrips env Eq files source p ↔ env.namespaces = false ∧ AllAbsolute raw) := by
  have settled : (env.settle (env.settle raw)).Same (env.settle raw) ↔
      env.namespaces = false ∧ AllAbsolute raw := by
    rw [settle_same_iff]
    exact and_congr_right fun flag => allAbsolute_settle flag
  rw [roundTrips_iff opened writable serde, roundTrips_iff opened writable serde]
  refine ⟨settled, ?_, ?_⟩
  · intro equal
    refine settled.mp ?_
    rw [equal]
    exact same_refl _
  · rintro ⟨flag, absolute⟩
    exact settle_eq flag ((allAbsolute_settle flag).mpr absolute)

end RoundTrip

def oneLibrary (path : String) : IsolationConfig := ⟨[⟨"fdtab", path⟩], [], none, none, []⟩

/-- The config with one library as `to_string_pretty` prints it. -/
def oneLibraryText (path : String) : String :=
  "\x7b\n  \"services\": [\n    [\n      \"fdtab\",\n      \"" ++ path ++
    "\"\n    ]\n  ],\n  \"apps\": [],\n  \"fs_image\": null,\n  \"with_libos\": null,\n" ++
    "  \"groups\": []\n\x7d"

/-- A release build, and `serde_json` on configs with one library. -/
def oneLibraryEnv (paths : List String) : Environment where
  namespaces := false
  debugAssertions := false
  isolConfigPath := "/repo/isol_config"
  writable := fun _ => true
  parse := fun text =>
    match paths.find? (fun path => oneLibraryText path = text) with
    | some path => .ok (oneLibrary path)
    | none => .error "expected value at line 1 column 1"
  pretty := fun config =>
    match config.services with
    | [unit] => oneLibraryText unit.path
    | _ => ""

def oneFile (path : String) : Files :=
  Function.update (fun _ => none) "/repo/isol_config/base.json" (some (oneLibraryText path))

/-- What `serde_json` makes of the text of a known library. -/
def Known (paths : List String) (path : String) : Prop :=
  paths.find? (fun other => oneLibraryText other = oneLibraryText path) = some path

theorem oneLibrary_parse {paths : List String} (known : Known paths path) :
    (oneLibraryEnv paths).parse (oneLibraryText path) = .ok (oneLibrary path) := by
  unfold Known at known
  simp only [oneLibraryEnv, known]

theorem oneFile_read {paths : List String} (known : Known paths path) :
    (oneLibraryEnv paths).read (oneFile path) "base.json" = .ok (oneLibrary path) := by
  have missing : oneFile path "base.json" = none := Function.update_of_ne (by decide) _ _
  have joined : join (oneLibraryEnv paths).isolConfigPath "base.json" =
      "/repo/isol_config/base.json" := by
    simp only [oneLibraryEnv]
    decide +kernel
  have present : oneFile path "/repo/isol_config/base.json" = some (oneLibraryText path) :=
    Function.update_self _ _ _
  simp only [Environment.read, missing, Option.isSome_none, Bool.false_eq_true, if_false, joined,
    present, oneLibrary_parse known]
  rfl

theorem oneLibrary_settle (paths : List String) (path : String) :
    (oneLibraryEnv paths).settle (oneLibrary path) = oneLibrary (join "target/release" path) := by
  have target : (oneLibraryEnv paths).targetPath = "target/release" := by
    rw [Environment.targetPath, if_neg (by simp [oneLibraryEnv])]
    decide +kernel
  simp only [Environment.settle, oneLibrary, List.map_cons, List.map_nil, Environment.relocate,
    target]
  rfl

theorem oneLibrary_serde {paths : List String} (known : Known paths path) :
    (oneLibraryEnv paths).parse ((oneLibraryEnv paths).pretty (oneLibrary path)) =
      .ok (oneLibrary path) := by
  have printed : (oneLibraryEnv paths).pretty (oneLibrary path) = oneLibraryText path := by
    simp only [oneLibraryEnv, oneLibrary]
  rw [printed, oneLibrary_parse known]

theorem config_round_trip_absolute :
    RoundTrips (oneLibraryEnv ["/opt/libfdtab.so"]) IsolationConfig.Same
    (oneFile "/opt/libfdtab.so") "base.json" "config.json" := by
  have known : Known ["/opt/libfdtab.so"] "/opt/libfdtab.so" := by
    unfold Known
    decide +kernel
  have absolute : AllAbsolute (oneLibrary "/opt/libfdtab.so") := by
    simp only [AllAbsolute, oneLibrary, List.append_nil, List.mem_singleton, forall_eq]
    decide +kernel
  refine (config_round_trip_iff (oneFile_read known) rfl ?_).1.mpr ⟨rfl, absolute⟩
  rw [settle_eq rfl absolute]
  exact oneLibrary_serde known

theorem config_round_trip_relative :
    ¬ ∀ env files source p raw, Environment.read env files source = .ok raw →
      env.writable p = true →
      env.parse (env.pretty (env.settle raw)) = .ok (env.settle raw) →
      RoundTrips env IsolationConfig.Same files source p := by
  intro always
  have known : Known ["libfdtab.so", "target/release/libfdtab.so"] "libfdtab.so" := by
    unfold Known
    decide +kernel
  have moved : Known ["libfdtab.so", "target/release/libfdtab.so"]
      (join "target/release" "libfdtab.so") := by
    unfold Known
    decide +kernel
  have serde := oneLibrary_serde moved
  rw [← oneLibrary_settle] at serde
  have trips := always _ _ _ "config.json" _ (oneFile_read known) rfl serde
  rw [roundTrips_iff (oneFile_read known) rfl serde, settle_same_iff, oneLibrary_settle] at trips
  have absolute := trips.2 _ (List.mem_append_left _ List.mem_cons_self)
  revert absolute
  decide +kernel

end AlloyStack.Visor.Config
