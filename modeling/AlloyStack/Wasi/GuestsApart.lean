import AlloyStack.Visor.WorkflowVerdict
import AlloyStack.Wasi.Guests

/-! The guests of a workflow do not disturb each other: the threads that run at the same time are
of one group, and their keys carry their places in it. -/
namespace AlloyStack.Wasi.Guests
open Transition Visor.Workflow

section Keys

/-- Whether the function calls `set_wasi_args`. -/
def WasmFunction.describes : WasmFunction → Bool
  | .transData | .write => false
  | _ => true

/-- Whether the function has a jump buffer. -/
def WasmFunction.jumps : WasmFunction → Bool
  | .cpython | .cpythonFunc | .cpythonMapper | .cpythonReducer | .cpythonParallelSort
  | .cpythonWordcount => true
  | _ => false

/-- What stands before the id in the key. -/
def WasmFunction.head : WasmFunction → String
  | .cpythonMapper => "mapper_"
  | .cpythonReducer => "reducer_"
  | .cpythonParallelSort => "func_"
  | .cpythonWordcount => "wordcount_"
  | _ => ""

/-- What is common to the setups of a function. -/
structure Shaped (f : WasmFunction) (args : Args) (setup : Setup) : Prop where
  describes : setup.args.isSome = f.describes
  nonempty : setup.args ≠ some []
  jump : setup.jump = f.jumps
  id : ∀ text, args "id" = some text → f ≠ .transData → f ≠ .cpythonFunc →
    setup.key = f.head ++ text
  number : f = .cpythonFunc → ∃ n, number args "func_num" = some n ∧ setup.key = "func_" ++ n

theorem native_shaped {numbers : List String} (f : WasmFunction)
    (ran : native numbers args = some setup) (describes : f.describes = true)
    (jumps : f.jumps = false) (head : f.head = "") (other : f ≠ .cpythonFunc) :
    Shaped f args setup := by
  simp only [native, Option.bind_eq_bind, Option.bind_eq_some_iff, Option.some.injEq] at ran
  obtain ⟨id, found, values, _, rfl⟩ := ran
  refine ⟨describes.symm, by simp, jumps.symm, fun text given _ _ => ?_,
    fun same => absurd same other⟩
  rw [head, String.empty_append]
  exact Option.some.inj (found.symm.trans given)

theorem python_shaped {numbers : List String} (f : WasmFunction)
    (ran : python f.head numbers args = some setup) (describes : f.describes = true)
    (jumps : f.jumps = true) (other : f ≠ .cpythonFunc) :
    Shaped f args setup := by
  simp only [python, Option.bind_eq_bind, Option.bind_eq_some_iff, Option.some.injEq] at ran
  obtain ⟨id, found, path, _, values, _, rfl⟩ := ran
  refine ⟨describes.symm, by simp, jumps.symm, fun text given _ _ => ?_,
    fun same => absurd same other⟩
  rw [Option.some.inj (found.symm.trans given)]

theorem setup_shaped {f : WasmFunction} (ran : f.setup args = some setup) :
    Shaped f args setup := by
  cases f with
  | transData =>
    obtain rfl := Option.some.inj ran
    exact ⟨rfl, by simp, rfl, fun _ _ same => absurd rfl same, nofun⟩
  | write =>
    obtain ⟨id, found, rfl⟩ := Option.map_eq_some_iff.mp ran
    refine ⟨rfl, by simp, rfl, fun text given _ _ => ?_, nofun⟩
    show id = "" ++ text
    rw [String.empty_append]
    exact Option.some.inj (found.symm.trans given)
  | cpython =>
    simp only [WasmFunction.setup, Option.bind_eq_bind, Option.bind_eq_some_iff,
      Option.some.injEq] at ran
    obtain ⟨id, found, path, _, rfl⟩ := ran
    refine ⟨rfl, by simp, rfl, fun text given _ _ => ?_, nofun⟩
    show id = "" ++ text
    rw [String.empty_append]
    exact Option.some.inj (found.symm.trans given)
  | cpythonFunc =>
    simp only [WasmFunction.setup, Option.bind_eq_bind, Option.bind_eq_some_iff,
      Option.some.injEq] at ran
    obtain ⟨path, _, n, found, rfl⟩ := ran
    exact ⟨rfl, by simp, rfl, fun _ _ _ same => absurd rfl same, fun _ => ⟨n, found, rfl⟩⟩
  | mapper => exact native_shaped .mapper ran rfl rfl rfl nofun
  | reducer => exact native_shaped .reducer ran rfl rfl rfl nofun
  | sorter => exact native_shaped .sorter ran rfl rfl rfl nofun
  | spliter => exact native_shaped .spliter ran rfl rfl rfl nofun
  | merger => exact native_shaped .merger ran rfl rfl rfl nofun
  | checker => exact native_shaped .checker ran rfl rfl rfl nofun
  | longchain => exact native_shaped .longchain ran rfl rfl rfl nofun
  | cpythonMapper => exact python_shaped .cpythonMapper ran rfl rfl nofun
  | cpythonReducer => exact python_shaped .cpythonReducer ran rfl rfl nofun
  | cpythonParallelSort => exact python_shaped .cpythonParallelSort ran rfl rfl nofun
  | cpythonWordcount => exact python_shaped .cpythonWordcount ran rfl rfl nofun

/-- The id of an app of a group is its index there. -/
theorem group_id {config : IsolationConfig} (groups : (newIsolation config).groups ≠ [])
    (found : (newIsolation config).app p = some app) : app.args "id" = some (toString p.2) := by
  have schedule : (newIsolation config).schedule = (newIsolation config).groups := by
    simp [Plan.schedule, groups]
  rw [Plan.app, Plan.group, schedule, List.getD_eq_getElem?_getD] at found
  simp only [newIsolation, List.getElem?_map] at found
  cases listed : config.groups[p.1]? with
  | none => simp [listed] at found
  | some group =>
    simp only [listed, Option.map_some, Option.getD_some, IsolationGroup.toIsolation,
      List.getElem?_mapIdx, Option.map_eq_some_iff] at found
    obtain ⟨entry, _, rfl⟩ := found
    cases entry <;> simp [IsolationGroupApp.toIsolation]

variable {L : Type} {load : String → L} {function : L → WasmFunction} {config : IsolationConfig}

/-- The keys of two apps of a group, in one library. -/
theorem keys_apart (numbers : NumbersApart (newIsolation config) load function)
    (groups : (newIsolation config).groups ≠ [])
    (first : (newIsolation config).app p = some app)
    (second : (newIsolation config).app q = some app') (group : p.1 = q.1)
    (library : load app.name = load app'.name)
    (useful : function (load app.name) ≠ .transData)
    (ours : (function (load app.name)).setup app.args = some setup)
    (theirs : (function (load app'.name)).setup app'.args = some setup')
    (same : setup.key = setup'.key) : p = q := by
  have shaped := setup_shaped ours
  rw [← library] at theirs
  have shaped' := setup_shaped theirs
  by_cases counted : function (load app.name) = .cpythonFunc
  · obtain ⟨n, given, key⟩ := shaped.number counted
    obtain ⟨n', given', key'⟩ := shaped'.number counted
    rw [key, key'] at same
    have equal : n = n' := by simpa using same
    exact numbers p q app app' n first second group library counted given (equal ▸ given')
  · rw [shaped.id _ (group_id groups first) useful counted,
      shaped'.id _ (group_id groups second) useful counted] at same
    have lists := congrArg String.toList same
    rw [Text.numbered_toList, Text.numbered_toList] at lists
    exact Prod.ext group (Text.digits_injective (List.append_cancel_left lists))

/-- Threads that run at the same time are of one group, or one thread. -/
theorem live_tie {w : Plan} {o : Outcomes} {s : Running} (sound : s.Sound w o)
    (first : s.status p = .running) (second : s.status q = .running) :
    p = q ∨ w.groups ≠ [] ∧ p.1 = q.1 := by
  obtain ⟨r, frontier, _⟩ := sound
  have apart : ∀ a b, s.status a = .running → s.status b = .running → ¬ w.Before a b := by
    intro a b runs active before
    have listed := frontier.scheduled a (by rw [runs]; decide)
    have passed := frontier.passed_before (by rw [active]; decide) before listed
    rw [passed.1] at runs
    cases runs
  by_cases groups : w.groups = []
  · exact .inl (tie_of_sequence groups (apart p q first second) (apart q p second first))
  · exact .inr ⟨groups, tie_of_groups groups (apart p q first second) (apart q p second first)⟩

/-- A thread runs until it ends. -/
theorem running_kept {w : Plan} {o : Outcomes} {s t : Running} (sound : s.Sound w o)
    (stepped : Step w o s e t) (other : e ≠ .finish p) (running : s.status p = .running) :
    t.status p = .running := by
  obtain ⟨r, _, stage⟩ := sound
  cases stepped with
  | spawn here _ _ =>
    obtain ⟨_, _, _, idle⟩ := here ▸ stage
    refine (Function.update_of_ne ?_ ..).trans running
    rintro rfl
    rw [idle _ le_rfl] at running
    cases running
  | call here _ _ =>
    obtain ⟨⟨_, rfl⟩, idle⟩ := here ▸ stage
    refine (Function.update_of_ne ?_ ..).trans running
    rintro rfl
    rw [idle] at running
    cases running
  | start ready =>
    refine (Function.update_of_ne ?_ ..).trans running
    rintro rfl
    rw [ready] at running
    cases running
  | finish _ =>
    refine (Function.update_of_ne ?_ ..).trans running
    rintro rfl
    exact other rfl
  | _ => exact running

end Keys

section Threads

/-- What a thread relies on in its library. -/
structure Settled (p : Place) (lib : Library) (stage : Stage) (setup : Setup) : Prop where
  returns : 1 ≤ stage.order → lib.jmpBufMap setup.key = if setup.jump then some p else none
  args : 2 ≤ stage.order → lib.wasiState setup.key = setup.args
  opening : stage = .opening → lib.mustOpenRoot = .running
  rooted : 4 ≤ stage.order → setup.root = true → lib.mustOpenRoot = .complete
  building : stage = .building → lib.initLock = some p

/-- The tables that no function of the library fills. -/
structure Spared (f : WasmFunction) (lib : Library) : Prop where
  args : f.describes = false → lib.wasiState = fun _ => none
  jumps : f.jumps = false → lib.jmpBufMap = fun _ => none

variable {f : WasmFunction} {lib lib' : Library} {p q : Place} {stage stage' : Stage}
  {setup setup' other : Setup} {given : Args}

theorem spared_step {phase phase' : Phase} (spared : Spared f lib)
    (stepped : GuestStep p lib phase action lib' phase')
    (ours : phase = .inside stage setup) (shaped : Shaped f given setup) : Spared f lib' := by
  cases stepped with
  | setjmp jump =>
    cases ours
    refine ⟨spared.args, fun without => ?_⟩
    rw [shaped.jump, without] at jump
    cases jump
  | setArgs set =>
    cases ours
    refine ⟨fun without => ?_, spared.jumps⟩
    have some := shaped.describes
    rw [set, without] at some
    cases some
  | _ => exact ⟨spared.args, spared.jumps⟩

theorem guest_inside {phase phase' : Phase}
    (stepped : GuestStep p lib phase action lib' phase') :
    ∃ stage setup, phase = .inside stage setup := by
  cases stepped <;> exact ⟨_, _, rfl⟩

/-- A step of the thread itself. -/
theorem Settled.step (settled : Settled p lib stage setup) (spared : Spared f lib)
    (shaped : Shaped f given setup)
    (stepped : GuestStep p lib (.inside stage setup) action lib' (.inside stage' setup')) :
    setup' = setup ∧ Settled p lib' stage' setup := by
  cases stepped with
  | setjmp jump =>
    refine ⟨rfl, fun _ => ?_, fun late => absurd late (by decide), nofun,
      fun late => absurd late (by decide), nofun⟩
    rw [if_pos jump]
    exact Function.update_self ..
  | noJump jump =>
    refine ⟨rfl, fun _ => ?_, fun late => absurd late (by decide), nofun,
      fun late => absurd late (by decide), nofun⟩
    rw [spared.jumps (shaped.jump.symm.trans jump), jump]
    rfl
  | setArgs set =>
    refine ⟨rfl, fun _ => settled.returns (by decide), fun _ => ?_, nofun,
      fun late => absurd late (by decide), nofun⟩
    rw [set]
    exact Function.update_self ..
  | noArgs unset =>
    refine ⟨rfl, fun _ => settled.returns (by decide), fun _ => ?_, nofun,
      fun late => absurd late (by decide), nofun⟩
    have without : f.describes = false := by rw [← shaped.describes, unset]; rfl
    rw [spared.args without, unset]
  | openRoot root first =>
    exact ⟨rfl, fun _ => settled.returns (by decide), fun _ => settled.args (by decide),
      fun _ => rfl,
      fun late => absurd late (by decide), nofun⟩
  | opened =>
    exact ⟨rfl, fun _ => settled.returns (by decide), fun _ => settled.args (by decide), nofun,
      fun _ _ => rfl, nofun⟩
  | isOpen root done =>
    exact ⟨rfl, fun _ => settled.returns (by decide), fun _ => settled.args (by decide), nofun,
      fun _ _ => done, nofun⟩
  | noRoot root =>
    refine ⟨rfl, fun _ => settled.returns (by decide), fun _ => settled.args (by decide), nofun,
      fun _ needed => ?_, nofun⟩
    rw [root] at needed
    cases needed
  | lock free =>
    exact ⟨rfl, fun _ => settled.returns (by decide), fun _ => settled.args (by decide), nofun,
      fun _ => settled.rooted (by decide), fun _ => rfl⟩
  | built =>
    exact ⟨rfl, fun _ => settled.returns (by decide), fun _ => settled.args (by decide), nofun,
      fun _ => settled.rooted (by decide), nofun⟩
  | argsGet found => exact ⟨rfl, settled⟩

/-- A step of another thread, with another key, and not while both open the root. -/
theorem Settled.other_step {phase' : Phase} (settled : Settled q lib stage' other)
    (ours : Settled p lib stage setup) (apart : q ≠ p)
    (stepped : GuestStep p lib (.inside stage setup) action lib' phase')
    (keys : setup.jump = true ∨ setup.args.isSome = true → other.key ≠ setup.key)
    (alone : stage = .opening → stage' ≠ .opening) : Settled q lib' stage' other := by
  -- the lock is held by one thread
  have unlocked : stage = .building → stage' ≠ .building := by
    intro building too
    have holder := settled.building too
    rw [ours.building building, Option.some.injEq] at holder
    exact apart holder.symm
  cases stepped with
  | setjmp jump =>
    refine ⟨fun late => ?_, settled.args, settled.opening, settled.rooted, settled.building⟩
    exact (Function.update_of_ne (keys (.inl jump)) ..).trans (settled.returns late)
  | setArgs set =>
    refine ⟨settled.returns, fun late => ?_, settled.opening, settled.rooted, settled.building⟩
    have differs := keys (.inr (by rw [set]; rfl))
    exact (Function.update_of_ne differs ..).trans (settled.args late)
  | openRoot root first =>
    refine ⟨settled.returns, settled.args, fun _ => rfl, fun late needed => ?_, settled.building⟩
    have complete := settled.rooted late needed
    rw [first] at complete
    cases complete
  | opened =>
    exact ⟨settled.returns, settled.args, fun too => absurd too (alone rfl), fun _ _ => rfl,
      settled.building⟩
  | openFailed =>
    refine ⟨settled.returns, settled.args, fun too => absurd too (alone rfl), fun late needed => ?_,
      settled.building⟩
    have complete := settled.rooted late needed
    rw [ours.opening rfl] at complete
    cases complete
  | lock free =>
    refine ⟨settled.returns, settled.args, settled.opening, settled.rooted, fun building => ?_⟩
    have holder := settled.building building
    rw [free] at holder
    cases holder
  | built =>
    exact ⟨settled.returns, settled.args, settled.opening, settled.rooted, fun building =>
      absurd building (unlocked rfl)⟩
  | buildFailed =>
    exact ⟨settled.returns, settled.args, settled.opening, settled.rooted, fun building =>
      absurd building (unlocked rfl)⟩
  | _ => exact settled

/-- Only the thread that opens the root completes it. -/
theorem root_step {phase' : Phase} (settled : Settled p lib stage setup)
    (stepped : GuestStep p lib (.inside stage setup) action lib' phase') :
    (action = .opened → lib.mustOpenRoot ≠ .complete ∧ lib'.mustOpenRoot = .complete) ∧
      (action ≠ .opened → (lib'.mustOpenRoot = .complete ↔ lib.mustOpenRoot = .complete)) := by
  cases stepped with
  | openRoot root first => exact ⟨nofun, fun _ => by simp [first]⟩
  | opened =>
    refine ⟨fun _ => ⟨?_, rfl⟩, fun other => absurd rfl other⟩
    rw [settled.opening rfl]
    decide
  | openFailed => exact ⟨nofun, fun _ => by simp [settled.opening rfl]⟩
  | _ => exact ⟨nofun, fun _ => Iff.rfl⟩

theorem opening_first
    (stepped : GuestStep p lib (.inside stage setup) action lib' (.inside .opening setup')) :
    lib.mustOpenRoot = .incomplete := by
  cases stepped with
  | openRoot root first => exact first

theorem argsGet_own {phase' : Phase} (settled : Settled p lib stage setup)
    (shaped : Shaped f given setup)
    (stepped : GuestStep p lib (.inside stage setup) (.argsGet found) lib' phase') :
    found = setup.args := by
  have looked : lib.getWasiState setup.key = found := by
    cases stepped with
    | argsGet present => exact present
    | argsMissing absent => exact absent
  have late : 2 ≤ stage.order := by cases stepped <;> decide
  rw [← looked, Library.getWasiState, settled.args late]
  cases args : setup.args with
  | none => rfl
  | some list =>
    have nonempty : list.length ≠ 0 := fun empty =>
      shaped.nonempty (by rw [args, List.length_eq_zero_iff.mp empty])
    exact if_neg nonempty

theorem procExit_own {phase' : Phase} (settled : Settled p lib stage setup)
    (stepped : GuestStep p lib (.inside stage setup) (.procExit found) lib' phase') :
    found = if setup.jump then some p else none := by
  cases stepped with
  | procExit => exact settled.returns (by decide)

theorem built_rooted {phase' : Phase} (settled : Settled p lib stage setup)
    (stepped : GuestStep p lib (.inside stage setup) .built lib' phase')
    (root : setup.root = true) : lib.mustOpenRoot = .complete := by
  cases stepped with
  | built => exact settled.rooted (by decide) root

end Threads

section Runs
variable {L : Type} [DecidableEq L] {o : Outcomes} {load : String → L}
  {function : L → WasmFunction} {config : IsolationConfig}

structure Joint.Sound (w : Plan) (o : Outcomes) (load : String → L) (function : L → WasmFunction)
    (past : List JointEvent) (s : Joint L) : Prop where
  visor : s.visor.Sound w o
  live : ∀ p stage setup, s.phases p = .inside stage setup → s.visor.status p = .running ∧
    ∃ app, w.app p = some app ∧ (function (load app.name)).setup app.args = some setup ∧
      Settled p (s.library (load app.name)) stage setup
  alone : ∀ p q setup setup', s.phases p = .inside .opening setup →
    s.phases q = .inside .opening setup' → libraryOf w load p = libraryOf w load q → p = q
  spared : ∀ ℓ, Spared (function ℓ) (s.library ℓ)
  opened : ∀ ℓ, (s.library ℓ).mustOpenRoot = .complete ↔
    ∃ q, libraryOf w load q = some ℓ ∧ .guest q .opened ∈ past

omit [DecidableEq L] in
theorem Joint.begin_sound (w : Plan) : (Joint.begin w : Joint L).Sound w o load function [] where
  visor := Visor.Workflow.begin_sound w o
  live := nofun
  alone := nofun
  spared _ := ⟨fun _ => rfl, fun _ => rfl⟩
  opened ℓ := by simp [Joint.begin]

omit [DecidableEq L] in
/-- A step of the visor, with the threads inside their functions afterwards. -/
theorem Joint.Sound.visor_step {w : Plan} {s : Joint L} {phases : Place → Phase} {t : Running}
    (sound : s.Sound w o load function past) (stepped : Step w o s.visor e t)
    (live : ∀ p stage setup, phases p = .inside stage setup →
      s.phases p = .inside stage setup ∧ t.status p = .running ∨
      t.status p = .running ∧ stage = .entered ∧ ownSetup w load function p = some setup) :
    (⟨t, s.library, phases⟩ : Joint L).Sound w o load function (past ++ [.visor e]) where
  visor := step_sound sound.visor stepped
  live p stage setup inside := by
    rcases live p stage setup inside with ⟨before, running⟩ | ⟨running, rfl, own⟩
    · exact ⟨running, (sound.live p stage setup before).2⟩
    · obtain ⟨app, found, ran⟩ := Option.bind_eq_some_iff.mp own
      exact ⟨running, app, found, ran, fun late => absurd late (by decide),
        fun late => absurd late (by decide), nofun, fun late => absurd late (by decide), nofun⟩
  alone p q setup setup' first second same := by
    rcases live p _ setup first with ⟨first, _⟩ | ⟨_, early, _⟩
    · rcases live q _ setup' second with ⟨second, _⟩ | ⟨_, early, _⟩
      · exact sound.alone p q setup setup' first second same
      · cases early
    · cases early
  spared := sound.spared
  opened ℓ := by simpa using sound.opened ℓ

omit [DecidableEq L] in
theorem libraryOf_app {w : Plan} (found : w.app p = some app) :
    libraryOf w load p = some (load app.name) := by
  rw [libraryOf, found, Option.map_some]

/-- What a step of one thread leaves to another. -/
theorem Joint.Sound.others {s : Joint L}
    (numbers : NumbersApart (newIsolation config) load function)
    (sound : s.Sound (newIsolation config) o load function past)
    (found : (newIsolation config).app p = some app) (here : s.phases p = .inside stage setup)
    (stepped : GuestStep p (s.library (load app.name)) (.inside stage setup) action lib phase)
    (apart : q ≠ p) (inside : s.phases q = .inside stage' other) :
    ∃ app', (newIsolation config).app q = some app' ∧
      (function (load app'.name)).setup app'.args = some other ∧
      Settled q (Function.update s.library (load app.name) lib (load app'.name)) stage' other := by
  obtain ⟨running, app₁, found₁, ours, settled⟩ := sound.live p stage setup here
  obtain rfl := Option.some.inj (found.symm.trans found₁)
  obtain ⟨active, app', listed, theirs, kept⟩ := sound.live q stage' other inside
  refine ⟨app', listed, theirs, ?_⟩
  by_cases same : load app'.name = load app.name
  · rw [same, Function.update_self]
    rw [same] at kept
    refine kept.other_step settled apart stepped (fun useful equal => ?_) ?_
    · rcases live_tie sound.visor active running with together | ⟨groups, group⟩
      · exact apart together
      · have fills : function (load app'.name) ≠ .transData := by
          intro bare
          have shaped := setup_shaped ours
          rw [← same, bare] at shaped
          rcases useful with jump | args
          · exact absurd (shaped.jump.symm.trans jump) (by decide)
          · exact absurd (shaped.describes.symm.trans args) (by decide)
        exact apart (keys_apart numbers groups listed found group same fills theirs ours equal)
    · rintro rfl rfl
      refine apart (sound.alone q p other setup inside here ?_)
      rw [libraryOf_app listed, libraryOf_app found, same]
  · rw [Function.update_of_ne same]
    exact kept

/-- A step of a thread inside its function. -/
theorem Joint.Sound.guest_step {s : Joint L}
    (numbers : NumbersApart (newIsolation config) load function)
    (sound : s.Sound (newIsolation config) o load function past)
    (found : (newIsolation config).app p = some app)
    (stepped : GuestStep p (s.library (load app.name)) (s.phases p) action lib phase) :
    (⟨s.visor, Function.update s.library (load app.name) lib, Function.update s.phases p phase⟩ :
      Joint L).Sound (newIsolation config) o load function (past ++ [.guest p action]) := by
  obtain ⟨stage, setup, here⟩ := guest_inside stepped
  obtain ⟨running, app₁, found₁, ran, settled⟩ := sound.live p stage setup here
  obtain rfl := Option.some.inj (found.symm.trans found₁)
  have shaped := setup_shaped ran
  rw [here] at stepped
  constructor
  case visor => exact sound.visor
  case live =>
    intro q stage' other inside
    dsimp only at inside ⊢
    by_cases same : q = p
    · subst same
      rw [Function.update_self] at inside
      subst inside
      obtain ⟨rfl, after⟩ := settled.step (sound.spared _) shaped stepped
      exact ⟨running, app, found, ran, by rw [Function.update_self]; exact after⟩
    · rw [Function.update_of_ne same] at inside
      exact ⟨(sound.live q stage' other inside).1,
        sound.others numbers found here stepped same inside⟩
  case alone =>
    -- while one thread opens the root, no other one begins to
    have begun : ∀ q other, q ≠ p → phase = .inside .opening other → ∀ other',
        s.phases q = .inside .opening other' →
        libraryOf (newIsolation config) load q ≠ libraryOf (newIsolation config) load p := by
      intro q other apart opening other' inside same
      subst opening
      obtain ⟨_, app', listed, _, kept⟩ := sound.live q _ other' inside
      rw [libraryOf_app listed, libraryOf_app found, Option.some.injEq] at same
      have busy := kept.opening rfl
      rw [same, opening_first stepped] at busy
      cases busy
    intro q r other other' first second same
    dsimp only at first second
    by_cases ours : q = p
    · by_cases theirs : r = p
      · rw [ours, theirs]
      · rw [ours, Function.update_self] at first
        rw [Function.update_of_ne theirs] at second
        rw [ours] at same
        exact absurd same.symm (begun r other theirs first other' second)
    · rw [Function.update_of_ne ours] at first
      by_cases theirs : r = p
      · rw [theirs, Function.update_self] at second
        rw [theirs] at same
        exact absurd same (begun q other' ours second other first)
      · rw [Function.update_of_ne theirs] at second
        exact sound.alone q r other other' first second same
  case spared =>
    intro ℓ
    dsimp only
    by_cases same : ℓ = load app.name
    · subst same
      rw [Function.update_self]
      exact spared_step (sound.spared _) stepped rfl shaped
    · rw [Function.update_of_ne same]
      exact sound.spared ℓ
  case opened =>
    intro ℓ
    obtain ⟨completes, keeps⟩ := root_step settled stepped
    have before := sound.opened ℓ
    dsimp only
    by_cases same : ℓ = load app.name
    · subst same
      rw [Function.update_self]
      by_cases opens : action = .opened
      · subst opens
        exact ⟨fun _ => ⟨p, libraryOf_app found, by simp⟩, fun _ => (completes rfl).2⟩
      · rw [keeps opens, before]
        simp [Ne.symm opens]
    · rw [Function.update_of_ne same, before]
      refine ⟨fun ⟨q, home, member⟩ => ⟨q, home, by simp [member]⟩, fun ⟨q, home, member⟩ => ?_⟩
      rcases List.mem_append.mp member with member | last
      · exact ⟨q, home, member⟩
      · obtain ⟨rfl, -⟩ := JointEvent.guest.inj (List.mem_singleton.mp last)
        rw [libraryOf_app found] at home
        exact absurd (Option.some.inj home).symm same

theorem Joint.Sound.step {s t : Joint L}
    (numbers : NumbersApart (newIsolation config) load function)
    (sound : s.Sound (newIsolation config) o load function past)
    (stepped : JointStep (newIsolation config) o load function s e t) :
    t.Sound (newIsolation config) o load function (past ++ [e]) := by
  cases stepped with
  | visor ran started finished =>
    refine sound.visor_step ran fun p stage setup inside => .inl ⟨inside, ?_⟩
    exact running_kept sound.visor ran (finished p) (sound.live p stage setup inside).1
  | @start p after app _ ran found =>
    refine sound.visor_step ran fun q stage setup inside => ?_
    by_cases same : q = p
    · subst same
      rw [Function.update_self] at inside
      have running : after.status q = .running := by
        cases ran with
        | start ready => exact Function.update_self ..
      cases ours : (function (load app.name)).setup app.args with
      | none =>
        rw [ours] at inside
        cases inside
      | some own =>
        rw [ours] at inside
        cases inside
        exact .inr ⟨running, rfl, by rw [ownSetup, found, Option.bind_some, ours]⟩
    · rw [Function.update_of_ne same] at inside
      refine .inl ⟨inside, ?_⟩
      exact running_kept sound.visor ran nofun (sound.live q stage setup inside).1
  | finish ran ended =>
    refine sound.visor_step ran fun q stage setup inside => .inl ⟨inside, ?_⟩
    refine running_kept sound.visor ran ?_ (sound.live q stage setup inside).1
    rintro ⟨⟩
    rw [ended] at inside
    cases inside
  | guest found stepped => exact sound.guest_step numbers found stepped

theorem Joint.Sound.right_step {w : Plan} {s t : Joint L} (sound : s.Sound w o load function past)
    (stepped : JointStep w o load function s e t) : Right w load function past e := by
  cases stepped with
  | visor | start | finish => trivial
  | @guest p app action lib phase _ found stepped =>
    obtain ⟨stage, setup, here⟩ := guest_inside stepped
    obtain ⟨_, app₁, found₁, ran, settled⟩ := sound.live p stage setup here
    obtain rfl := Option.some.inj (found.symm.trans found₁)
    have own : ownSetup w load function p = some setup := by
      rw [ownSetup, found, Option.bind_some, ran]
    rw [here] at stepped
    cases action with
    | silent | jumpSet | argsSet => trivial
    | argsGet result => exact ⟨setup, own, argsGet_own settled (setup_shaped ran) stepped⟩
    | procExit result => exact ⟨setup, own, procExit_own settled stepped⟩
    | opened =>
      intro q same member
      have complete := (sound.opened (load app.name)).mpr
        ⟨q, by rw [same, libraryOf_app found], member⟩
      exact ((root_step settled stepped).1 rfl).1 complete
    | built =>
      refine ⟨setup, own, fun root => ?_⟩
      obtain ⟨q, home, member⟩ :=
        (sound.opened (load app.name)).mp (built_rooted settled stepped root)
      exact ⟨q, by rw [home, libraryOf_app found], member⟩

/-- The guests of every workflow, in every interleaving: each one gets its own arguments and returns
to its own frame, the root directory of its library is opened once and before it runs, and only one
thread of a library is inside `build_wasm`. -/
theorem guests_apart (config : IsolationConfig) (o : Outcomes) (load : String → L)
    (function : L → WasmFunction) (numbers : NumbersApart (newIsolation config) load function)
    (run : Run (JointStep (newIsolation config) o load function)
      (.begin (newIsolation config)) es t) :
    (∀ past e later, es = past ++ e :: later → Right (newIsolation config) load function past e) ∧
      ∀ p q setup setup', t.phases p = .inside .building setup →
        t.phases q = .inside .building setup' →
        libraryOf (newIsolation config) load p = libraryOf (newIsolation config) load q →
          p = q := by
  have reached : ∀ {es : List JointEvent} {t : Joint L},
      Run (JointStep (newIsolation config) o load function) (.begin (newIsolation config)) es t →
      t.Sound (newIsolation config) o load function es := by
    intro es t run
    have sound := run.history (fun held stepped => Joint.Sound.step numbers held stepped)
      (Joint.begin_sound (newIsolation config))
    exact sound
  constructor
  · rintro past e later rfl
    obtain ⟨s, first, rest⟩ := run.split
    obtain ⟨next, stepped, _⟩ := rest.uncons
    exact (reached first).right_step stepped
  · intro p q setup setup' first second same
    have sound := reached run
    obtain ⟨_, app, found, _, ours⟩ := sound.live p _ setup first
    obtain ⟨_, app', found', _, theirs⟩ := sound.live q _ setup' second
    rw [libraryOf_app found, libraryOf_app found', Option.some.injEq] at same
    have holder := ours.building rfl
    rw [same, theirs.building rfl, Option.some.injEq] at holder
    exact holder.symm

end Runs

/-- Two interpreters in one group and one library. -/
def twoInterpreters : IsolationConfig where
  apps := [("python", "libwasmtime_cpython.so")]
  groups := [{
    list := [.name "python", .name "python"]
    args := fun key => if key = "pyfile_path" then some "a.py" else none }]

/-- The second one sets its arguments while the first one is about to read its own. -/
def interleaved : List JointEvent :=
  [.visor (.load (0, 0)), .visor (.load (0, 1)), .visor .move, .visor (.spawn (0, 0)),
    .visor (.spawn (0, 1)), .visor (.start (0, 0)), .visor (.start (0, 1)), .guest (0, 0) .jumpSet,
    .guest (0, 0) .argsSet, .guest (0, 0) .silent, .guest (0, 0) .opened, .guest (0, 0) .silent,
    .guest (0, 0) .built, .guest (0, 1) .jumpSet, .guest (0, 1) .argsSet,
    .guest (0, 0) (.argsGet (some ["python.wasm", "a.py"])),
    .guest (0, 0) (.procExit (some (0, 0)))]

theorem interleaved_run :
    ∃ t, Run (JointStep (newIsolation twoInterpreters) allOk (fun _ => ()) (fun _ => .cpython))
      (.begin (newIsolation twoInterpreters)) interleaved t := by
  refine ⟨_, .cons (.visor (.load (k := 0) (i := 0) rfl rfl) nofun nofun) <|
    .cons (.visor (.load (k := 0) (i := 1) rfl rfl) nofun nofun) <|
    .cons (.visor (.loaded (k := 0) (i := 2) rfl rfl (by decide)) nofun nofun) <|
    .cons (.visor (.spawn (k := 0) (i := 0) rfl rfl rfl) nofun nofun) <|
    .cons (.visor (.spawn (k := 0) (i := 1) rfl rfl rfl) nofun nofun) <|
    .cons (.start (p := (0, 0)) (.start rfl) rfl) <| .cons
      (.start (p := (0, 1)) (.start rfl) rfl) <|
    .cons (.guest rfl (.setjmp rfl)) <| .cons (.guest rfl (.setArgs rfl)) <|
    .cons (.guest rfl (.openRoot rfl rfl)) <| .cons (.guest rfl .opened) <|
    .cons (.guest rfl (.lock rfl)) <| .cons (.guest rfl .built) <|
    .cons (.guest rfl (.setjmp rfl)) <| .cons (.guest rfl (.setArgs rfl)) <|
    .cons (.guest rfl (.argsGet rfl)) <| .cons (.guest rfl .procExit) <| .nil _⟩

theorem interleaved_apart :
    ∃ t, Run (JointStep (newIsolation twoInterpreters) allOk (fun _ => ()) (fun _ => .cpython))
        (.begin (newIsolation twoInterpreters)) interleaved t ∧
      ∀ past e later, interleaved = past ++ e :: later →
        Right (newIsolation twoInterpreters) (fun _ => ()) (fun _ => .cpython) past e := by
  obtain ⟨t, run⟩ := interleaved_run
  have apart := guests_apart twoInterpreters allOk (fun _ => ()) (fun _ => .cpython)
    (fun _ _ _ _ _ _ _ _ _ counted => nomatch counted) run
  exact ⟨t, run, apart.1⟩

end AlloyStack.Wasi.Guests
