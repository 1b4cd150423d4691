import AlloyStack.Fatfs.FileList
import AlloyStack.Fdtab.FileMap
import AlloyStack.Library.Ownership

/-! The descriptor table and the file list together, under threads that call `open`, `read`,
`write`, `lseek`, `stat` and `close`. A step is one critical section of `FD_TABLE` or `FTABLE`;
`open` and `close` are split across the two, the other operations enter `FTABLE` while they
hold `FD_TABLE`. -/
namespace AlloyStack.Fdtab
open Rust Transition SlotTable Ownership AlloyStack.Fatfs

abbrev Tid := Nat

/-- Where a thread is: between the two sections of an `open` or a `close`, or inside `FD_TABLE`
before and after the section of `FTABLE`. -/
inductive Phase where
  | idle
  | adding (mode : UInt32) (rawFd : Fd)
  | closing (file : File)
  | within (rawFd : Fd)
  | leaving
  deriving DecidableEq, Repr

structure Shared where
  fdTable : FdTable := []
  holder : Option Tid := none
  fileList : FileList := {}
  phases : Tid → Phase := fun _ => .idle

def Shared.enter (s : Shared) (i : Tid) (phase : Phase) : Shared :=
  { s with phases := Function.update s.phases i phase }

theorem Shared.enter_self (s : Shared) (i : Tid) (phase : Phase) :
    (s.enter i phase).phases i = phase :=
  Function.update_self ..

/-- The file operations that work on an open descriptor, with the mode they ask for. -/
inductive FileOp where
  | read
  | write
  | lseek
  | stat
  deriving DecidableEq, Repr

def FileOp.permitted (file : File) : FileOp → Bool
  | .read => file.canRead
  | .write => file.canWrite
  | .lseek | .stat => true

inductive HandleEvent where
  | fatfsOpen (i : Tid) (flags mode : UInt32) (fs : Opening)
  | addFile (i : Tid)
  | removeFile (i : Tid) (fd : Fd)
  | fatfsClose (i : Tid)
  | withFile (i : Tid) (fd : Fd) (op : FileOp)
  | fatfsAccess (i : Tid)
  | unlock (i : Tid)

/-- The next phase of a thread after the first section of `open`. -/
def afterOpen (mode : UInt32) : Option (Except FatfsError Fd) → Phase
  | some (.ok rawFd) => .adding mode rawFd
  | _ => .idle

def afterRemove : Option File → Phase
  | some file => .closing file
  | none => .idle

inductive HandleStep (b : Build) : Shared → HandleEvent → Shared → Prop where
  | fatfsOpen : s.phases i = .idle →
      (∀ addr, fs.createFile = some addr ∨ fs.openFile = some addr → addr ∉ s.fileList.boxes) →
      HandleStep b s (.fatfsOpen i flags mode fs)
        ({ s with fileList := (fatfsOpen flags fs s.fileList).2 }.enter i
          (afterOpen mode (fatfsOpen flags fs s.fileList).1))
  | addFile : s.phases i = .adding mode rawFd → s.holder = none →
      HandleStep b s (.addFile i)
        ({ s with fdTable := (s.fdTable.addFile { mode, src := .fatFS rawFd }).2 }.enter i .idle)
  | removeFile : s.phases i = .idle → s.holder = none → 2 < fd.toNat →
      s.fdTable.removeFile b fd = some (found, rest) →
      HandleStep b s (.removeFile i fd) ({ s with fdTable := rest }.enter i (afterRemove found))
  | fatfsClose : s.phases i = .closing { mode, src := .fatFS rawFd } →
      HandleStep b s (.fatfsClose i)
        ({ s with fileList := (fatfsClose rawFd s.fileList).2 }.enter i .idle)
  | closeNet : s.phases i = .closing { mode, src := .net socket } →
      HandleStep b s (.fatfsClose i) (s.enter i .idle)
  | withFile : s.phases i = .idle → s.holder = none → 2 < fd.toNat →
      s.fdTable.withFile b fd (fun file _ => file) = some (some { mode, src := .fatFS rawFd }) →
      op.permitted { mode, src := .fatFS rawFd } →
      HandleStep b s (.withFile i fd op) ({ s with holder := some i }.enter i (.within rawFd))
  | fatfsAccess : s.phases i = .within rawFd → HandleStep b s (.fatfsAccess i) (s.enter i .leaving)
  | unlock : s.phases i = .leaving →
    HandleStep b s (.unlock i) ({ s with holder := none }.enter i .idle)

/-- Who may refer to a handle. -/
inductive Owner where
  | entry (n : Nat)
  | opening (i : Tid)
  | closing (i : Tid)
  deriving DecidableEq

def File.handle (file : File) : Option Nat :=
  match file.src with
  | .fatFS rawFd => some rawFd.toNat
  | .net _ => none

def Phase.adds : Phase → Option Nat
  | .adding _ rawFd => some rawFd.toNat
  | _ => none

def Phase.closes : Phase → Option Nat
  | .closing file => file.handle
  | _ => none

def Shared.owned (s : Shared) : Owner → Option Nat
  | .entry n => (slot s.fdTable n).bind File.handle
  | .opening i => (s.phases i).adds
  | .closing i => (s.phases i).closes

def Shared.live (s : Shared) (handle : Nat) : Prop := slot s.fileList.table handle ≠ none

/-- The live handles are exactly those that one entry, or one `open` or `close` in progress,
refers to. -/
def Shared.Joint (s : Shared) : Prop := Exclusive s.owned s.live

/-- The file list answers from a box that is alive. -/
def Shared.Answers (s : Shared) (i : Tid) : Prop :=
  match s.phases i with
  | .closing { mode := _, src := .fatFS rawFd } =>
    (∀ fd, (fatfsClose rawFd s.fileList).1 ≠ .error (.badInputFd fd)) ∧
      ∀ addr, slot s.fileList.table rawFd.toNat = some addr → addr ∈ s.fileList.boxes
  | .within rawFd =>
    (∀ fd, fatfsAccess rawFd s.fileList ≠ .error (.badInputFd fd)) ∧
      ∀ addr, fatfsAccess rawFd s.fileList = .ok addr → addr ∈ s.fileList.boxes
  | _ => True

def HandleCheck (s : Shared) (e : HandleEvent) (t : Shared) : Prop :=
  t.Joint ∧ ∀ i, e = .fatfsClose i ∨ e = .fatfsAccess i → s.Answers i

/-- The guard: a new handle fits a `u32`. -/
def HandleFits (s : Shared) (e : HandleEvent) (_ : Shared) : Prop :=
  ∀ i flags mode fs, e = .fatfsOpen i flags mode fs →
    (∃ rawFd, (fatfsOpen flags fs s.fileList).1 = some (.ok rawFd)) →
      s.fileList.table.length < 2 ^ 32

def Phase.locks : Phase → Bool
  | .within _ | .leaving => true
  | _ => false

/-- Who is inside `FD_TABLE` holds its lock, and the handle looked up stays in the table. -/
structure Shared.Locked (s : Shared) : Prop where
  holder : ∀ i, (s.phases i).locks = true → s.holder = some i
  entry : ∀ i rawFd, s.phases i = .within rawFd → ∃ n, s.owned (.entry n) = some rawFd.toNat

structure Shared.Sound (s : Shared) : Prop where
  joint : s.Joint
  files : s.fileList.Sound
  locked : s.Locked

theorem shared_sound_initial : Shared.Sound {} where
  joint := by
    refine ⟨fun h => ?_, fun o o' h owns => ?_⟩
    · constructor
      · intro alive
        exact absurd (slot_nil h) alive
      · rintro ⟨o, owns⟩
        cases o <;> nomatch owns
    · cases o <;> nomatch owns
  files := .initial
  locked := ⟨nofun, nofun⟩

section Owned
variable {s : Shared} {i : Tid}

theorem owned_enter (s : Shared) (i : Tid) (phase : Phase) :
    (s.enter i phase).owned =
    Function.update (Function.update s.owned (.opening i) phase.adds)
      (.closing i) phase.closes := by
  funext o
  cases o with
  | entry n => rfl
  | opening j =>
    by_cases same : j = i
    · simp [same, Shared.owned, Shared.enter]
    · simp [same, Shared.owned, Shared.enter]
  | closing j =>
    by_cases same : j = i
    · simp [same, Shared.owned, Shared.enter]
    · simp [same, Shared.owned, Shared.enter]

theorem owned_enter_opening (closes : phase.closes = (s.phases i).closes) :
    (s.enter i phase).owned = Function.update s.owned (.opening i) phase.adds := by
  rw [owned_enter, closes, Function.update_comm (by simp)]
  exact congrArg (Function.update · _ _) (Function.update_eq_self (Owner.closing i) s.owned)

theorem owned_enter_closing (adds : phase.adds = (s.phases i).adds) :
    (s.enter i phase).owned = Function.update s.owned (.closing i) phase.closes := by
  rw [owned_enter, adds]
  exact congrArg (Function.update · _ _) (Function.update_eq_self (Owner.opening i) s.owned)

theorem owned_enter_quiet (adds : phase.adds = (s.phases i).adds)
    (closes : phase.closes = (s.phases i).closes) :
    (s.enter i phase).owned = s.owned := by
  rw [owned_enter_closing adds, closes]
  exact Function.update_eq_self (Owner.closing i) s.owned

theorem owned_fdTable {t : FdTable} (changed : slot t = Function.update (slot s.fdTable) n v) :
    Shared.owned { s with fdTable := t } =
      Function.update s.owned (.entry n) (v.bind File.handle) := by
  funext o
  cases o with
  | entry m =>
    by_cases same : m = n
    · simp [same, Shared.owned, changed]
    · simp [same, Shared.owned, changed]
  | opening j => rfl
  | closing j => rfl

theorem owned_lt (owns : s.owned o = some h) : h < 2 ^ 32 := by
  have file_lt (file : File) (handle : file.handle = some h) : h < 2 ^ 32 := by
    obtain ⟨mode, src⟩ := file
    cases src with
    | fatFS rawFd => exact Option.some.inj handle ▸ rawFd.toNat_lt
    | net socket => nomatch handle
  cases o with
  | entry n =>
    obtain ⟨file, _, handle⟩ := Option.bind_eq_some_iff.mp owns
    exact file_lt file handle
  | opening j =>
    simp only [Shared.owned] at owns
    cases phase : s.phases j <;> simp only [phase, Phase.adds] at owns
    case adding mode rawFd => exact Option.some.inj owns ▸ rawFd.toNat_lt
    all_goals nomatch owns
  | closing j =>
    simp only [Shared.owned] at owns
    cases phase : s.phases j <;> simp only [phase, Phase.closes] at owns
    case closing file => exact file_lt file owns
    all_goals nomatch owns

end Owned

namespace Shared.Locked
variable {s : Shared} {i : Tid}

theorem enter (held : s.Locked) (holder : phase.locks = true → s.holder = some i)
    (entry : ∀ rawFd, phase = .within rawFd → ∃ n, s.owned (.entry n) = some rawFd.toNat) :
    (s.enter i phase).Locked where
  holder j locks := by
    by_cases same : j = i
    · subst same
      exact holder (by simpa [Shared.enter] using locks)
    · exact held.holder j (by simpa [Shared.enter, same] using locks)
  entry j rawFd phase := by
    by_cases same : j = i
    · subst same
      exact entry rawFd (by simpa [Shared.enter] using phase)
    · exact held.entry j rawFd (by simpa [Shared.enter, same] using phase)

theorem enter_outside (held : s.Locked) (outside : phase.locks = false) :
    (s.enter i phase).Locked := by
  refine held.enter (by simp [outside]) ?_
  rintro rawFd rfl
  nomatch outside

theorem of_unlocked (outside : ∀ j, (s.phases j).locks = false) : s.Locked where
  holder j locks := by simp [outside j] at locks
  entry j rawFd phase := by
    have inside := outside j
    rw [phase] at inside
    nomatch inside

/-- While nobody holds `FD_TABLE`, nobody is inside it. -/
theorem outside (held : s.Locked) (free : s.holder = none) (j : Tid) :
    (s.phases j).locks = false := by
  by_contra locks
  have holder := held.holder j (by simpa using locks)
  simp [free] at holder

end Shared.Locked

section Joint
variable {s : Shared} {i : Tid} {b : Build}

theorem joint_opened (held : s.Joint) (idle : s.phases i = .idle)
    (grown : fileList.table = s.fileList.table ++ [some addr])
    (fits : s.fileList.table.length < 2 ^ 32) :
    ({ s with fileList }.enter i (.adding mode (UInt32.ofNat s.fileList.table.length))).Joint := by
  have handle : (UInt32.ofNat s.fileList.table.length).toNat = s.fileList.table.length := by
    rw [UInt32.toNat_ofNat', Nat.mod_eq_of_lt fits]
  have free : s.owned (.opening i) = none := by simp [Shared.owned, idle, Phase.adds]
  have fresh : ¬ s.live s.fileList.table.length := by simp [Shared.live, slot_of_length_le]
  rw [Shared.Joint, owned_enter_opening (by simp [idle, Phase.closes]), Phase.adds, handle]
  refine (held.acquire free fresh).congr_live fun h => ?_
  simp only [Shared.live, Shared.enter, grown, slot_snoc]
  by_cases same : h = s.fileList.table.length
  · simp [same]
  · simp [same]

/-- A handle that does not fit a `u32` is live, and nothing refers to it. -/
theorem not_joint_opened (grown : fileList.table = s.fileList.table ++ [some addr])
    (large : ¬ s.fileList.table.length < 2 ^ 32) : ¬ ({ s with fileList }.enter i phase).Joint := by
  intro held
  have alive : ({ s with fileList }.enter i phase).live s.fileList.table.length := by
    simp [Shared.live, Shared.enter, grown, slot_snoc]
  obtain ⟨o, owns⟩ := (held.live_iff _).mp alive
  exact large (owned_lt owns)

theorem joint_added (held : s.Joint) (adding : s.phases i = .adding mode rawFd) :
    ({ s with fdTable := (s.fdTable.addFile { mode, src := .fatFS rawFd }).2 }.enter i
      .idle).Joint := by
  let file : File := { mode, src := .fatFS rawFd }
  have owns : s.owned (.opening i) = some rawFd.toNat := by simp [Shared.owned, adding, Phase.adds]
  have free : s.owned (.entry (insert file s.fdTable).1) = none := by
    simp [Shared.owned, insert_free]
  have changed := slot_insert file s.fdTable
  rw [Shared.Joint, owned_enter_opening (by simp [adding, Phase.closes]), FdTable.addFile,
    owned_fdTable changed, Function.update_comm (by simp)]
  exact held.move owns free

theorem joint_removed (held : s.Joint) (idle : s.phases i = .idle)
    (changed : slot rest = Function.update (slot s.fdTable) n none) :
    ({ s with fdTable := rest }.enter i (afterRemove (slot s.fdTable n))).Joint := by
  have free : s.owned (.closing i) = none := by simp [Shared.owned, idle, Phase.closes]
  have adds : (afterRemove (slot s.fdTable n)).adds = none := by
    cases slot s.fdTable n <;> rfl
  have closes : (afterRemove (slot s.fdTable n)).closes = s.owned (.entry n) := by
    cases found : slot s.fdTable n <;> simp [afterRemove, Phase.closes, Shared.owned, found]
  rw [Shared.Joint, owned_enter_closing (by rw [adds, idle]; rfl), owned_fdTable changed, closes]
  cases owns : s.owned (.entry n) with
  | none =>
    have entry := (Function.update_eq_self_iff (f := s.owned)).mpr owns.symm
    have closing := (Function.update_eq_self_iff (f := s.owned)).mpr free.symm
    rw [Option.bind_none, entry, closing]
    exact held
  | some h => exact held.move owns free

theorem joint_closed (held : s.Joint)
    (closing : s.phases i = .closing { mode, src := .fatFS rawFd })
    (cleared : slot fileList.table = Function.update (slot s.fileList.table) rawFd.toNat none) :
    ({ s with fileList }.enter i .idle).Joint := by
  have owns : s.owned (.closing i) = some rawFd.toNat := by
    simp [Shared.owned, closing, Phase.closes, File.handle]
  rw [Shared.Joint, owned_enter_closing (by simp [closing, Phase.adds])]
  refine (held.release owns).congr_live fun h => ?_
  simp only [Shared.live, Shared.enter, cleared]
  by_cases same : h = rawFd.toNat
  · simp [same]
  · simp [same]

theorem joint_fileList (held : s.Joint) (same : fileList.table = s.fileList.table) :
    Shared.Joint { s with fileList } :=
  held.congr_live fun h => by simp [Shared.live, same]

theorem joint_quiet (held : s.Joint) (adds : phase.adds = (s.phases i).adds)
    (closes : phase.closes = (s.phases i).closes) : (s.enter i phase).Joint := by
  rw [Shared.Joint, owned_enter_quiet adds closes]
  exact held

end Joint

section Steps
variable {s t : Shared} {b : Build}

/-- Before its second section, a thread finds the handle it works on alive. -/
theorem sound_answers (held : s.Sound) (i : Tid) : s.Answers i := by
  have found {o : Owner} {rawFd : Fd} (owns : s.owned o = some rawFd.toNat) :
      ∃ addr, slot s.fileList.table rawFd.toNat = some addr :=
    Option.ne_none_iff_exists'.mp ((held.joint.live_iff _).mpr ⟨o, owns⟩)
  unfold Shared.Answers
  split
  · rename_i mode rawFd phase
    have owns : s.owned (.closing i) = some rawFd.toNat := by
      simp [Shared.owned, phase, Phase.closes, File.handle]
    obtain ⟨addr, alive⟩ := found owns
    obtain ⟨_, boxed, _, closed⟩ := held.files.answers alive
    exact ⟨by simp [closed], held.files.boxed _⟩
  · rename_i rawFd phase
    obtain ⟨n, owns⟩ := held.locked.entry i rawFd phase
    obtain ⟨addr, alive⟩ := found owns
    obtain ⟨_, boxed, access, _⟩ := held.files.answers alive
    rw [access]
    refine ⟨nofun, ?_⟩
    rintro _ ⟨⟩
    exact boxed
  · trivial

theorem sound_fatfsOpen (held : s.Sound) (idle : s.phases i = .idle)
    (fresh : ∀ addr, fs.createFile = some addr ∨ fs.openFile = some addr → addr ∉ s.fileList.boxes)
    (fits : (∃ rawFd, (fatfsOpen flags fs s.fileList).1 = some (.ok rawFd)) →
      s.fileList.table.length < 2 ^ 32) :
    ({ s with fileList := (fatfsOpen flags fs s.fileList).2 }.enter i
      (afterOpen mode (fatfsOpen flags fs s.fileList).1)).Sound := by
  have locked : Shared.Locked { s with fileList := (fatfsOpen flags fs s.fileList).2 } :=
    ⟨held.locked.holder, held.locked.entry⟩
  rcases fatfsOpen_cases flags fs s.fileList with failed | ⟨addr, source, opened⟩
  · have phase : afterOpen mode (fatfsOpen flags fs s.fileList).1 = .idle := by
      unfold afterOpen
      split
      · rename_i rawFd result
        exact absurd result (failed.result rawFd)
      · rfl
    rw [phase]
    refine ⟨?_, held.files.fatfsOpen fresh, locked.enter_outside rfl⟩
    exact joint_quiet (joint_fileList held.joint failed.table) (by rw [idle]) (by rw [idle])
  · have grown : (fatfsOpen flags fs s.fileList).2.table = s.fileList.table ++ [some addr] := by
      rw [opened]
    have result : (fatfsOpen flags fs s.fileList).1 =
        some (.ok (UInt32.ofNat s.fileList.table.length)) := by
      rw [opened]
    rw [result]
    refine ⟨?_, held.files.fatfsOpen fresh, locked.enter_outside rfl⟩
    exact joint_opened held.joint idle grown (fits ⟨_, result⟩)

theorem sound_addFile (held : s.Sound) (adding : s.phases i = .adding mode rawFd)
    (free : s.holder = none) :
    ({ s with fdTable := (s.fdTable.addFile { mode, src := .fatFS rawFd }).2 }.enter i
      .idle).Sound := by
  have locked : Shared.Locked
      { s with fdTable := (s.fdTable.addFile { mode, src := .fatFS rawFd }).2 } :=
    .of_unlocked (held.locked.outside free)
  exact ⟨joint_added held.joint adding, held.files, locked.enter_outside rfl⟩

theorem sound_removeFile (held : s.Sound) (idle : s.phases i = .idle) (free : s.holder = none)
    (valid : 2 < fd.toNat) (removed : s.fdTable.removeFile b fd = some (found, rest)) :
    ({ s with fdTable := rest }.enter i (afterRemove found)).Sound := by
  obtain ⟨rest', removed', changed⟩ :=
    removeFile_slot (b := b) (t := s.fdTable) (Nat.not_le_of_lt valid)
  obtain ⟨rfl, rfl⟩ := Prod.mk.inj (Option.some.inj (removed.symm.trans removed'))
  refine ⟨joint_removed held.joint idle changed, held.files, ?_⟩
  have locked : Shared.Locked { s with fdTable := rest } := .of_unlocked (held.locked.outside free)
  apply locked.enter_outside
  cases slot s.fdTable (fd.toNat - 3) <;> rfl

theorem sound_fatfsClose (held : s.Sound)
    (closing : s.phases i = .closing { mode, src := .fatFS rawFd }) :
    ({ s with fileList := (fatfsClose rawFd s.fileList).2 }.enter i .idle).Sound := by
  have owns : s.owned (.closing i) = some rawFd.toNat := by
    simp [Shared.owned, closing, Phase.closes, File.handle]
  have alive : s.live rawFd.toNat := (held.joint.live_iff _).mpr ⟨_, owns⟩
  obtain ⟨addr, found⟩ := Option.ne_none_iff_exists'.mp alive
  obtain ⟨_, _, _, closed⟩ := held.files.answers found
  have locked : Shared.Locked { s with fileList := (fatfsClose rawFd s.fileList).2 } :=
    ⟨held.locked.holder, held.locked.entry⟩
  refine ⟨joint_closed held.joint closing ?_, held.files.fatfsClose, locked.enter_outside rfl⟩
  rw [closed]
  exact slot_set (lt_length_of_slot alive) none

theorem sound_withFile (held : s.Sound) (idle : s.phases i = .idle) (free : s.holder = none)
    (valid : 2 < fd.toNat)
    (found : s.fdTable.withFile b fd (fun file _ => file) =
      some (some { mode, src := .fatFS rawFd })) :
    ({ s with holder := some i }.enter i (.within rawFd)).Sound := by
  have low := Nat.not_le_of_lt valid
  rw [withFile_eq low, files_eq low] at found
  have locked : Shared.Locked { s with holder := some i } := .of_unlocked (held.locked.outside free)
  refine ⟨joint_quiet held.joint (by rw [idle]; rfl) (by rw [idle]; rfl), held.files,
    locked.enter (fun _ => rfl) ?_⟩
  rintro rawFd ⟨⟩
  refine ⟨fd.toNat - 3, ?_⟩
  have entry : slot s.fdTable (fd.toNat - 3) = some { mode, src := .fatFS rawFd } :=
    Option.some.inj found
  simp [Shared.owned, entry, File.handle]

theorem sound_unlock (held : s.Sound) (leaving : s.phases i = .leaving) :
    ({ s with holder := none }.enter i .idle).Sound := by
  have holder : s.holder = some i := held.locked.holder i (by rw [leaving]; rfl)
  refine ⟨joint_quiet held.joint (by rw [leaving]; rfl) (by rw [leaving]; rfl), held.files,
    .of_unlocked fun j => ?_⟩
  by_cases same : j = i
  · rw [same, Shared.enter_self]
    rfl
  · by_contra locks
    have other := held.locked.holder j (by simpa [Shared.enter, same] using locks)
    exact same (Option.some.inj (other.symm.trans holder))

theorem handle_step (held : s.Sound) (stepped : HandleStep b s e t) (fits : HandleFits s e t) :
    t.Sound := by
  cases stepped with
  | fatfsOpen idle fresh => exact sound_fatfsOpen held idle fresh (fits _ _ _ _ rfl)
  | addFile adding free => exact sound_addFile held adding free
  | removeFile idle free valid removed => exact sound_removeFile held idle free valid removed
  | fatfsClose closing => exact sound_fatfsClose held closing
  | closeNet closing =>
    exact ⟨joint_quiet held.joint (by rw [closing]; rfl) (by rw [closing]; rfl), held.files,
      held.locked.enter_outside rfl⟩
  | withFile idle free valid found _ => exact sound_withFile held idle free valid found
  | fatfsAccess inside =>
    have holder := held.locked.holder _ (by rw [inside]; rfl)
    exact ⟨joint_quiet held.joint (by rw [inside]; rfl) (by rw [inside]; rfl), held.files,
      held.locked.enter (fun _ => holder) nofun⟩
  | unlock leaving => exact sound_unlock held leaving

theorem handle_check_iff (held : s.Sound) (stepped : HandleStep b s e t) :
    HandleCheck s e t ↔ HandleFits s e t := by
  constructor
  · rintro ⟨joint, _⟩ i flags mode fs rfl ⟨rawFd, opened⟩
    by_contra large
    cases stepped with
    | fatfsOpen idle fresh =>
      rcases fatfsOpen_cases flags fs s.fileList with failed | ⟨addr, _, result⟩
      · exact failed.result rawFd opened
      · exact not_joint_opened (by rw [result]) large joint
  · intro fits
    exact ⟨(handle_step held stepped fits).joint, fun i _ => sound_answers held i⟩

end Steps

/-- In a run from empty tables, the live handles are exactly the ones referred to after every
step, and no `close` finds its handle gone, if and only if every new handle fits a `u32`. -/
theorem handles_joint_iff (b : Build) (es : List HandleEvent) (t : Shared) :
    Run (Where (HandleStep b) HandleCheck) {} es t ↔
      Run (Where (HandleStep b) HandleFits) {} es t :=
  Run.where_iff (P := Shared.Sound) handle_step handle_check_iff shared_sound_initial

/-- The tables after `n` files were opened and closed by one thread. -/
structure Worn (n : Nat) (s : Shared) : Prop where
  grown : s.fileList.table.length = n
  unboxed : s.fileList.boxes = []
  unlocked : s.fileList.poisoned = false
  free : s.holder = none
  idle : s.phases 0 = .idle
  closed : slot s.fdTable 0 = none

def mountedFile : Opening := ⟨true, none, some 4096⟩

theorem worn_open (worn : Worn n s) :
    fatfsOpen 0 mountedFile s.fileList =
    (some (.ok (UInt32.ofNat n)),
      { table := s.fileList.table ++ [some 4096], poisoned := false, mounted := true,
        boxes := [4096] }) := by
  simp [fatfsOpen, mountedFile, worn.unlocked, O_CREAT, FileList.addFile, worn.grown, worn.unboxed]

theorem worn_opens (worn : Worn n s) : HandleStep debug s (.fatfsOpen 0 0 1 mountedFile)
    ({ s with fileList := (fatfsOpen 0 mountedFile s.fileList).2 }.enter 0
      (afterOpen 1 (fatfsOpen 0 mountedFile s.fileList).1)) :=
  .fatfsOpen worn.idle (by simp [worn.unboxed])

theorem worn_insert (worn : Worn n s) (file : File) : (insert file s.fdTable).1 = 0 :=
  Nat.le_zero.mp ((insert_least file s.fdTable).2 worn.closed)

theorem worn_next (worn : Worn n s) (small : n < 2 ^ 32) :
    ∃ es t, Run (HandleStep debug) s es t ∧ Worn (n + 1) t := by
  let file : File := { mode := 1, src := .fatFS (UInt32.ofNat n) }
  let opened : Shared := { s with fileList := (fatfsOpen 0 mountedFile s.fileList).2 }.enter 0
    (afterOpen 1 (fatfsOpen 0 mountedFile s.fileList).1)
  have adding : opened.phases 0 = .adding 1 (UInt32.ofNat n) := by
    simp [opened, Shared.enter, worn_open worn, afterOpen]
  let added : Shared := { opened with fdTable := (s.fdTable.addFile file).2 }.enter 0 .idle
  have entry : slot added.fdTable 0 = some file := by
    simp [added, Shared.enter, FdTable.addFile, slot_insert, worn_insert worn]
  obtain ⟨rest, removed, emptied⟩ : ∃ rest : FdTable,
      added.fdTable.removeFile debug 3 = some (some file, rest) ∧
      slot rest = Function.update (slot added.fdTable) 0 none :=
    entry ▸ removeFile_slot (b := debug) (t := added.fdTable) (by decide)
  let taken : Shared := { added with fdTable := rest }.enter 0 (.closing file)
  let closed : Shared :=
    { taken with fileList := (fatfsClose (UInt32.ofNat n) opened.fileList).2 }.enter 0 .idle
  have index : (UInt32.ofNat n).toNat = n := by rw [UInt32.toNat_ofNat', Nat.mod_eq_of_lt small]
  have cleared : (fatfsClose (UInt32.ofNat n) opened.fileList).2 =
      { table := (s.fileList.table ++ [some 4096]).set n none, poisoned := false, mounted := true,
        boxes := [] } := by
    simp [fatfsClose, opened, Shared.enter, worn_open worn, FileList.removeFile, index, slot_snoc,
      worn.grown]
  refine ⟨_, closed, .cons (worn_opens worn) (.cons (.addFile adding worn.free)
    (.cons (.removeFile rfl worn.free (by decide) removed) (.cons (.fatfsClose rfl) (.nil _)))), ?_⟩
  constructor
  · simp [closed, Shared.enter, cleared, worn.grown]
  · simp [closed, Shared.enter, cleared]
  · simp [closed, Shared.enter, cleared]
  · exact worn.free
  · rfl
  · simp [closed, taken, Shared.enter, emptied]

theorem worn_reachable (small : n ≤ 2 ^ 32) :
    ∃ es t, Run (HandleStep debug) {} es t ∧ Worn n t := by
  induction n with
  | zero => exact ⟨[], {}, .nil _, rfl, rfl, rfl, rfl, rfl, rfl⟩
  | succ n ih =>
    obtain ⟨es, s, run, worn⟩ := ih (by omega)
    obtain ⟨fs, t, more, worn⟩ := worn_next worn small
    exact ⟨es ++ fs, t, run.append more, worn⟩

/-- After `2^32` files were opened and closed, the next handle wraps around to 0. -/
theorem handles_wrap : ¬ ∀ b es t, Run (HandleStep b) {} es t → t.Joint := by
  intro all
  obtain ⟨es, s, run, worn⟩ := worn_reachable le_rfl
  have joint := all debug _ _ (run.snoc (worn_opens worn))
  have grown : (fatfsOpen 0 mountedFile s.fileList).2.table = s.fileList.table ++ [some 4096] := by
    rw [worn_open worn]
  have large : ¬ s.fileList.table.length < 2 ^ 32 := by
    rw [worn.grown]
    exact lt_irrefl _
  exact not_joint_opened grown large joint

end AlloyStack.Fdtab
