import AlloyStack.Fdtab.Apis

/-! The fatfs service: the table of boxed files behind the mutex `FTABLE`. Handles are indices
of a table that only grows. -/
namespace AlloyStack.Fatfs
open AlloyStack.Fdtab SlotTable

/-- `FatfsFileList` with the poison flag of its mutex, whether the image is mounted
(`FS_REF_ADDR`), and, as history, the addresses of the boxed files that are alive. -/
structure FileList where
  table : List (Option Nat) := []
  poisoned : Bool := false
  mounted : Bool := false
  boxes : List Nat := []

def poisonError : FatfsError := .acquireLockErr "poisoned lock: another task failed inside"

/-- What the file system does in `fatfs_open`: whether the image can be mounted, which is asked
only once, and the address of the boxed file if `create_file` or `open_file` succeeds. -/
structure Opening where
  mountable : Bool
  createFile : Option Nat
  openFile : Option Nat
  deriving DecidableEq, Repr

def O_CREAT : UInt32 := 2

/-- `FatfsFileList::add_file`. -/
def FileList.addFile (l : FileList) (addr : Nat) : Nat × FileList :=
  (l.table.length, { l with table := l.table ++ [some addr], boxes := addr :: l.boxes })

/-- `FatfsFileList::remove_file`, which drops the box. -/
def FileList.removeFile (l : FileList) (handle : Nat) : Except FatfsError Unit × FileList :=
  match slot l.table handle with
  | some addr => (.ok (), { l with table := l.table.set handle none, boxes := l.boxes.erase addr })
  | none => (.error (.badInputFd (UInt32.ofNat handle)), l)

/-- `fatfs_open`; `none` is the panic of `get_fs_ref`, which poisons the mutex. The index of the
new entry is truncated to a `u32`. -/
def fatfsOpen (flags : UInt32) (fs : Opening) (l : FileList) :
    Option (Except FatfsError Fd) × FileList :=
  if l.poisoned then (some (.error poisonError), l)
  else if !l.mounted && !fs.mountable then (none, { l with poisoned := true })
  else match if flags &&& O_CREAT == O_CREAT then fs.createFile else fs.openFile with
    | none => (some (.error .unknown), { l with mounted := true })
    | some addr =>
      let added := { l with mounted := true }.addFile addr
      (some (.ok (UInt32.ofNat added.1)), added.2)

/-- What `fatfs_read`, `fatfs_write`, `fatfs_seek` and `fatfs_stat` do before they use the file:
the address that they dereference. -/
def fatfsAccess (fd : Fd) (l : FileList) : Except FatfsError Nat :=
  if l.poisoned then .error poisonError
  else match slot l.table fd.toNat with
    | some addr => .ok addr
    | none => .error (.badInputFd fd)

def fatfsClose (fd : Fd) (l : FileList) : Except FatfsError Unit × FileList :=
  if l.poisoned then (.error poisonError, l) else l.removeFile fd.toNat

/-- The two ways a call of `fatfs_open` goes. -/
structure OpenFails (l : FileList) (r : Option (Except FatfsError Fd) × FileList) : Prop where
  result : ∀ rawFd, r.1 ≠ some (.ok rawFd)
  table : r.2.table = l.table
  boxes : r.2.boxes = l.boxes
  poisoned : r.2.poisoned = true → l.poisoned = true ∨ l.mounted = false
  mounted : r.2.mounted = false → l.mounted = false

theorem fatfsOpen_cases (flags : UInt32) (fs : Opening) (l : FileList) :
    OpenFails l (fatfsOpen flags fs l) ∨
      ∃ addr, (fs.createFile = some addr ∨ fs.openFile = some addr) ∧
        fatfsOpen flags fs l = (some (.ok (UInt32.ofNat l.table.length)),
          { table := l.table ++ [some addr], poisoned := false, mounted := true,
            boxes := addr :: l.boxes }) := by
  unfold fatfsOpen
  cases locked : l.poisoned with
  | true => exact .inl ⟨nofun, rfl, rfl, fun _ => .inl locked, id⟩
  | false =>
    simp only [Bool.false_eq_true, if_false]
    split
    · rename_i unmounted
      refine .inl ⟨nofun, rfl, rfl, fun _ => .inr ?_, id⟩
      simp only [Bool.and_eq_true, Bool.not_eq_true'] at unmounted
      exact unmounted.1
    · split
      · exact .inl ⟨nofun, rfl, rfl, by simp [locked], nofun⟩
      · rename_i addr boxed
        refine .inr ⟨addr, ?_, rfl⟩
        split at boxed
        · exact .inl boxed
        · exact .inr boxed

/-- Every entry of the table is a box of its own, and the mutex is poisoned only before the
first file is opened. -/
structure FileList.Sound (l : FileList) : Prop where
  boxed : ∀ h addr, slot l.table h = some addr → addr ∈ l.boxes
  distinct : ∀ h h' addr, slot l.table h = some addr → slot l.table h' = some addr → h = h'
  poisoned : l.poisoned = true → l.table = []
  mounted : l.mounted = false → l.table = []

namespace FileList.Sound
variable {l : FileList}

theorem initial : FileList.Sound {} where
  boxed := nofun
  distinct := nofun
  poisoned := nofun
  mounted _ := rfl

theorem fatfsOpen (held : l.Sound)
    (fresh : ∀ addr, fs.createFile = some addr ∨ fs.openFile = some addr → addr ∉ l.boxes) :
    (fatfsOpen flags fs l).2.Sound := by
  rcases fatfsOpen_cases flags fs l with failed | ⟨addr, source, opened⟩
  · constructor
    · rw [failed.table, failed.boxes]
      exact held.boxed
    · rw [failed.table]
      exact held.distinct
    · rw [failed.table]
      intro poisoned
      rcases failed.poisoned poisoned with old | unmounted
      · exact held.poisoned old
      · exact held.mounted unmounted
    · rw [failed.table]
      exact fun unmounted => held.mounted (failed.mounted unmounted)
  · rw [opened]
    have new (h : Nat) (other : h ≠ l.table.length) : slot (l.table ++ [some addr]) h =
        slot l.table h := by
      rw [slot_snoc, Function.update_of_ne other]
    have last : slot (l.table ++ [some addr]) l.table.length = some addr := by
      rw [slot_snoc, Function.update_self]
    have unused (h : Nat) : slot l.table h ≠ some addr :=
      fun found => fresh addr source (held.boxed h addr found)
    refine ⟨fun h a found => ?_, fun h h' a first second => ?_, nofun, nofun⟩
    · by_cases same : h = l.table.length
      · subst same
        exact List.mem_cons.mpr (.inl (Option.some.inj (found.symm.trans last)))
      · exact List.mem_cons_of_mem _ (held.boxed h a (new h same ▸ found))
    · by_cases same : h = l.table.length <;> by_cases same' : h' = l.table.length
      · exact same.trans same'.symm
      · subst same
        obtain rfl := Option.some.inj (first.symm.trans last)
        exact absurd (new h' same' ▸ second) (unused h')
      · subst same'
        obtain rfl := Option.some.inj (second.symm.trans last)
        exact absurd (new h same ▸ first) (unused h)
      · exact held.distinct h h' a (new h same ▸ first) (new h' same' ▸ second)

theorem fatfsClose (held : l.Sound) : (fatfsClose fd l).2.Sound := by
  unfold AlloyStack.Fatfs.fatfsClose
  split
  · exact held
  · unfold FileList.removeFile
    cases found : slot l.table fd.toNat with
    | none => exact held
    | some addr =>
      have inside := lt_length_of_slot (found ▸ Option.some_ne_none addr)
      have kept {h a : Nat} (still : slot (l.table.set fd.toNat none) h = some a) :
          slot l.table h = some a ∧ h ≠ fd.toNat := by
        rw [slot_set inside] at still
        by_cases same : h = fd.toNat
        · simp [same] at still
        · exact ⟨by rwa [Function.update_of_ne same] at still, same⟩
      refine ⟨fun h a still => ?_, fun h h' a first second => ?_, fun poisoned => ?_,
        fun unmounted => ?_⟩
      · obtain ⟨old, other⟩ := kept still
        have apart : a ≠ addr := by
          rintro rfl
          exact other (held.distinct h fd.toNat a old found)
        exact (List.mem_erase_of_ne apart).mpr (held.boxed h a old)
      · exact held.distinct h h' a (kept first).1 (kept second).1
      · simp [held.poisoned poisoned] at inside
      · simp [held.mounted unmounted] at inside

/-- A live handle can be used and closed. -/
theorem answers (held : l.Sound) (alive : slot l.table fd.toNat = some addr) :
    l.poisoned = false ∧ addr ∈ l.boxes ∧ fatfsAccess fd l = .ok addr ∧
      AlloyStack.Fatfs.fatfsClose fd l =
        (.ok (), { l with table := l.table.set fd.toNat none, boxes := l.boxes.erase addr }) := by
  have inside := lt_length_of_slot (alive ▸ Option.some_ne_none addr)
  have unlocked : l.poisoned = false := by
    by_contra locked
    simp [held.poisoned (by simpa using locked)] at inside
  refine ⟨unlocked, held.boxed _ _ alive, ?_, ?_⟩
  · simp only [fatfsAccess, unlocked, Bool.false_eq_true, if_false, alive]
  · simp only [AlloyStack.Fatfs.fatfsClose, unlocked, Bool.false_eq_true, if_false,
      FileList.removeFile, alive]

end FileList.Sound

end AlloyStack.Fatfs
