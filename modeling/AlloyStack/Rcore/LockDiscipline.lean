import Mathlib.Data.List.Basic
import AlloyStack.Rcore.Apis

/-! Which calls of the exported functions of `rcore_sfsfdtab` and `rcorefdtab` take a lock that
their thread holds already. -/
namespace AlloyStack.Rcore
open Rust LockProgram AlloyStack.Fdtab

/-- The calls of the exported functions. -/
inductive Op (Stat : Type) where
  | openFile (path : String) (flags mode : UInt32)
  | read (fd : Fd) (len : Size)
  | write (fd : Fd) (buf : List UInt8)
  | close (fd : Fd)
  | lseek (fd : Fd) (pos : UInt32)
  | stat (fd : Fd)
  | readdir (path : String)
  | create (parentFd : Nat) (name : String) (type : FileType) (mode : UInt32)
  | link (parentFd : Nat) (name : String) (targetFd : Nat)
  | unlink (parentFd : Nat) (name : String)
  | rename (oldFd newParentFd : Nat) (newName : String)
  | setMetadata (fd : Nat) (described : Metadata Stat)
  | flush (fd : Nat)
  | sync (fd : Nat)
  | poll (fd : Nat)
  | setNonblocking (fd : Nat) (nonblocking : Bool)

section
variable {I W E Stat Poll : Type}

def ignore (program : Api I W α) : Api I W Unit := do
  let _ ← program
  pure ()

def Op.exec (v : Setup I W E Stat Poll) : Op Stat → Api I W Unit
  | .openFile path flags mode => ignore (Rcore.openFile v path flags mode)
  | .read fd len => ignore (Rcore.read v fd len)
  | .write fd buf => ignore (Rcore.write v fd buf)
  | .close fd => ignore (Rcore.close v fd)
  | .lseek fd pos => ignore (Rcore.lseek v fd pos)
  | .stat fd => ignore (Rcore.stat v fd)
  | .readdir path => ignore (Rcore.readdir v path)
  | .create parentFd name type mode => ignore (Rcore.create v parentFd name type mode)
  | .link parentFd name targetFd => ignore (Rcore.link v parentFd name targetFd)
  | .unlink parentFd name => ignore (Rcore.unlink v parentFd name)
  | .rename oldFd newParentFd newName => ignore (Rcore.rename v oldFd newParentFd newName)
  | .setMetadata fd described => ignore (Rcore.setMetadata v fd described)
  | .flush fd => ignore (Rcore.flush v fd)
  | .sync fd => ignore (Rcore.sync v fd)
  | .poll fd => ignore (Rcore.poll v fd)
  | .setNonblocking fd nonblocking => ignore (Rcore.setNonblocking fd nonblocking)

/-- The locks held where the body of an exported function begins. -/
def Outer (held : List Lock) : Prop := held = [] ∨ held = [.globalLock]

variable {v : Setup I W E Stat Poll} {held : List Lock} {l : Lock}

theorem Outer.absent (outer : Outer held) (other : l ≠ .globalLock) : l ∉ held := by
  rcases outer with rfl | rfl
  · simp
  · simpa using other

theorem Outer.inside (outer : Outer held) (other : l ≠ .globalLock) (table : l ≠ .fdTable) :
    l ∉ Lock.fdTable :: held := by
  intro member
  rcases List.mem_cons.mp member with same | member
  · exact table same
  · exact outer.absent other member

section Helpers

theorem ignore_free {program : Api I W α} (free : Free held program) : Free held (ignore program) :=
  Free.bind free fun _ => Free.pure ()

theorem access_free (device : .device ∉ held) :
    Free held (withLock .device (pure ()) : Api I W Unit) :=
  Free.withLock device (Free.pure ())

theorem call_free (device : .device ∉ held) (method : Method W α) :
    Free held (call method : Api I W α) := by
  refine Free.bind Free.state fun s => ?_
  refine Free.bind (Free.times (access_free device) _) fun _ => ?_
  exact Free.bind (Free.put _) fun _ => Free.pure _

theorem insertFd_free (fd : Fd) (file : FileWrapper I) :
    Free held (insertFd fd file : Api I W Unit) :=
  Free.bind Free.state fun _ => Free.put _

theorem standardStream_free (table : .fdTable ∉ held) (device : .device ∉ held) (root : I)
    (fd : Fd) (path : String) (readable writable : Bool) :
    Free held (standardStream v root fd path readable writable) := by
  refine Free.bind (call_free device _) fun inode => ?_
  exact Free.withLock table (insertFd_free _ _)

theorem init_free (table : .fdTable ∉ held) (device : .device ∉ held) : Free held (init v) := by
  have stream := fun root fd path readable writable =>
    standardStream_free (v := v) table device root fd path readable writable
  refine Free.bind (call_free device _) fun root => ?_
  refine Free.bind Free.state fun s => ?_
  refine Free.bind (Free.put _) fun _ => ?_
  split
  · refine Free.bind (stream _ _ _ _ _) fun _ => ?_
    exact Free.bind (stream _ _ _ _ _) fun _ => stream _ _ _ _ _
  · exact Free.pure _

theorem ensureInit_free : Free [] (ensureInit v) := by
  refine Free.bind Free.state fun s => ?_
  split
  · exact Free.pure _
  · refine Free.withLock (by simp) ?_
    refine Free.bind (init_free (by simp) (by simp)) fun _ => ?_
    exact Free.bind Free.state fun _ => Free.put _

theorem exported_free {body : Api I W α} (free : ∀ held, Outer held → Free held body) :
    Free [] (exported v body) := by
  refine Free.bind ensureInit_free fun _ => ?_
  split
  · exact Free.withLock (by simp) (free _ (.inr rfl))
  · exact free _ (.inl rfl)

theorem allocFd_free (outer : Outer held) (inode : I) (readable writable : Bool) :
    Free held (allocFd v inode readable writable) := by
  refine Free.withLock (outer.absent (by decide))
    (Free.withLock (outer.inside (by decide) (by decide)) ?_)
  refine Free.bind Free.state fun s => ?_
  split
  · exact Free.fail
  · exact Free.bind (Free.put _) fun _ => Free.pure _

theorem onTable_free (outer : Outer held) {body : FileWrapper I → Api I W α} (fd : Fd) (missing : α)
    (free : ∀ file, Free (.fdTable :: held) (body file)) : Free held (onTable fd missing body) := by
  refine Free.withLock (outer.absent (by decide)) (Free.bind Free.state fun s => ?_)
  split
  · exact Free.pure _
  · exact free _

/-- A method is called under the guard of the table. -/
theorem tableCall_free (outer : Outer held) (method : Method W α) :
    Free (.fdTable :: held) (call method : Api I W α) :=
  call_free (outer.inside (by decide) (by decide)) method

theorem outerCall_free (outer : Outer held) (method : Method W α) :
    Free held (call method : Api I W α) :=
  call_free (outer.absent (by decide)) method

theorem succeeds_free (outer : Outer held) (method : Method W (Except E α)) :
    Free (.fdTable :: held) (succeeds method : Api I W Bool) := by
  refine Free.bind (tableCall_free outer method) fun answer => ?_
  cases answer with
  | error => exact Free.pure _
  | ok => exact Free.pure _

end Helpers

section Operations

theorem openFile_free (path : String) (flags mode : UInt32) :
    Free [] (openFile v path flags mode) := by
  refine exported_free fun held outer => Free.bind Free.state fun s => ?_
  cases s.globalFs with
  | none => exact Free.pure _
  | some root =>
    refine Free.bind (outerCall_free outer _) fun answer => ?_
    cases answer with
    | ok inode =>
      refine Free.bind (outerCall_free outer _) fun _ => ?_
      exact Free.bind (allocFd_free outer _ _ _) fun _ => Free.pure _
    | error e =>
      dsimp only
      unfold openMissing
      split
      · split
        · refine Free.bind (outerCall_free outer _) fun answer => ?_
          cases answer with
          | error => exact Free.pure _
          | ok => exact Free.bind (allocFd_free outer _ _ _) fun _ => Free.pure _
        · exact Free.pure _
      · exact Free.pure _

theorem read_free (fd : Fd) (len : Size) : Free [] (read v fd len) := by
  refine exported_free fun held outer => onTable_free outer _ _ fun file => ?_
  have inner : Free (.fdTable :: held) (file.read v len) := by
    unfold FileWrapper.read
    split
    · exact Free.pure _
    · refine Free.bind (tableCall_free outer _) fun answer => ?_
      cases answer with
      | error => exact Free.pure _
      | ok => exact Free.pure _
  refine Free.bind inner fun pair => ?_
  exact Free.bind (insertFd_free _ _) fun _ => Free.pure _

theorem write_free (fd : Fd) (buf : List UInt8) : Free [] (write v fd buf) := by
  refine exported_free fun held outer => ?_
  split
  · exact Free.pure _
  · refine onTable_free outer _ _ fun file => ?_
    have inner : Free (.fdTable :: held) (file.write v buf) := by
      unfold FileWrapper.write
      split
      · exact Free.pure _
      · refine Free.bind (tableCall_free outer _) fun answer => ?_
        cases answer with
        | error => exact Free.pure _
        | ok => exact Free.pure _
    refine Free.bind inner fun pair => ?_
    exact Free.bind (insertFd_free _ _) fun _ => Free.pure _

theorem close_free (fd : Fd) : Free [] (close v fd) := by
  refine exported_free fun held outer => ?_
  refine Free.bind (Free.withLock (outer.absent (by decide)) ?_) fun _ => Free.pure _
  exact Free.bind Free.state fun _ => Free.put _

theorem lseek_free (fd : Fd) (pos : UInt32) : Free [] (lseek v fd pos) := by
  refine exported_free fun held outer => onTable_free outer _ _ fun file => ?_
  exact Free.bind (insertFd_free _ _) fun _ => Free.pure _

theorem stat_free (fd : Fd) : Free [] (stat v fd) := by
  refine exported_free fun held outer => ?_
  refine Free.bind (Free.withLock (outer.absent (by decide))
    (Free.bind Free.state fun _ => Free.pure _)) fun found => ?_
  cases found with
  | none => exact Free.pure _
  | some file =>
    refine Free.bind (outerCall_free outer _) fun answer => ?_
    cases answer with
    | error => exact Free.pure _
    | ok => exact Free.pure _

/-- By induction on the names: the loop of `readdir` holds nothing. -/
theorem entries_free (outer : Outer held) (dir : I) (path : String) (names : List String) :
    Free held (entries v dir path names) := by
  induction names with
  | nil => exact Free.pure _
  | cons name rest ih =>
    refine Free.bind (outerCall_free outer _) fun child => ?_
    cases child with
    | error => exact ih
    | ok child =>
      refine Free.bind (outerCall_free outer _) fun answer => ?_
      cases answer with
      | error => exact ih
      | ok => exact Free.bind ih fun _ => Free.pure _

theorem readdir_free (path : String) : Free [] (readdir v path) := by
  refine exported_free fun held outer => Free.bind Free.state fun s => ?_
  cases s.globalFs with
  | none => exact Free.pure _
  | some root =>
    refine Free.bind (outerCall_free outer _) fun answer => ?_
    cases answer with
    | error => exact Free.pure _
    | ok dir =>
      refine Free.bind (outerCall_free outer _) fun answer => ?_
      cases answer with
      | error => exact Free.pure _
      | ok names => exact Free.bind (entries_free outer dir path names) fun _ => Free.pure _

theorem link_free (parentFd : Nat) (name : String) (targetFd : Nat) :
    Free [] (link v parentFd name targetFd) := by
  refine exported_free fun held outer => onTable_free outer _ _ fun parent => ?_
  refine Free.bind Free.state fun s => ?_
  split
  · exact Free.pure _
  · exact succeeds_free outer _

theorem rename_free (oldFd newParentFd : Nat) (newName : String) :
    Free [] (rename v oldFd newParentFd newName) := by
  refine exported_free fun held outer => onTable_free outer _ _ fun old => ?_
  refine Free.bind Free.state fun s => ?_
  split
  · exact Free.pure _
  · refine Free.bind (tableCall_free outer _) fun answer => ?_
    cases answer with
    | error => exact Free.pure _
    | ok => exact succeeds_free outer _

theorem poll_free (fd : Nat) : Free [] (poll v fd) := by
  refine exported_free fun held outer => onTable_free outer _ _ fun file => ?_
  refine Free.bind (tableCall_free outer _) fun answer => ?_
  cases answer with
  | error => exact Free.pure _
  | ok => exact Free.pure _

/-- The functions that call one method on the node of a descriptor. -/
theorem onNode_free (fd : Fd) (method : FileWrapper I → Method W (Except E Unit)) :
    Free [] (exported v (onTable fd false fun file => succeeds (method file))) :=
  exported_free fun _ outer => onTable_free outer _ _ fun _ => succeeds_free outer _

end Operations

section Create

def outerHeld (v : Setup I W E Stat Poll) : List Lock := if v.lockFeature then [.globalLock] else []

theorem outerHeld_outer (v : Setup I W E Stat Poll) : Outer (outerHeld v) := by
  unfold outerHeld
  split
  · exact .inr rfl
  · exact .inl rfl

theorem ignore_deadlock_iff {program : Api I W α} (s : Service I W) :
    ignore program held s = .deadlock ↔ program held s = .deadlock := by
  unfold ignore
  rw [bind_eq]
  cases program held s with
  | done value after => simp [pure, Prog.pure]
  | panic => simp
  | deadlock => simp

/-- An exported function runs its body after the initialisation, under the global lock if there is
one. -/
theorem exported_eq (ran : ensureInit v [] s = .done () ready) (body : Api I W α) :
    exported v body [] s = body (outerHeld v) ready := by
  unfold exported outerHeld
  rw [bind_eq, ran]
  dsimp only
  split
  · exact withLock_eq (by simp) body ready
  · rfl

theorem exported_deadlock_iff {body : Api I W α} (s : Service I W) :
    exported v body [] s = .deadlock ↔
    ∃ ready, ensureInit v [] s = .done () ready ∧ body (outerHeld v) ready = .deadlock := by
  have began := ensureInit_free (v := v) s
  cases first : ensureInit v [] s with
  | done value ready =>
    rw [exported_eq first]
    constructor
    · exact fun stuck => ⟨ready, rfl, stuck⟩
    · rintro ⟨other, same, stuck⟩
      cases same
      exact stuck
  | panic => simp [exported, bind_eq, first]
  | deadlock => exact absurd first began

theorem times_access (device : .device ∉ held) (n : Nat) (s : Service I W) :
    times n (withLock .device (pure ())) held s = .done () s := by
  induction n with
  | zero => rfl
  | succ n ih =>
    rw [times, bind_eq, withLock_eq device]
    exact ih

/-- A method answers and changes nothing but the file system. -/
theorem call_eq (device : .device ∉ held) (method : Method W α) (s : Service I W) :
    call method held s = .done (method s.world).1 { s with world := (method s.world).2.2 } := by
  unfold call
  rw [bind_eq]
  change ((times (method s.world).2.1 (withLock .device (pure ()))) >>= _) held s = _
  rw [bind_eq, times_access device]
  rfl

theorem call_bind (device : .device ∉ held) (method : Method W α) (next : α → Api I W β)
    (s : Service I W) :
    (call method >>= next) held s =
      next (method s.world).1 held { s with world := (method s.world).2.2 } := by
  rw [bind_eq, call_eq device]

theorem onTable_eq (outer : Outer held) (fd : Fd) (missing : α) (body : FileWrapper I → Api I W α)
    (s : Service I W) :
    onTable fd missing body held s =
      ((s.table fd).map fun file => body file (.fdTable :: held) s).getD (.done missing s) := by
  unfold onTable
  rw [withLock_eq (outer.absent (by decide)), bind_eq]
  dsimp only [state]
  cases s.table fd <;> rfl

/-- The descriptor is one of a directory in which the file system can make the new entry. -/
def Creates (v : Setup I W E Stat Poll) (s : Service I W) (parentFd : Nat) (name : String)
    (type : FileType) (mode : UInt32) : Prop :=
  ∃ parent described inode, s.table (.ofNat parentFd) = some parent ∧
    (v.vfs.metadata parent.inode s.world).1 = .ok described ∧ described.type = .dir ∧
    (v.vfs.create parent.inode name type mode (v.vfs.metadata parent.inode s.world).2.2).1 =
      .ok inode

theorem create_deadlock_iff (parentFd : Nat) (name : String) (type : FileType) (mode : UInt32)
    (s : Service I W) :
    create v parentFd name type mode [] s = .deadlock ↔
      ∃ ready, ensureInit v [] s = .done () ready ∧ Creates v ready parentFd name type mode := by
  have outer := outerHeld_outer v
  have device : Lock.device ∉ Lock.fdTable :: outerHeld v := outer.inside (by decide) (by decide)
  unfold create
  rw [exported_deadlock_iff]
  refine exists_congr fun ready => and_congr_right fun _ => ?_
  rw [onTable_eq outer]
  unfold Creates
  cases found : ready.table (.ofNat parentFd) with
  | none => simp
  | some parent =>
    rw [Option.map_some, Option.getD_some, call_bind device]
    cases answer : (v.vfs.metadata parent.inode ready.world).1 with
    | error e => simp [pure, Prog.pure, answer]
    | ok described =>
      dsimp only
      by_cases dir : described.type = .dir
      · rw [if_neg (not_not.mpr dir), call_bind device]
        cases made : (v.vfs.create parent.inode name type mode
          (v.vfs.metadata parent.inode ready.world).2.2).1 with
        | error e => simp [pure, Prog.pure, answer, made]
        | ok inode =>
          -- the table is locked already when `alloc_fd` asks for it
          dsimp only
          rw [bind_eq, allocFd, withLock_held List.mem_cons_self]
          simp [answer, dir, made]
      · rw [if_pos dir]
        simp [pure, Prog.pure, answer, dir]

end Create

/-- A call takes a lock twice exactly when it is a `create` that comes to allocate the new
descriptor. -/
theorem lock_discipline_iff (v : Setup I W E Stat Poll) (s : Service I W) (op : Op Stat) :
    op.exec v [] s ≠ .deadlock ↔ ∀ parentFd name type mode, op = .create parentFd name type mode →
      ∀ ready, ensureInit v [] s = .done () ready → ¬ Creates v ready parentFd name type mode := by
  have free {program : Api I W Unit} (never : Free [] program) (other : ∀ parentFd name type mode,
      op ≠ .create parentFd name type mode) : program [] s ≠ .deadlock ↔
      ∀ parentFd name type mode, op = .create parentFd name type mode →
        ∀ ready, ensureInit v [] s = .done () ready → ¬ Creates v ready parentFd name type mode :=
    ⟨fun _ parentFd name type mode same => absurd same (other parentFd name type mode),
      fun _ => never s⟩
  cases op with
  | create parentFd name type mode =>
    rw [Op.exec, ne_eq, ignore_deadlock_iff, create_deadlock_iff]
    constructor
    · rintro never _ _ _ _ same ready initialised creates
      cases same
      exact never ⟨ready, initialised, creates⟩
    · rintro never ⟨ready, initialised, creates⟩
      exact never _ _ _ _ rfl ready initialised creates
  | openFile path flags mode => exact free (ignore_free (openFile_free path flags mode)) (by simp)
  | read fd len => exact free (ignore_free (read_free fd len)) (by simp)
  | write fd buf => exact free (ignore_free (write_free fd buf)) (by simp)
  | close fd => exact free (ignore_free (close_free fd)) (by simp)
  | lseek fd pos => exact free (ignore_free (lseek_free fd pos)) (by simp)
  | stat fd => exact free (ignore_free (stat_free fd)) (by simp)
  | readdir path => exact free (ignore_free (readdir_free path)) (by simp)
  | link parentFd name targetFd =>
    exact free (ignore_free (link_free parentFd name targetFd)) (by simp)
  | unlink parentFd name => exact free (ignore_free (onNode_free _ _)) (by simp)
  | rename oldFd newParentFd newName =>
    exact free (ignore_free (rename_free oldFd newParentFd newName)) (by simp)
  | setMetadata fd described => exact free (ignore_free (onNode_free _ _)) (by simp)
  | flush fd => exact free (ignore_free (onNode_free _ _)) (by simp)
  | sync fd => exact free (ignore_free (onNode_free _ _)) (by simp)
  | poll fd => exact free (ignore_free (poll_free fd)) (by simp)
  | setNonblocking fd nonblocking => exact free (ignore_free (Free.pure _)) (by simp)

end

/-- A file system with a root directory in which every name can be created. -/
def rootOnly : Vfs Unit Unit Unit Unit Unit where
  mount := fun w => (some (), 0, w)
  readAt := fun _ _ _ w => (.error (), 0, w)
  writeAt := fun _ _ _ w => (.error (), 0, w)
  metadata := fun _ w => (.ok ⟨.dir, 1, ()⟩, 0, w)
  lookup := fun _ _ w => (.error (), 0, w)
  find := fun _ _ w => (.error (), 0, w)
  list := fun _ w => (.ok [], 0, w)
  create := fun _ _ _ _ w => (.ok (), 0, w)
  link := fun _ _ _ w => (.error (), 0, w)
  unlink := fun _ _ w => (.error (), 0, w)
  move := fun _ _ _ _ w => (.error (), 0, w)
  setMetadata := fun _ _ w => (.ok (), 0, w)
  syncAll := fun _ w => (.ok (), 0, w)
  syncData := fun _ w => (.ok (), 0, w)
  poll := fun _ w => (.ok (), 0, w)
  invalidParam := ()
  debug := fun _ => "InvalidParam"

/-- A running `rcore_sfsfdtab` in which descriptor 3 is the root directory. -/
def rootOpened : Service Unit Unit :=
  ⟨Function.update (fun _ => none) 3 (some ⟨(), 0, true, false⟩), 4, true, some (), ()⟩

theorem create_deadlocks :
    ¬ ∀ (v : Setup Unit Unit Unit Unit Unit) (s : Service Unit Unit) (op : Op Unit),
    op.exec v [] s ≠ .deadlock := by
  intro always
  refine always ⟨.sfs, release, false, rootOnly, List.length⟩ rootOpened
    (.create 3 "part" .file 0o644) ?_
  rw [Op.exec, ignore_deadlock_iff, create_deadlock_iff]
  exact ⟨rootOpened, rfl, ⟨(), 0, true, false⟩, ⟨.dir, 1, ()⟩, (), by simp [rootOpened], rfl, rfl,
    rfl⟩

end AlloyStack.Rcore
