import AlloyStack.Library.DirectoryTree
import AlloyStack.Library.TreeCopy
import AlloyStack.Sfsfdtab.Agreement
import AlloyStack.Sfsfdtab.ImgToSfs

/-! `init` makes a RAM disk of the size of the image, formats it and copies the image to it. What
the crates are relied on for is said in terms of the tree that the file system holds; what is copied
is then read through `open` and `read`. -/
namespace AlloyStack.Sfsfdtab
open Rust LinearMemory DirectoryTree AlloyStack.Ramdisk AlloyStack.Fdtab

abbrev Path := List String
abbrev Files := Tree String UInt8

/-- The image file, if it exists, and `GLOBAL_FS` with the disk that it lies on. -/
structure World (FS : Type) where
  image : Option ImageFile
  globalFs : Option (FS × Memory)

section Init
variable {FS Inode Dir File : Type}

/-- The driver takes the size of the image, and panics if there is none. -/
def init (b : Build) (fat : Fat Dir File) (sfs : Sfs FS Inode) (bytes : Mounted FS → List UInt8)
    (fuel : Nat) (w : World FS) :
    Option (Bool × World FS) :=
  w.image.bind fun image =>
  (RamDisk.new image.bytes.length).bind fun blockDevice =>
  ((sfs.create blockDevice.size).run b blockDevice).bind fun
    | (.error _, _) => some (false, w)
    | (.ok fs, disk) => (imgToSfsBridge b fat sfs bytes fuel ⟨image, fs, disk⟩).map fun m =>
      (true, ⟨some m.image, some (m.fs, m.disk)⟩)

/-- `full_path` of `unpack_dir_to_sfs`. -/
def fullPath (path : Path) : String := path.foldl (fun parent name => parent ++ "/" ++ name) ""

/-- A name that a FAT directory can hold. -/
def Valid (name : String) : Prop := name ≠ "" ∧ '/' ∉ name.toList ∧ name ≠ "." ∧ name ≠ ".."

instance (name : String) : Decidable (Valid name) := inferInstanceAs (Decidable (_ ∧ _))

/-- The directory from a position on, as fatfs lists it: entries that cannot be read and the dot
entries stand between the files and directories of the listing. -/
inductive Lists (fat : Fat Dir File) (image : List UInt8) :
    Dir → Nat → Listing String UInt8 → Prop where
  | done (ends : fat.next image dir k = none) : Lists fat image dir k .nil
  | failed (fails : fat.next image dir k = some (.error ()))
    (rest : Lists fat image dir (k + 1) c) : Lists fat image dir k c
  | dots (found : fat.next image dir k = some (.ok entry))
    (dot : entry.name = "." ∨ entry.name = "..")
    (rest : Lists fat image dir (k + 1) c) : Lists fat image dir k c
  | file (found : fat.next image dir k = some (.ok ⟨name, .inr file⟩))
    (content : fat.readToEnd image file = some data)
    (rest : Lists fat image dir (k + 1) c) : Lists fat image dir k (.file name data c)
  | dir (found : fat.next image dir k = some (.ok ⟨name, .inl subDir⟩))
    (entries : Lists fat image subDir 0 c)
    (rest : Lists fat image dir (k + 1) c') : Lists fat image dir k (.dir name c c')

/-- A FAT image with these files. -/
structure Holds (fat : Fat Dir File) (image : ImageFile) (c : Listing String UInt8) : Prop where
  opens : image.opens = true
  lists : ∃ rootDir, fat.rootDir image.bytes = some rootDir ∧ Lists fat image.bytes rootDir 0 c
  proper : c.Proper Valid

/-- The tree of a new file system. -/
def root : Files := Function.update (fun _ => none) [] (some .dir)

/-- What a state of the file system and its disk stand for: which trees a device of a size has space
for, the tree, the nodes of the inodes, and how paths are read. -/
structure View (FS Inode : Type) where
  fits : (size : Nat) → Files → Prop
  tree : FS → List UInt8 → Files
  leads : FS → List UInt8 → Inode → Path → Prop
  lookup : Files → String → Option (INode Path)
  create : String → Option Path

def FileType.node : FileType → Node UInt8
  | file => .file []
  | dir => .dir

/-- A state of the file system after a call that changes its tree. -/
structure View.Becomes (v : View FS Inode) (fs : FS) (disk : List UInt8) (fs' : FS)
    (disk' : List UInt8) (t : Files) : Prop where
  length : disk'.length = disk.length
  tree : v.tree fs' disk' = t
  handles : ∀ inode path, v.leads fs disk inode path → v.leads fs' disk' inode path

/-- The rcore-fs crates: formatting writes metadata, and a call succeeds when there is space for
what it leaves. A tree with fewer or shorter files takes no more space. -/
structure View.Serves (v : View FS Inode) (sfs : Sfs FS Inode) : Prop where
  smaller : v.fits size t' → t.Le t' → v.fits size t
  create : v.fits disk.length root →
    ∃ fs disk', (sfs.create disk.length).flat disk = some (.ok fs, disk') ∧
    disk'.length = disk.length ∧ v.tree fs disk' = root ∧ v.leads fs disk' sfs.rootInode []
  metadata : (sfs.create size).flat (List.replicate size 0) = some (.ok fs, disk) →
    disk ≠ List.replicate size 0
  inodeCreate (mode : Nat) : v.leads fs disk inode path → v.tree fs disk path = some .dir →
    Valid name →
    v.tree fs disk (path ++ [name]) = none →
    v.fits disk.length (Function.update (v.tree fs disk) (path ++ [name]) (some type.node)) →
    ∃ inode' fs' disk', (sfs.inodeCreate inode name type mode fs).flat disk =
      some ((.ok inode', fs'), disk') ∧
      v.Becomes fs disk fs' disk'
        (Function.update (v.tree fs disk) (path ++ [name]) (some type.node)) ∧
      v.leads fs' disk' inode' (path ++ [name])
  resize : v.leads fs disk inode path → v.tree fs disk path = some (.file data) →
    v.fits disk.length (Function.update (v.tree fs disk) path
      (some (.file (List.replicate len 0)))) →
    ∃ data' fs' disk', (sfs.resize inode len fs).flat disk = some ((.ok (), fs'), disk') ∧
      data'.length = len ∧
      v.Becomes fs disk fs' disk' (Function.update (v.tree fs disk) path (some (.file data')))
  writeAt (offset : Nat) (buf : List UInt8) : v.leads fs disk inode path →
    v.tree fs disk path = some (.file data) → offset + buf.length ≤ data.length →
    ∃ fs' disk', (sfs.writeAt inode offset buf fs).flat disk = some ((.ok buf.length, fs'), disk') ∧
      v.Becomes fs disk fs' disk'
        (Function.update (v.tree fs disk) path (some (.file (store data offset buf))))
  lookup : Reached t path data → (∀ name ∈ path, Valid name) →
    v.lookup t (fullPath path) = some (.file path)

/-- The service on the mounted file system. -/
def View.service (v : View FS Inode) (fs : FS) (disk : Memory) : Service Path :=
  .mounted fun path => match v.tree fs disk.data path with
    | some (.file data) => some data
    | _ => none

def View.paths (v : View FS Inode) (fs : FS) (disk : Memory) : Paths Path :=
  ⟨v.lookup (v.tree fs disk.data), v.create⟩

/-- Reads of a descriptor, one after the other. -/
def reads (fd : Fd) : List Size → Service Path → List (Except String (List UInt8))
  | [], _ => []
  | len :: lens, s => (read fd len s).1 :: reads fd lens (read fd len s).2

/-- The successive parts of these lengths. -/
def parts : List Size → List UInt8 → List (List UInt8)
  | [], _ => []
  | len :: lens, data => data.take len :: parts lens (data.drop len)

/-- Opened for reading, the path gives the data, however it is read. -/
def Readable (b : Build) (v : View FS Inode) (w : World FS) (path : String) (data : List UInt8) :
    Prop :=
  ∃ fs disk, w.globalFs = some (fs, disk) ∧ ∀ flags mode, mode &&& OpenMode.RD = OpenMode.RD →
    ∃ fd s, openFile b (v.paths fs disk) path flags mode (v.service fs disk) = some (.ok fd, s) ∧
      ∀ lens, reads fd lens s = (parts lens data).map .ok

/-- The parser reads the bytes that the image had before, and the image still has them after
`init`. -/
def Undisturbed (b : Build) (fat : Fat Dir File) (sfs : Sfs FS Inode) (w : World FS)
    (image : ImageFile) : Prop :=
  ∀ fuel, init b fat sfs (·.image.bytes) fuel w = init b fat sfs (fun _ => image.bytes) fuel w ∧
    ∀ returned w', init b fat sfs (·.image.bytes) fuel w = some (returned, w') →
      w'.image = some image

/-- `init` returns `true`, and every file of the listing can be read. -/
def Kept (b : Build) (fat : Fat Dir File) (sfs : Sfs FS Inode) (v : View FS Inode) (w : World FS)
    (c : Listing String UInt8) : Prop :=
  ∃ enough w', (∀ fuel, enough ≤ fuel → init b fat sfs (·.image.bytes) fuel w = some (true, w')) ∧
    ∀ path data, c.Has path data → Readable b v w' (fullPath path) data

end Init

section Undisturbed
variable {FS Inode Dir File : Type}

/-- Neither the driver nor the file system has a handle of the image file. -/
theorem init_undisturbed (b : Build) (fat : Fat Dir File) (sfs : Sfs FS Inode) {w : World FS}
    (present : w.image = some image) :
    Undisturbed b fat sfs w image := by
  intro fuel
  constructor
  · simp only [init, present, Option.bind_some]
    refine Option.bind_congr fun blockDevice _ => Option.bind_congr ?_
    rintro ⟨created, disk⟩ -
    cases created with
    | error e => rfl
    | ok fs =>
      refine congrArg (Option.map _) (imgToSfsBridge_congr (fun m' reaches => ?_) fuel)
      rw [reaches.image]
  · intro returned w' result
    simp only [init, present, Option.bind_some, Option.bind_eq_some_iff] at result
    obtain ⟨blockDevice, -, ⟨created, disk⟩, -, result⟩ := result
    cases created with
    | error e =>
      cases result
      exact present
    | ok fs =>
      obtain ⟨m, bridged, result⟩ := Option.map_eq_some_iff.mp result
      cases result
      exact congrArg some (imgToSfsBridge_reaches bridged).image

end Undisturbed

section Copying
variable {FS Inode Dir File : Type} {b : Build} {fat : Fat Dir File} {sfs : Sfs FS Inode}
  {v : View FS Inode}
  {m : Mounted FS} {path : Path} {data : List UInt8}

def Mounted.tree (v : View FS Inode) (m : Mounted FS) : Files := v.tree m.fs m.disk.data

def Mounted.Leads (v : View FS Inode) (m : Mounted FS) : Inode → Path → Prop :=
  v.leads m.fs m.disk.data

/-- A later state, with this tree. -/
structure Mounted.Grows (v : View FS Inode) (m m' : Mounted FS) (t : Files) : Prop where
  image : m'.image = m.image
  size : m'.disk.size = m.disk.size
  tree : m'.tree v = t
  handles : ∀ inode path, m.Leads v inode path → m'.Leads v inode path

theorem Mounted.Grows.trans {m m' m'' : Mounted FS} (first : m.Grows v m' t)
    (second : m'.Grows v m'' t') : m.Grows v m'' t' where
  image := second.image.trans first.image
  size := second.size.trans first.size
  tree := second.tree
  handles inode path leads := second.handles inode path (first.handles inode path leads)

theorem Mounted.Grows.whole {m m' : Mounted FS} (grows : m.Grows v m' t) (whole : Whole m.disk) :
    Whole m'.disk :=
  ⟨grows.size ▸ whole.blocks, grows.size ▸ whole.small⟩

theorem call_grows (b : Build) {method : FS → Program (α × FS)} (whole : Whole m.disk)
    (flat : (method m.fs).flat m.disk.data = some ((value, fs'), disk'))
    (becomes : v.Becomes m.fs m.disk.data fs' disk' t) :
    ∃ m', m.call b method = some (value, m') ∧ m.Grows v m' t ∧ m'.fs = fs' ∧
      m'.disk.data = disk' := by
  obtain ⟨d, runs, rfl, size⟩ := Program.run_of_flat b whole flat
  refine ⟨{ m with fs := fs', disk := d }, ?_, ⟨rfl, size, becomes.tree, becomes.handles⟩, rfl, rfl⟩
  simp only [Mounted.call, runs, Option.map_some]

theorem inodeCreate_grows (b : Build) (serves : v.Serves sfs) (type : FileType) (mode : Nat)
    (whole : Whole m.disk) (leads : m.Leads v sfsDir path) (isDir : m.tree v path = some .dir)
    (valid : Valid name) (free : m.tree v (path ++ [name]) = none)
    (fits : v.fits m.disk.size (Function.update (m.tree v) (path ++ [name]) (some type.node))) :
    ∃ inode m', m.call b (sfs.inodeCreate sfsDir name type mode) = some (.ok inode, m') ∧
      m.Grows v m' (Function.update (m.tree v) (path ++ [name]) (some type.node)) ∧
        m'.Leads v inode (path ++ [name]) := by
  rw [← m.disk.sized] at fits
  obtain ⟨inode, fs', disk', flat, becomes, made⟩ :=
    serves.inodeCreate mode leads isDir valid free fits
  obtain ⟨m', answer, grows, rfl, rfl⟩ := call_grows b whole flat becomes
  exact ⟨inode, m', answer, grows, made⟩

/-- A new file is given its content. -/
theorem fill_grows (b : Build) (serves : v.Serves sfs) (whole : Whole m.disk)
    (leads : m.Leads v inode path) (isFile : m.tree v path = some (.file old))
    (fits : v.fits m.disk.size (Function.update (m.tree v) path (some (.file data)))) :
    ∃ m₁ m₂ n, m.call b (sfs.resize inode data.length) = some (.ok (), m₁) ∧
      m₁.call b (sfs.writeAt inode 0 data) = some (.ok n, m₂) ∧
        m.Grows v m₂ (Function.update (m.tree v) path (some (.file data))) := by
  have room : v.fits m.disk.data.length
      (Function.update (m.tree v) path (some (.file (List.replicate data.length 0)))) := by
    rw [m.disk.sized]
    exact serves.smaller fits (.update (by simp [Node.Le]))
  obtain ⟨zeros, fs', disk', flat, length, becomes⟩ := serves.resize leads isFile room
  obtain ⟨m₁, answer, grows, rfl, rfl⟩ := call_grows b whole flat becomes
  have isFile' : v.tree m₁.fs m₁.disk.data path = some (.file zeros) := by
    rw [becomes.tree, Function.update_self]
  obtain ⟨fs', disk', flat, becomes'⟩ :=
    serves.writeAt 0 data (grows.handles _ _ leads) isFile' (by omega)
  obtain ⟨m₂, answer', grows', rfl, rfl⟩ := call_grows b (grows.whole whole) flat becomes'
  have stored : store zeros 0 data = data := by simp [store, ← length]
  rw [stored, becomes.tree, Function.update_idem] at grows'
  exact ⟨m₁, m₂, data.length, answer, answer', grows.trans grows'⟩

theorem unpackFile_grows (b : Build) (serves : v.Serves sfs) (whole : Whole m.disk)
    (leads : m.Leads v sfsDir path) (isDir : m.tree v path = some .dir) (valid : Valid name)
    (free : m.tree v (path ++ [name]) = none)
    (content : fat.readToEnd m.image.bytes file = some data)
    (fits : v.fits m.disk.size (Function.update (m.tree v) (path ++ [name]) (some (.file data)))) :
    ∃ m', unpackFile b fat sfs (·.image.bytes) sfsDir name file m = some m' ∧
      m.Grows v m' (Function.update (m.tree v) (path ++ [name]) (some (.file data))) := by
  have empty : (FileType.file.node).Le (.file data) := Nat.zero_le _
  obtain ⟨newFile, m₁, created, grows, leads₁⟩ :=
    inodeCreate_grows b serves .file 0o644 whole leads isDir valid free
      (serves.smaller fits (.update empty))
  have isFile : m₁.tree v (path ++ [name]) = some (.file []) := by
    rw [grows.tree, Function.update_self, FileType.node]
  have tree : Function.update (m₁.tree v) (path ++ [name]) (some (.file data)) =
      Function.update (m.tree v) (path ++ [name]) (some (.file data)) := by
        rw [grows.tree, Function.update_idem]
  rw [← grows.size, ← tree] at fits
  obtain ⟨m₂, m₃, n, resized, written, grows'⟩ :=
    fill_grows b serves (grows.whole whole) leads₁ isFile fits
  refine ⟨m₃, ?_, tree ▸ grows.trans grows'⟩
  rw [← grows.image] at content
  simp only [unpackFile, created, Option.bind_some, content, resized, written, Option.map_some]

theorem makeDir_grows (b : Build) (serves : v.Serves sfs) (whole : Whole m.disk)
    (leads : m.Leads v sfsDir path) (isDir : m.tree v path = some .dir) (valid : Valid name)
    (free : m.tree v (path ++ [name]) = none)
    (fits : v.fits m.disk.size (Function.update (m.tree v) (path ++ [name]) (some .dir))) :
    ∃ newDir m', makeDir b sfs sfsDir name m = some (some newDir, m') ∧
      m.Grows v m' (Function.update (m.tree v) (path ++ [name]) (some .dir)) ∧
        m'.Leads v newDir (path ++ [name]) := by
  obtain ⟨newDir, m₁, created, grows, leads₁⟩ :=
    inodeCreate_grows b serves .dir 0o755 whole leads isDir valid free fits
  refine ⟨newDir, m₁, ?_, grows, leads₁⟩
  simp only [makeDir, created, Option.bind_some]

/-- The names that are passed over. -/
def isDot (name : String) : Bool := name = "." ∨ name = ".."

/-- The items of a directory of the image. -/
def items (fat : Fat Dir File) (image : List UInt8) : TreeCopy.Source String Dir File :=
  fun dir k =>
  (fat.next image dir k).map fun item => item.map fun entry => (entry.name, entry.node)

/-- `unpack_dir_to_sfs` as a copy. -/
def sfsCopier (b : Build) (fat : Fat Dir File) (sfs : Sfs FS Inode)
    (bytes : Mounted FS → List UInt8) :
    TreeCopy.Copier (Mounted FS) Inode String Dir File :=
  ⟨fun m => items fat (bytes m), isDot, makeDir b sfs, unpackFile b fat sfs bytes⟩

theorem unpackDirToSfs_eq (b : Build) (fat : Fat Dir File) (sfs : Sfs FS Inode)
    (bytes : Mounted FS → List UInt8) (fuel : Nat) (sfsDir : Inode) (fatDir : Dir) (k : Nat)
    (m : Mounted FS) :
    unpackDirToSfs b fat sfs bytes fuel sfsDir fatDir k m =
      (sfsCopier b fat sfs bytes).copy fuel sfsDir fatDir k m := by
  induction fuel generalizing sfsDir fatDir k m with
  | zero => rfl
  | succ fuel ih =>
    have source : (sfsCopier b fat sfs bytes).next m fatDir k =
        (fat.next (bytes m) fatDir k).map fun item => item.map fun entry =>
            (entry.name, entry.node) :=
          rfl
    rw [unpackDirToSfs, TreeCopy.Copier.copy, source]
    cases fat.next (bytes m) fatDir k with
    | none => rfl
    | some item =>
      cases item with
      | error e => exact ih ..
      | ok entry =>
        have skips : (sfsCopier b fat sfs bytes).skips entry.name =
            decide (entry.name = "." ∨ entry.name = "..") :=
          rfl
        simp only [Option.map_some, Except.map, skips, decide_eq_true_eq]
        split
        next => exact ih ..
        next =>
          cases entry.node with
          | inl dir =>
            refine Option.bind_congr ?_
            rintro ⟨newDir, m₁⟩ -
            cases newDir with
            | none => exact ih ..
            | some newDir =>
              dsimp only
              rw [ih]
              exact Option.bind_congr fun m₂ _ => ih ..
          | inr file => exact Option.bind_congr fun m₁ _ => ih ..

theorem items_ok {image : List UInt8} (found : fat.next image dir k = some (.ok entry)) :
    items fat image dir k = some (.ok (entry.name, entry.node)) := by
  rw [items, found]
  rfl

theorem Lists.items {image : List UInt8} (lists : Lists fat image fatDir k c) :
    TreeCopy.Lists (items fat image) isDot (fat.readToEnd image) fatDir k c := by
  induction lists with
  | done ends => exact .done (by rw [Sfsfdtab.items, ends]; rfl)
  | failed fails rest ih => exact .failed (by rw [Sfsfdtab.items, fails]; rfl) ih
  | dots found dot rest ih => exact .skipped (items_ok found) (by simpa [isDot] using dot) ih
  | file found content rest ih => exact .file (items_ok found) content ih
  | dir found entries rest inside after => exact .dir (items_ok found) inside after

/-- Where the crates serve the calls, the copy is faithful. -/
theorem sfs_faithful (b : Build) (fat : Fat Dir File) (serves : v.Serves sfs) (image : ImageFile)
    (size : Nat) :
    (sfsCopier b fat sfs (·.image.bytes)).Faithful ⟨Mounted.tree v, Mounted.Leads v⟩
      (fun m => m.image = image ∧ m.disk.size = size ∧ Whole m.disk) (items fat image.bytes)
        (fat.readToEnd image.bytes)
      (fun _ => true) Valid (v.fits size) where
  next := by
    rintro m ⟨rfl, -, -⟩
    rfl
  named valid := by simp [sfsCopier, isDot, valid.2.2]
  smaller := serves.smaller
  makeDir := by
    rintro m sfsDir path name ⟨rfl, rfl, whole⟩ leads isDir valid free fits
    obtain ⟨newDir, m', made, grows, leads'⟩ :=
      makeDir_grows b serves whole leads isDir valid free fits
    exact ⟨newDir, m', made, ⟨grows.image, grows.size, grows.whole whole⟩,
      ⟨grows.tree, grows.handles⟩, leads'⟩
  copyFile := by
    rintro m sfsDir path name file data ⟨rfl, rfl, whole⟩ leads isDir valid free content - fits
    obtain ⟨m', copied, grows⟩ :=
      unpackFile_grows b serves whole leads isDir valid free content fits
    exact ⟨m', copied, ⟨grows.image, grows.size, grows.whole whole⟩, ⟨grows.tree, grows.handles⟩⟩
  leaveFile _ _ dropped := by cases dropped

/-- Enough fuel copies the whole directory. -/
theorem unpackDirToSfs_grows (b : Build) (serves : v.Serves sfs) {image : List UInt8}
    (lists : Lists fat image fatDir k c) (same : m.image.bytes = image) (whole : Whole m.disk)
    (leads : m.Leads v sfsDir path) (isDir : m.tree v path = some .dir) (proper : c.Proper Valid)
    (fresh : c.Fresh path (m.tree v)) (fits : v.fits m.disk.size (c.onto path (m.tree v))) :
    ∃ enough m', (∀ fuel, enough ≤ fuel →
      unpackDirToSfs b fat sfs (·.image.bytes) fuel sfsDir fatDir k m = some m') ∧
      m.Grows v m' (c.onto path (m.tree v)) := by
  subst same
  obtain ⟨m', ⟨enough, copies⟩, ⟨image, size, -⟩, becomes⟩ :=
    (sfs_faithful b fat serves m.image m.disk.size).copy lists.items
    ⟨rfl, rfl, whole⟩ leads isDir proper fresh (by rwa [Listing.only_true])
  rw [Listing.only_true] at becomes
  refine ⟨enough, m', fun fuel more => ?_, image, size, becomes.tree, becomes.handles⟩
  rw [unpackDirToSfs_eq, copies fuel more]

end Copying

end AlloyStack.Sfsfdtab
