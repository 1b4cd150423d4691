import AlloyStack.Library.LittleEndian
import AlloyStack.Library.Text
import AlloyStack.Sfsfdtab.Init
import Mathlib.Algebra.BigOperators.Group.Finset.Basic
import Mathlib.Algebra.Order.BigOperators.Group.Finset

/-! What can be read through `open` and `read` after `init`. The RAM disk has the size of the image,
in which smaller files and directories may take less space than in the simple file system. -/
namespace AlloyStack.Sfsfdtab
open Rust LinearMemory DirectoryTree AlloyStack.Ramdisk AlloyStack.Fdtab

section Reading
variable {FS Inode Dir File : Type} {b : Build} {fat : Fat Dir File} {sfs : Sfs FS Inode}
  {v : View FS Inode}

theorem drop_take_length (len : Nat) (l : List α) : l.drop (l.take len).length = l.drop len := by
  rw [List.length_take]
  rcases Nat.le_total len l.length with inside | beyond
  · rw [Nat.min_eq_left inside]
  · rw [Nat.min_eq_right beyond, List.drop_length, List.drop_eq_nil_of_le beyond]

/-- Each read goes on where the one before it ended. -/
theorem reads_eq {s : Service Path} {file : FileWrapper Path} (lens : List Size)
    (entry : s.table fd = some file) (inode : file.inode = .file path)
    (readable : file.readable = true) :
    reads fd lens s = (parts lens ((s.content path).drop file.offset)).map .ok := by
  induction lens generalizing s file with
  | nil => rfl
  | cons len lens ih =>
    let data := ((s.content path).drop file.offset).take len
    let next := { file with offset := file.offset + data.length }
    have answer : read fd len s =
        (.ok data, { s with table := Function.update s.table fd (some next) }) := by
      simp only [read, entry, readable, inode, Bool.not_true, Bool.false_eq_true, if_false, data,
        next]
    have later :=
      @ih { s with table := Function.update s.table fd (some next) } next (Function.update_self ..)
        inode readable
    rw [reads, answer, parts, List.map_cons, later]
    simp only [Service.content, next, data]
    rw [← List.drop_drop, drop_take_length]

theorem readable_of_reached (b : Build) (serves : v.Serves sfs) {w : World FS} {disk : Memory}
    (mounted : w.globalFs = some (fs, disk)) (reached : Reached (v.tree fs disk.data) path data)
    (valid : ∀ name ∈ path, Valid name) :
    Readable b v w (fullPath path) data := by
  refine ⟨fs, disk, mounted, fun flags mode reading => ?_⟩
  have file : (v.service fs disk).files path = some data := by
    simp only [View.service, Service.mounted, reached.file]
  have there : (v.service fs disk).lookup (v.paths fs disk) (fullPath path) =
      some (.file path) := by
    simp only [Service.lookup, View.paths, serves.lookup reached valid, file, Option.isSome_some,
      if_true]
  have opened := openFile_found (b := b) (by decide : (3 : Fd).toNat + 1 < 2 ^ 32) there flags mode
  refine ⟨_, _, opened, fun lens => ?_⟩
  have content : ((v.service fs disk).opening path mode (v.service fs disk).files).content path =
      data := by
    simp only [Service.content, Service.opening, file, Option.getD_some]
  have entry : ((v.service fs disk).opening path mode (v.service fs disk).files).table
      (v.service fs disk).nextFd =
      some (wrapper ⟨path, 0⟩ mode) := by simp only [Service.opening, Function.update_self]
  rw [reads_eq lens entry rfl (by simp [wrapper, reading]), content]
  rfl

/-- The new file system is mounted on a disk of zeros. -/
theorem create_mounts (b : Build) (serves : v.Serves sfs) (allocates : alignUp len < 2 ^ 63)
    (fits : v.fits (alignUp len) root) :
    ∃ blockDevice fs disk, RamDisk.new len = some blockDevice ∧
      (sfs.create blockDevice.size).run b blockDevice = some (.ok fs, disk) ∧ Whole disk ∧
        disk.size = alignUp len ∧
      v.tree fs disk.data = root ∧ v.leads fs disk.data sfs.rootInode [] := by
  obtain ⟨blockDevice, made, size⟩ : ∃ d, RamDisk.new len = some d ∧ d.size = alignUp len :=
    ⟨_, if_pos allocates, rfl⟩
  have whole := (RamDisk.new_whole made).1
  rw [← size, ← blockDevice.sized] at fits
  obtain ⟨fs, disk', flat, -, tree, leads⟩ := serves.create fits
  obtain ⟨disk, runs, rfl, size'⟩ := Program.run_of_flat b whole flat
  rw [blockDevice.sized] at runs
  exact ⟨blockDevice, fs, disk, made, runs, ⟨size' ▸ whole.blocks, size' ▸ whole.small⟩,
    size'.trans size, tree, leads⟩

theorem fresh_root (c : Listing String UInt8) : c.Fresh [] root := by
  rintro name - q below
  rw [root, Function.update_of_ne]
  rintro rfl
  exact entry_not_prefix List.prefix_rfl below

/-- `init` leaves the image alone, and where the disk has space for all of its files they can be
read. -/
theorem init_keeps (b : Build) (fat : Fat Dir File) (sfs : Sfs FS Inode) (v : View FS Inode)
    (w : World FS) (image : ImageFile) (c : Listing String UInt8) (serves : v.Serves sfs)
    (present : w.image = some image) (holds : Holds fat image c)
    (allocates : alignUp image.bytes.length < 2 ^ 63) :
    Undisturbed b fat sfs w image ∧
      (v.fits (alignUp image.bytes.length) (c.onto [] root) → Kept b fat sfs v w c) := by
  refine ⟨init_undisturbed b fat sfs present, fun fits => ?_⟩
  obtain ⟨rootDir, mounts, lists⟩ := holds.lists
  have fresh := fresh_root c
  obtain ⟨blockDevice, fs, disk, made, runs, whole, size, tree, leads⟩ :=
    create_mounts b serves allocates (serves.smaller fits (Listing.le_onto holds.proper fresh))
  have start : Mounted.tree v ⟨image, fs, disk⟩ = root := tree
  obtain ⟨enough, m, unpacks, grows⟩ :=
    unpackDirToSfs_grows (m := ⟨image, fs, disk⟩) b serves lists rfl whole leads
    (by rw [start, root, Function.update_self]) holds.proper (by rwa [start]) (by rwa [start, size])
  refine ⟨enough, ⟨some m.image, some (m.fs, m.disk)⟩, fun fuel more => ?_, fun path data has => ?_⟩
  · simp only [init, present, Option.bind_some, made, runs, imgToSfsBridge, holds.opens,
      Bool.not_true, Bool.false_eq_true, if_false, mounts, unpacks fuel more, Option.map_some]
  · refine readable_of_reached b serves rfl ?_ (has.names_valid holds.proper)
    have copied := Listing.onto_reached holds.proper fresh (by simp [root]) has
    have final : v.tree m.fs m.disk.data = c.onto [] root := start ▸ grows.tree
    rwa [final]

end Reading

section Small

/-- The names between the slashes of a path. -/
def components (path : String) : Path :=
  ((Text.split '/' path.toList).filter (· ≠ [])).map String.ofList

theorem components_fullPath {path : Path} (valid : ∀ name ∈ path, Valid name) :
    components (fullPath path) = path := by
  induction path using List.reverseRecOn with
  | nil => decide
  | append_singleton path name ih =>
    obtain ⟨nonempty, noSlash, -⟩ := valid name (by simp)
    have text : (fullPath (path ++ [name])).toList = (fullPath path).toList ++
        '/' :: name.toList := by
      simp [fullPath, List.foldl_append]
    have rest := ih fun other member => valid other (List.mem_append_left _ member)
    rw [components, Text.split] at rest
    rw [components, Text.split, text, List.splitOn_append_cons_of_beq _ _ (beq_self_eq_true _),
      List.splitOn_eq_singleton noSlash, List.filter_append, List.map_append, rest]
    simp [nonempty]

/-- The blocks of a node: its inode, and its entries or its data. -/
def nodeBlocks : Option (Node UInt8) → Nat
  | none => 0
  | some .dir => 2
  | some (.file data) => 1 + alignUp data.length / BLOCK_SIZE

/-- The superblock and the free map come first. -/
def blocks (held : Finset Path) (t : Files) : Nat := 2 + ∑ path ∈ held, nodeBlocks (t path)

/-- The simple file system on a device of sixteen blocks, with all of its nodes in the cache. -/
structure Small where
  held : Finset Path
  nodes : Files
  only : ∀ path, nodes path ≠ none → path ∈ held
  room : blocks held nodes ≤ 16

def Small.put (fs : Small) (path : Path) (node : Node UInt8) : Option Small :=
  if room : blocks (insert path fs.held) (Function.update fs.nodes path (some node)) ≤ 16 then
    some ⟨insert path fs.held, Function.update fs.nodes path (some node), by
      intro q there
      by_cases same : q = path
      · exact same ▸ Finset.mem_insert_self ..
      · rw [Function.update_of_ne same] at there
        exact Finset.mem_insert_of_mem (fs.only q there), room⟩
  else none

def Small.fits (size : Nat) (t : Files) : Prop :=
  size = 16 * BLOCK_SIZE ∧ ∃ held, (∀ path, t path ≠ none → path ∈ held) ∧ blocks held t ≤ 16

theorem Small.put_of_fits {fs : Small}
    (fits : Small.fits size (Function.update fs.nodes path (some node))) :
    ∃ fs', fs.put path node = some fs' ∧ fs'.nodes = Function.update fs.nodes path (some node) := by
  obtain ⟨-, held, only, room⟩ := fits
  refine ⟨_, dif_pos (Nat.le_trans (Nat.add_le_add_left ?_ 2) room), rfl⟩
  refine Finset.sum_le_sum_of_ne_zero fun q _ used => only q fun absent => used ?_
  rw [absent, nodeBlocks]

def Small.new : Small := ⟨{[]}, root, by
  intro path there
  by_contra other
  rw [Finset.mem_singleton] at other
  exact there (Function.update_of_ne other ..), by decide⟩

def smallSfs : Sfs Small Path where
  create space :=
    if space = 16 * BLOCK_SIZE then .writeAt 0 (LittleEndian.encode 4 0x2f8dbe2a) fun
      | .ok _ => .done (.ok .new)
      | .error _ => .done (.error .other)
    else .panicked
  rootInode := []
  inodeCreate dir name type _ fs := .done <|
    if fs.nodes dir ≠ some .dir then (.error .other, fs)
    else if fs.nodes (dir ++ [name]) ≠ none then (.error .entryExist, fs)
    else match fs.put (dir ++ [name]) type.node with
      | some fs' => (.ok (dir ++ [name]), fs')
      | none => (.error .noDeviceSpace, fs)
  find dir name fs :=
    .done (if fs.nodes (dir ++ [name]) ≠ none then .ok (dir ++ [name]) else .error .other, fs)
  resize inode len fs := .done <|
    match fs.nodes inode with
    | some (.file data) => match fs.put inode (.file (padded len (data.take len))) with
      | some fs' => (.ok (), fs')
      | none => (.error .noDeviceSpace, fs)
    | _ => (.error .other, fs)
  writeAt inode offset buf fs := .done <|
    match fs.nodes inode with
    | some (.file data) => match fs.put inode (.file (store (padded offset data) offset buf)) with
      | some fs' => (.ok buf.length, fs')
      | none => (.error .noDeviceSpace, fs)
    | _ => (.error .other, fs)

def smallView : View Small Path where
  fits := Small.fits
  tree fs _ := fs.nodes
  leads _ _ inode path := inode = path
  lookup t path := match t (components path) with
    | some .dir => some .directory
    | some (.file _) => some (.file (components path))
    | none => none
  create name := some [name]

theorem nodeBlocks_le {t t' : Files} (le : t.Le t') (path : Path) :
    nodeBlocks (t path) ≤ nodeBlocks (t' path) := by
  cases there : t path with
  | none => exact Nat.zero_le _
  | some node =>
    obtain ⟨node', there', le⟩ := le path node there
    rw [there']
    cases node <;> cases node' <;> simp only [Node.Le] at le
    · exact Nat.le_refl _
    · simp only [nodeBlocks, alignUp, BLOCK_SIZE]
      omega

theorem Small.fits_smaller {t t' : Files} (fits : Small.fits size t') (le : t.Le t') :
    Small.fits size t := by
  obtain ⟨whole, held, only, room⟩ := fits
  refine ⟨whole, held, fun path there => ?_, ?_⟩
  · obtain ⟨node, there⟩ := Option.ne_none_iff_exists'.mp there
    obtain ⟨node', there', -⟩ := le path node there
    exact only path (there' ▸ Option.some_ne_none node')
  · exact Nat.le_trans (Nat.add_le_add_left
      (Finset.sum_le_sum fun path _ => nodeBlocks_le le path) 2) room

theorem Small.fits_overwritten {fs : Small} (isFile : fs.nodes path = some (.file data))
    (length : data'.length = data.length) :
    Small.fits (16 * BLOCK_SIZE) (Function.update fs.nodes path (some (.file data'))) := by
  have now : Small.fits (16 * BLOCK_SIZE) fs.nodes := ⟨rfl, fs.held, fs.only, fs.room⟩
  refine fits_smaller now ?_
  rw [← Function.update_eq_self path fs.nodes, Function.update_idem, isFile]
  exact .update length.le

theorem padded_inside (inside : offset ≤ data.length) : padded offset data = data := by
  rw [padded, Nat.sub_eq_zero_of_le inside, List.replicate_zero, List.append_nil]

theorem small_serves : smallView.Serves smallSfs where
  smaller := Small.fits_smaller
  create := by
    intro disk fits
    have size : disk.length = 16 * BLOCK_SIZE := fits.1
    refine ⟨.new, store disk 0 (LittleEndian.encode 4 0x2f8dbe2a), ?_, store_length ?_, rfl, rfl⟩
    · simp only [smallSfs, size, if_true, Program.flat]
      exact if_pos (by decide)
    · rw [size]
      decide
  metadata := by
    intro size disk fs formats same
    simp only [smallSfs] at formats
    split at formats
    · simp only [Program.flat] at formats
      split at formats
      · have stored : store (List.replicate size 0) 0 (LittleEndian.encode 4 0x2f8dbe2a) = disk :=
          congrArg (·.2) (Option.some.inj formats)
        have first : (List.replicate size (0 : UInt8))[0]? = some 0x2a := by
          rw [← same, ← stored, store_getElem? (Nat.zero_le _), if_pos (by decide)]
          decide
        rw [List.getElem?_replicate] at first
        split at first <;> revert first <;> decide
      · cases formats
    · cases formats
  inodeCreate := by
    intro fs disk dir path name type mode leads isDir valid free fits
    obtain rfl : dir = path := leads
    obtain ⟨fs', put, nodes⟩ := Small.put_of_fits fits
    refine ⟨dir ++ [name], fs', disk, ?_, ⟨rfl, nodes, fun _ _ leads => leads⟩, rfl⟩
    have isDir : fs.nodes dir = some .dir := isDir
    have free : fs.nodes (dir ++ [name]) = none := free
    simp only [smallSfs, isDir, free, put, Program.flat, ne_eq, not_true_eq_false, if_false]
  resize := by
    intro fs disk inode path data len leads isFile fits
    obtain rfl : inode = path := leads
    have isFile : fs.nodes inode = some (.file data) := isFile
    have length : (padded len (data.take len)).length = len := padded_length (by simp)
    have alike : Node.Le (.file (padded len (data.take len))) (.file (List.replicate len 0)) := by
      simp [Node.Le, length]
    obtain ⟨fs', put, nodes⟩ := Small.put_of_fits (Small.fits_smaller fits (.update alike))
    refine ⟨_, fs', disk, ?_, length, ⟨rfl, nodes, fun _ _ leads => leads⟩⟩
    simp only [smallSfs, isFile, put, Program.flat]
  writeAt := by
    intro fs disk inode path data offset buf leads isFile inside
    obtain rfl : inode = path := leads
    have isFile : fs.nodes inode = some (.file data) := isFile
    obtain ⟨fs', put, nodes⟩ :=
      Small.put_of_fits (Small.fits_overwritten isFile (store_length inside))
    refine ⟨fs', disk, ?_, ⟨rfl, nodes, fun _ _ leads => leads⟩⟩
    simp only [smallSfs, isFile, padded_inside (Nat.le_trans (Nat.le_add_right ..) inside), put,
      Program.flat]
  lookup := by
    intro t path data reached valid
    simp only [smallView, components_fullPath valid, reached.file]

/-- A number in the boot sector or in a directory entry. -/
def field (bytes : List UInt8) (offset width : Nat) : Nat :=
  LittleEndian.decode (load bytes offset width)

def rootStart (image : List UInt8) : Nat :=
  (field image 14 2 + field image 16 1 * field image 22 2) * field image 11 2

def dataStart (image : List UInt8) : Nat := rootStart image + 32 * field image 17 2

/-- fatfs on volumes that have only files of at most one cluster, with short names without an
extension, in the root directory. A file is known by the place and the length of its data. -/
def smallFat : Fat Unit (Nat × Nat) where
  rootDir image := if load image 510 2 = [0x55, 0xaa] then some () else none
  next image _ k :=
    let entry := load image (rootStart image + 32 * k) 32
    if field image 17 2 ≤ k ∨ field entry 0 1 = 0 then none
    else
      some (.ok ⟨.ofList (((entry.take 8).filter (· ≠ 0x20)).map fun byte => Char.ofNat byte.toNat),
      .inr (dataStart image + (field entry 26 2 - 2) * field image 13 1 * field image 11 2,
        field entry 28 4)⟩)
  readToEnd image file := some (load image file.1 file.2)

/-- 128 sectors of 512 bytes, one to a cluster, with one FAT of one sector and 16 root entries. -/
def bootSector : List UInt8 :=
  [0xeb, 0x3c, 0x90, 0x4d, 0x53, 0x44, 0x4f, 0x53, 0x35, 0x2e, 0x30, 0, 2, 1, 1, 0, 1, 16, 0, 128,
    0, 0xf8, 1, 0] ++
    List.replicate 486 0 ++ [0x55, 0xaa]

def directoryEntry (name : UInt8) (cluster size : Nat) : List UInt8 :=
  [name] ++ List.replicate 10 0x20 ++ [0x20] ++ List.replicate 14 0 ++
    LittleEndian.encode 2 cluster ++ LittleEndian.encode 4 size

def volume (table : List UInt8) (entries : List (List UInt8)) (data : List UInt8) : ImageFile where
  bytes := bootSector ++ (padded 512 table ++ (padded 512 entries.flatten ++ padded 64000 data))
  opens := true

theorem volume_length (small : table.length ≤ 512) (few : entries.flatten.length ≤ 512)
    (fits : data.length ≤ 64000) :
    (volume table entries data).bytes.length = 16 * BLOCK_SIZE := by
  simp only [volume, List.length_append, padded_length small, padded_length few, padded_length fits,
    bootSector, List.length_cons, List.length_nil, List.length_replicate, BLOCK_SIZE]

/-- One file `A` of two bytes. -/
def greeting : ImageFile := volume [0xf8, 0xff, 0xff, 0xff, 0x0f] [directoryEntry 65 2 2] [104, 105]

def greetingFiles : Listing String UInt8 := .file "A" [104, 105] .nil

theorem greeting_holds : Holds smallFat greeting greetingFiles where
  opens := rfl
  lists := by
    have entry : smallFat.next greeting.bytes () 0 = some (.ok ⟨"A", .inr (1536, 2)⟩) := by
      decide +kernel
    exact ⟨(), by decide +kernel, .file entry (by decide +kernel) (.done (by decide +kernel))⟩
  proper := ⟨by decide, by decide, trivial⟩

theorem greeting_fits :
    smallView.fits (alignUp greeting.bytes.length) (greetingFiles.onto [] root) := by
  have size : greeting.bytes.length = 16 * BLOCK_SIZE :=
    volume_length (by decide) (by decide) (by decide)
  refine ⟨by rw [size]; decide, {[], ["A"]}, fun path there => ?_, by decide +kernel⟩
  by_contra outside
  simp only [Finset.mem_insert, Finset.mem_singleton, not_or] at outside
  refine there ?_
  rw [greetingFiles, Listing.onto, Listing.onto, root, List.nil_append,
    Function.update_of_ne outside.2, Function.update_of_ne outside.1]

theorem greeting_kept : Undisturbed release smallFat smallSfs ⟨some greeting, none⟩ greeting ∧
    Kept release smallFat smallSfs smallView ⟨some greeting, none⟩ greetingFiles := by
  have size : greeting.bytes.length = 16 * BLOCK_SIZE :=
    volume_length (by decide) (by decide) (by decide)
  have keeps :=
    init_keeps release smallFat smallSfs smallView
      ⟨some greeting, none⟩ greeting greetingFiles small_serves rfl
    greeting_holds (by rw [size]; decide)
  exact ⟨keeps.1, keeps.2 greeting_fits⟩

/-- A directory of empty files. -/
def emptyFiles : List String → Listing String UInt8
  | [] => .nil
  | name :: names => .file name [] (emptyFiles names)

theorem emptyFiles_lists {Dir File : Type} {fat : Fat Dir File} {dir : Dir} {names : List String}
    {k : Nat} (file : File)
    (listed : ∀ i ≤ names.length,
      fat.next image dir (k + i) = names[i]?.map fun name => .ok ⟨name, .inr file⟩)
    (empty : fat.readToEnd image file = some []) : Lists fat image dir k (emptyFiles names) := by
  induction names generalizing k with
  | nil => exact .done (listed 0 (Nat.le_refl 0))
  | cons name names ih =>
    refine .file (listed 0 (Nat.zero_le _)) empty (ih fun i less => ?_)
    rw [Nat.add_assoc, Nat.add_comm 1 i]
    exact listed (i + 1) (Nat.succ_le_succ less)

theorem emptyFiles_names (names : List String) : (emptyFiles names).names = names := by
  induction names with
  | nil => rfl
  | cons name names ih => rw [emptyFiles, Listing.names, ih]

theorem emptyFiles_proper (distinct : names.Nodup) (valid : ∀ name ∈ names, Valid name) :
    (emptyFiles names).Proper Valid := by
  induction names with
  | nil => trivial
  | cons name names ih =>
    rw [List.nodup_cons] at distinct
    rw [List.forall_mem_cons] at valid
    exact ⟨valid.1, (emptyFiles_names names).symm ▸ distinct.1, ih distinct.2 valid.2⟩

theorem emptyFiles_has (member : name ∈ names) : (emptyFiles names).Has [name] [] := by
  induction names with
  | nil => cases member
  | cons head names ih =>
    rcases List.mem_cons.mp member with rfl | member
    · exact .inl ⟨rfl, rfl⟩
    · exact .inr (ih member)

/-- Each of these files takes 32 bytes of the image, and a block of the disk. -/
def letters : List String :=
  ["A", "B", "C", "D", "E", "F", "G", "H", "I", "J", "K", "L", "M", "N", "O"]

def lettersImage : ImageFile :=
  volume [0xf8, 0xff, 0xff] ((List.range' 65 15).map fun name => directoryEntry (.ofNat name) 0 0)
    []

theorem letters_hold : Holds smallFat lettersImage (emptyFiles letters) where
  opens := rfl
  lists :=
    ⟨(), by decide +kernel, emptyFiles_lists (1536, 0) (by decide +kernel) (by decide +kernel)⟩
  proper := emptyFiles_proper (by decide) (by decide)

theorem nodes_of_readable {fs : Small} (mounted : w.globalFs = some (fs, disk))
    (valid : ∀ name ∈ path, Valid name) (readable : Readable b smallView w (fullPath path) data) :
    fs.nodes path ≠ none := by
  intro absent
  obtain ⟨fs', disk', mounted', opens⟩ := readable
  obtain ⟨rfl, rfl⟩ : fs = fs' ∧ disk = disk' := by simpa using mounted.symm.trans mounted'
  obtain ⟨fd, s, opened, -⟩ := opens 0 OpenMode.RD rfl
  have missing : (smallView.service fs disk).lookup (smallView.paths fs disk) (fullPath path) =
      none := by
    simp only [Service.lookup, View.paths, smallView, components_fullPath valid, absent]
  have closed : ¬ (0 : UInt32) &&& Fatfs.O_CREAT = Fatfs.O_CREAT := by decide
  obtain ⟨e, failed⟩ :=
    openFile_failed (b := b) missing (fun creating => absurd creating closed) OpenMode.RD
  rw [failed] at opened
  cases opened

/-- Fifteen files have no space on a disk of sixteen blocks. -/
theorem Small.not_all (fs : Small) : ∃ name ∈ letters, fs.nodes [name] = none := by
  by_contra! all
  let paths := (letters.map fun name => [name]).toFinset
  have present : ∀ path ∈ paths, fs.nodes path ≠ none := by
    intro path member
    obtain ⟨name, letter, rfl⟩ := List.mem_map.mp (List.mem_toFinset.mp member)
    exact all name letter
  have used : paths.card ≤ ∑ path ∈ paths, nodeBlocks (fs.nodes path) := by
    rw [Finset.card_eq_sum_ones]
    refine Finset.sum_le_sum fun path member => ?_
    obtain ⟨node, there⟩ := Option.ne_none_iff_exists'.mp (present path member)
    rw [there]
    cases node with
    | dir => decide
    | file data => exact Nat.le_add_right ..
  have inside : ∑ path ∈ paths, nodeBlocks (fs.nodes path) ≤ ∑ path ∈ fs.held,
      nodeBlocks (fs.nodes path) :=
    Finset.sum_le_sum_of_subset fun path member => fs.only path (present path member)
  have room := fs.room
  rw [blocks] at room
  have count : paths.card = 15 := by decide
  omega

theorem letters_not_kept :
    smallView.Serves smallSfs ∧ Holds smallFat lettersImage (emptyFiles letters) ∧
    ¬ Kept release smallFat smallSfs smallView ⟨some lettersImage, none⟩ (emptyFiles letters) := by
  refine ⟨small_serves, letters_hold, ?_⟩
  rintro ⟨enough, w, -, readable⟩
  have valid : ∀ name ∈ letters, Valid name := by decide
  obtain ⟨fs, disk, mounted, -⟩ := readable ["A"] [] (emptyFiles_has (by decide))
  obtain ⟨name, member, absent⟩ := fs.not_all
  exact nodes_of_readable mounted (by simpa using valid name member)
    (readable [name] [] (emptyFiles_has member)) absent

end Small
end AlloyStack.Sfsfdtab
