import AlloyStack.Sfsfdtab.InitKept

/-! `img2ramfs.rs`: the directories and files of a FAT image are copied into the RAM file system, as
`img2sfs.rs` copies them into the simple one. It keeps files of more than 100 MiB from being read
into memory, and does not resize a file before it writes to it. -/
namespace AlloyStack.Ramfs
open Rust LinearMemory DirectoryTree TreeCopy AlloyStack.Sfsfdtab AlloyStack.Ramdisk

/-- The methods of `INode` that are called on the RAM file system. -/
structure Methods (FS Inode : Type) where
  create : Inode → String → FileType → (mode : Nat) → FS → Except FsError Inode × FS
  find : Inode → String → FS → Except FsError Inode × FS
  writeAt : Inode → (offset : Nat) → List UInt8 → FS → Except FsError Nat × FS

def MAX_FILE : Nat := 100 * 1024 * 1024

section Unpack
variable {FS Inode Dir File : Type} (fat : Fat Dir File) (len : List UInt8 → File → Nat)
  (ramfs : Methods FS Inode) (image : List UInt8)

/-- The directory that the entries of a subdirectory go to, if there is one. -/
def makeDir (ramfsDir : Inode) (name : String) (fs : FS) : Option Inode × FS :=
  match ramfs.create ramfsDir name .dir 0o755 fs with
  | (.ok newDir, fs) => (some newDir, fs)
  | (.error .entryExist, fs) =>
    match ramfs.find ramfsDir name fs with
    | (.ok newDir, fs) => (some newDir, fs)
    | (.error _, fs) => (none, fs)
  | (.error _, fs) => (none, fs)

/-- `len` is the size in the directory entry. -/
def unpackFile (ramfsDir : Inode) (name : String) (fatFile : File) (fs : FS) : FS :=
  if MAX_FILE < len image fatFile then fs
  else match ramfs.create ramfsDir name .file 0o644 fs with
    | (.error _, fs) => fs
    | (.ok newFile, fs) =>
      match fat.readToEnd image fatFile with
      | none => fs
      | some buf => (ramfs.writeAt newFile 0 buf fs).2

def ramfsCopier : Copier FS Inode String Dir File where
  next _ := items fat image
  skips := isDot
  makeDir ramfsDir name fs := some (makeDir ramfs ramfsDir name fs)
  copyFile ramfsDir name fatFile fs :=
    some (unpackFile fat len ramfs image ramfsDir name fatFile fs)

/-- The loop of `unpack_dir_to_ramfs` from a position on. -/
def unpackDirToRamfs (fuel : Nat) (ramfsDir : Inode) (fatDir : Dir) (k : Nat) (fs : FS) :
    Option FS :=
  (ramfsCopier fat len ramfs image).copy fuel ramfsDir fatDir k fs

end Unpack

section Import
variable {FS Inode Dir File : Type} {fat : Fat Dir File} {len : List UInt8 → File → Nat}
  {ramfs : Methods FS Inode}
  {w : TreeCopy.View FS Inode String UInt8} {image : List UInt8} {c : Listing String UInt8}

/-- The calls succeed, and do what they are for. -/
structure Methods.Succeed (ramfs : Methods FS Inode) (w : TreeCopy.View FS Inode String UInt8) :
    Prop where
  create (type : FileType) (mode : Nat) : w.leads fs inode path → w.tree fs path = some .dir →
    Valid name → w.tree fs (path ++ [name]) = none →
    ∃ inode' fs', ramfs.create inode name type mode fs = (.ok inode', fs') ∧
      w.Becomes fs fs' (Function.update (w.tree fs) (path ++ [name]) (some type.node)) ∧
        w.leads fs' inode' (path ++ [name])
  writeAt (offset : Nat) (buf : List UInt8) : w.leads fs inode path →
    w.tree fs path = some (.file data) → offset ≤ data.length →
    ∃ fs', ramfs.writeAt inode offset buf fs = (.ok buf.length, fs') ∧
      w.Becomes fs fs' (Function.update (w.tree fs) path (some (.file (store data offset buf))))

/-- A file that is small enough to be copied. -/
def small (data : List UInt8) : Bool := data.length ≤ MAX_FILE

theorem unpackFile_becomes (succeed : ramfs.Succeed w) (sized : len image file ≤ MAX_FILE)
    (leads : w.leads fs inode path) (isDir : w.tree fs path = some .dir) (valid : Valid name)
    (free : w.tree fs (path ++ [name]) = none) (content : fat.readToEnd image file = some data) :
    w.Becomes fs (unpackFile fat len ramfs image inode name file fs)
      (Function.update (w.tree fs) (path ++ [name]) (some (.file data))) := by
  obtain ⟨newFile, fs₁, created, becomes, leads₁⟩ :=
    succeed.create .file 0o644 leads isDir valid free
  have isFile : w.tree fs₁ (path ++ [name]) = some (.file []) := by
    rw [becomes.tree, Function.update_self, FileType.node]
  obtain ⟨fs₂, written, becomes₂⟩ := succeed.writeAt 0 data leads₁ isFile (Nat.zero_le _)
  have result : unpackFile fat len ramfs image inode name file fs = fs₂ := by
    simp only [unpackFile, if_neg (Nat.not_lt.mpr sized), created, content, written]
  have stored : store [] 0 data = data := by simp [store]
  rw [stored, becomes.tree, Function.update_idem] at becomes₂
  rw [result]
  exact becomes.trans becomes₂

theorem ramfs_faithful (succeed : ramfs.Succeed w)
    (sized : ∀ file data, fat.readToEnd image file = some data → len image file = data.length) :
    (ramfsCopier fat len ramfs image).Faithful w (fun _ => True) (items fat image)
      (fat.readToEnd image) small Valid
      (fun _ => True) where
  next _ := rfl
  named valid := by simp [ramfsCopier, isDot, valid.2.2]
  smaller _ _ := trivial
  makeDir := by
    intro fs inode path name _ leads isDir valid free _
    obtain ⟨newDir, fs', created, becomes, leads'⟩ :=
      succeed.create .dir 0o755 leads isDir valid free
    refine ⟨newDir, fs', ?_, trivial, becomes, leads'⟩
    simp only [ramfsCopier, makeDir, created]
  copyFile := by
    intro fs inode path name file data _ leads isDir valid free content kept _
    have short : len image file ≤ MAX_FILE := by
      rw [sized file data content]
      simpa [small] using kept
    exact ⟨_, rfl, trivial, unpackFile_becomes succeed short leads isDir valid free content⟩
  leaveFile := by
    intro fs file data inode name _ content large
    have long : MAX_FILE < len image file := by
      rw [sized file data content]
      simpa [small] using large
    simp only [ramfsCopier, unpackFile, if_pos long]

theorem unpackDirToRamfs_tree (succeed : ramfs.Succeed w)
    (sized : ∀ file data, fat.readToEnd image file = some data → len image file = data.length)
    (lists : Sfsfdtab.Lists fat image rootDir 0 c) (proper : c.Proper Valid)
    (empty : w.tree fs = root) (leads : w.leads fs inode []) :
    ∃ enough fs', (∀ fuel, enough ≤ fuel →
      unpackDirToRamfs fat len ramfs image fuel inode rootDir 0 fs = some fs') ∧
      w.tree fs' = (c.only small).tree := by
  obtain ⟨fs', ⟨enough, copies⟩, -, becomes⟩ :=
    (ramfs_faithful succeed sized).copy lists.items trivial leads
    (by rw [empty, root, Function.update_self]) proper (by rw [empty]; exact fresh_root c) trivial
  refine ⟨enough, fs', copies, ?_⟩
  rw [becomes.tree, empty]
  exact Listing.onto_root (proper.only small)

theorem unpackDirToSfs_tree (b : Build) {sfs : Sfs FS' Inode'} {v : Sfsfdtab.View FS' Inode'}
    {m : Mounted FS'} (serves : v.Serves sfs)
    (lists : Sfsfdtab.Lists fat m.image.bytes rootDir 0 c) (proper : c.Proper Valid)
    (whole : Whole m.disk) (empty : m.tree v = root) (leads : m.Leads v sfs.rootInode [])
    (fits : v.fits m.disk.size c.tree) :
    ∃ enough m', (∀ fuel, enough ≤ fuel →
      unpackDirToSfs b fat sfs (·.image.bytes) fuel sfs.rootInode rootDir 0 m = some m') ∧
      m'.tree v = c.tree := by
  have copied : c.onto [] root = c.tree := Listing.onto_root proper
  obtain ⟨enough, m', copies, grows⟩ := unpackDirToSfs_grows b serves lists rfl whole leads
    (by rw [empty, root, Function.update_self]) proper (by rw [empty]; exact fresh_root c)
      (by rwa [empty, copied])
  exact ⟨enough, m', copies, by rw [grows.tree, empty, copied]⟩

/-- Both imports of an image end, and both have its tree, but for the large files in the RAM file
system. -/
theorem imports_tree {FS' Inode' : Type} (b : Build) (fat : Fat Dir File)
    (len : List UInt8 → File → Nat) (c : Listing String UInt8) (rootDir : Dir)
    (sfs : Sfs FS' Inode') (v : Sfsfdtab.View FS' Inode') (m : Mounted FS')
    (ramfs : Methods FS Inode) (w : TreeCopy.View FS Inode String UInt8) (fs : FS) (inode : Inode)
    (lists : Sfsfdtab.Lists fat m.image.bytes rootDir 0 c) (proper : c.Proper Valid)
    (sized : ∀ file data, fat.readToEnd m.image.bytes file = some data →
      len m.image.bytes file = data.length)
    (serves : v.Serves sfs) (whole : Whole m.disk) (emptySfs : m.tree v = root)
    (leadsSfs : m.Leads v sfs.rootInode []) (fits : v.fits m.disk.size c.tree)
    (succeed : ramfs.Succeed w) (emptyRamfs : w.tree fs = root) (leadsRamfs : w.leads fs inode []) :
    (∃ enough m', (∀ fuel, enough ≤ fuel →
      unpackDirToSfs b fat sfs (·.image.bytes) fuel sfs.rootInode rootDir 0 m = some m') ∧
      m'.tree v = c.tree) ∧
    ∃ enough fs', (∀ fuel, enough ≤ fuel →
      unpackDirToRamfs fat len ramfs m.image.bytes fuel inode rootDir 0 fs = some fs') ∧
      w.tree fs' = (c.only small).tree :=
  ⟨unpackDirToSfs_tree b serves lists proper whole emptySfs leadsSfs fits,
    unpackDirToRamfs_tree succeed sized lists proper emptyRamfs leadsRamfs⟩

end Import

section Trees

/-- A RAM file system that is its tree, in which a node is known by its path. -/
def plain : Methods Files Path where
  create dir name type _ fs :=
    (.ok (dir ++ [name]), Function.update fs (dir ++ [name]) (some type.node))
  find dir name fs := (if fs (dir ++ [name]) ≠ none then .ok (dir ++ [name]) else .error .other, fs)
  writeAt inode offset buf fs :=
    match fs inode with
    | some (.file data) =>
      (.ok buf.length, Function.update fs inode (some (.file (store data offset buf))))
    | _ => (.error .other, fs)

def plainView : TreeCopy.View Files Path String UInt8 :=
  ⟨fun fs => fs, fun _ inode path => inode = path⟩

theorem plain_succeed : plain.Succeed plainView where
  create := by
    rintro fs dir path name type mode ⟨⟩ - - -
    exact ⟨_, _, rfl, ⟨rfl, fun _ _ leads => leads⟩, rfl⟩
  writeAt := by
    rintro fs inode path data offset buf ⟨⟩ isFile -
    refine ⟨_, ?_, ⟨rfl, fun _ _ leads => leads⟩⟩
    have isFile : fs inode = some (.file data) := isFile
    simp only [plain, isFile]
    rfl

def length (image : List UInt8) (file : Nat × Nat) : Nat := (load image file.1 file.2).length

/-- fatfs as in `smallFat`, on volumes that also have directories of at most one cluster. A
directory below the root is known by its place. -/
def nestedFat : Fat (Option Nat) (Nat × Nat) where
  rootDir image := (smallFat.rootDir image).map fun _ => none
  next image dir k :=
    let entry := load image (dir.getD (rootStart image) + 32 * k) 32
    let cluster := field image 13 1 * field image 11 2
    let entries := if dir = none then field image 17 2 else cluster / 32
    if entries ≤ k ∨ field entry 0 1 = 0 then none
    else
      let place := dataStart image + (field entry 26 2 - 2) * cluster
      some (.ok ⟨.ofList (((entry.take 8).filter (· ≠ 0x20)).map fun byte => Char.ofNat byte.toNat),
        if field entry 11 1 = 0x10 then .inl (if field entry 26 2 = 0 then none else some place)
        else .inr (place, field entry 28 4)⟩)
  readToEnd := smallFat.readToEnd

/-- The entry of a directory, with a name of at most two bytes. -/
def subdirectoryEntry (name : List UInt8) (cluster : Nat) : List UInt8 :=
  name ++ List.replicate (11 - name.length) 0x20 ++ [0x10] ++ List.replicate 14 0 ++
    LittleEndian.encode 2 cluster ++ LittleEndian.encode 4 0

/-- A directory `D`, with the file `A` of two bytes in it. -/
def letter : ImageFile :=
  volume [0xf8, 0xff, 0xff, 0xff, 0xff, 0xff] [subdirectoryEntry [68] 2]
    (padded 512 (subdirectoryEntry [46] 2 ++ subdirectoryEntry [46, 46] 0 ++
      directoryEntry 65 3 2) ++ [104, 105])

def letterFiles : Listing String UInt8 := .dir "D" (.file "A" [104, 105] .nil) .nil

theorem letter_lists : Sfsfdtab.Lists nestedFat letter.bytes none 0 letterFiles := by
  have found : nestedFat.next letter.bytes none 0 = some (.ok ⟨"D", .inl (some 1536)⟩) := by
    decide +kernel
  have dot : nestedFat.next letter.bytes (some 1536) 0 =
      some (.ok ⟨".", .inl (some 1536)⟩) := by decide +kernel
  have dots : nestedFat.next letter.bytes (some 1536) 1 = some (.ok ⟨"..", .inl none⟩) := by
    decide +kernel
  have file : nestedFat.next letter.bytes (some 1536) 2 = some (.ok ⟨"A", .inr (2048, 2)⟩) := by
    decide +kernel
  have content : nestedFat.readToEnd letter.bytes (2048, 2) = some [104, 105] := by decide +kernel
  have noMore : nestedFat.next letter.bytes (some 1536) 3 = none := by decide +kernel
  have ends : nestedFat.next letter.bytes none 1 = none := by decide +kernel
  exact .dir found (.dots dot (.inl rfl) (.dots (k := 1) dots (.inr rfl)
    (.file (k := 2) file content (.done (k := 3) noMore)))) (.done (k := 1) ends)

theorem letter_proper : letterFiles.Proper Valid :=
  ⟨by decide, by decide, ⟨by decide, by decide, trivial⟩, trivial⟩

theorem letter_fits : smallView.fits (alignUp (16 * BLOCK_SIZE)) letterFiles.tree := by
  rw [← Listing.onto_root letter_proper]
  refine ⟨by decide, {[], ["D"], ["D", "A"]}, fun path there => ?_, by decide +kernel⟩
  by_contra outside
  simp only [Finset.mem_insert, Finset.mem_singleton, not_or] at outside
  refine there ?_
  simp only [letterFiles, Listing.onto, List.nil_append, List.cons_append]
  rw [Function.update_of_ne outside.2.2, Function.update_of_ne outside.2.1]
  exact Function.update_of_ne outside.1 ..

def letterMount : Mounted Small :=
  ⟨letter, .new, 16 * BLOCK_SIZE, List.replicate (16 * BLOCK_SIZE) 0, List.length_replicate⟩

theorem letter_imported :
    (∃ enough m', (∀ fuel, enough ≤ fuel →
        unpackDirToSfs release nestedFat smallSfs (·.image.bytes) fuel smallSfs.rootInode
          none 0 letterMount = some m') ∧
      m'.tree smallView = letterFiles.tree) ∧
    ∃ enough fs', (∀ fuel, enough ≤ fuel →
      unpackDirToRamfs nestedFat length plain letter.bytes fuel [] none 0 root = some fs') ∧
      fs' = (letterFiles.only small).tree :=
  imports_tree release nestedFat length letterFiles none smallSfs smallView letterMount plain
    plainView root [] letter_lists letter_proper (fun file data content => by cases content; rfl)
    small_serves ⟨by decide, by decide⟩ rfl rfl letter_fits plain_succeed rfl rfl

/-- A byte more than is copied. -/
def large : List UInt8 := List.replicate (MAX_FILE + 1) 0

/-- fatfs on an image with one file. -/
def largeFat : Fat Unit Unit where
  rootDir _ := some ()
  next _ _ k := if k = 0 then some (.ok ⟨"big", .inr ()⟩) else none
  readToEnd _ _ := some large

def largeFiles : Listing String UInt8 := .file "big" large .nil

def largeLen (_ : List UInt8) (_ : Unit) : Nat := large.length

theorem large_lists : Sfsfdtab.Lists largeFat [] () 0 largeFiles := .file rfl rfl (.done rfl)

theorem large_skipped : largeFiles.only small = .nil := by
  have skipped : small large = false := by rw [small, large, List.length_replicate]; decide
  rw [largeFiles, Listing.only, skipped]
  rfl

theorem large_not_imported :
    Sfsfdtab.Lists largeFat [] () 0 largeFiles ∧ largeFiles.Proper Valid ∧ plain.Succeed plainView ∧
    ¬ ∃ enough fs', (∀ fuel, enough ≤ fuel →
        unpackDirToRamfs largeFat largeLen plain [] fuel [] () 0 root = some fs') ∧
      fs' = largeFiles.tree := by
  have proper : largeFiles.Proper Valid := ⟨by decide, by decide, trivial⟩
  refine ⟨large_lists, proper, plain_succeed, ?_⟩
  rintro ⟨enough, fs, copies, same⟩
  have sized : ∀ file data, largeFat.readToEnd [] file = some data →
      largeLen [] file = data.length := by
    intro file data content
    cases content
    rfl
  obtain ⟨enough', fs', copies', without⟩ :=
    unpackDirToRamfs_tree plain_succeed sized large_lists proper rfl rfl
  have ends := (copies _ (Nat.le_max_left ..)).symm.trans (copies' _ (Nat.le_max_right ..))
  rw [large_skipped] at without
  have there := congrFun (same.symm.trans ((Option.some.inj ends).trans without)) ["big"]
  simp [largeFiles, Listing.tree, Listing.lookup] at there

end Trees
end AlloyStack.Ramfs
