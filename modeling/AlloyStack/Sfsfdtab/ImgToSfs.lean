import AlloyStack.Sfsfdtab.Device
import Mathlib.Logic.Relation

/-! `img2sfs.rs`: the directories and files of a FAT image are copied into the simple file system,
one entry after the other. The fatfs crate and the rcore-fs crates are parameters: the first reads
the image, the second is a program on its device. An error is printed and the entry skipped. -/
namespace AlloyStack.Sfsfdtab
open Rust AlloyStack.Ramdisk

/-- `FsError`, as far as it is told apart. -/
inductive FsError where
  | entryExist
  | noDeviceSpace
  | other
  deriving DecidableEq, Repr

inductive FileType where
  | file
  | dir
  deriving DecidableEq, Repr

/-- A directory entry of the image: its `file_name`, and a directory or else a file. -/
structure Entry (Dir File : Type) where
  name : String
  node : Dir ⊕ File
  deriving DecidableEq

/-- The fatfs crate on the bytes of an image, with `none` for the errors of `new` and `read_to_end`.
`next` is the item of `iter` at a position. -/
structure Fat (Dir File : Type) where
  rootDir : List UInt8 → Option Dir
  next : List UInt8 → Dir → Nat → Option (Except Unit (Entry Dir File))
  readToEnd : List UInt8 → File → Option (List UInt8)

/-- The simple file system behind its mount: `SimpleFileSystem::create`, and methods of `INode`. -/
structure Sfs (FS Inode : Type) where
  create : (space : Nat) → Program (Except FsError FS)
  rootInode : Inode
  inodeCreate : Inode → String → FileType → (mode : Nat) → FS → Program (Except FsError Inode × FS)
  find : Inode → String → FS → Program (Except FsError Inode × FS)
  resize : Inode → (len : Nat) → FS → Program (Except FsError Unit × FS)
  writeAt : Inode → (offset : Nat) → List UInt8 → FS → Program (Except FsError Nat × FS)

/-- The image file: its bytes, and whether it can be opened. -/
structure ImageFile where
  bytes : List UInt8
  opens : Bool

/-- The image, the mounted file system and the disk under it. -/
structure Mounted (FS : Type) where
  image : ImageFile
  fs : FS
  disk : Memory

/-- A method of the file system. In all results `none` is a panic. -/
def Mounted.call (b : Build) (m : Mounted FS) (method : FS → Program (α × FS)) :
    Option (α × Mounted FS) :=
  ((method m.fs).run b m.disk).map fun ((value, fs), disk) => (value, { m with fs, disk })

section Unpack
variable {FS Inode Dir File : Type} (b : Build) (fat : Fat Dir File) (sfs : Sfs FS Inode)

/-- The directory that the entries of a subdirectory go to, if there is one. -/
def makeDir (sfsDir : Inode) (name : String) (m : Mounted FS) :
    Option (Option Inode × Mounted FS) :=
  (m.call b (sfs.inodeCreate sfsDir name .dir 0o755)).bind fun
    | (.ok newDir, m) => some (some newDir, m)
    | (.error .entryExist, m) => (m.call b (sfs.find sfsDir name)).map fun
      | (.ok newDir, m) => (some newDir, m)
      | (.error _, m) => (none, m)
    | (.error _, m) => some (none, m)

/-- `bytes` are those that the open image file gives. -/
def unpackFile (bytes : Mounted FS → List UInt8) (sfsDir : Inode) (name : String) (fatFile : File)
    (m : Mounted FS) :
    Option (Mounted FS) :=
  (m.call b (sfs.inodeCreate sfsDir name .file 0o644)).bind fun
    | (.error _, m) => some m
    | (.ok newFile, m) =>
      match fat.readToEnd (bytes m) fatFile with
      | none => some m
      | some buf => (m.call b (sfs.resize newFile buf.length)).bind fun
        | (.error _, m) => some m
        | (.ok (), m) => (m.call b (sfs.writeAt newFile 0 buf)).map (·.2)

/-- The loop of `unpack_dir_to_sfs` from a position on, whose result is always `Ok`. The directories
of a damaged image may form a cycle; without fuel the result is `none` as well. -/
def unpackDirToSfs (bytes : Mounted FS → List UInt8) :
    (fuel : Nat) → Inode → Dir → (k : Nat) → Mounted FS →
    Option (Mounted FS)
  | 0, _, _, _, _ => none
  | fuel + 1, sfsDir, fatDir, k, m =>
    match fat.next (bytes m) fatDir k with
    | none => some m
    | some (.error _) => unpackDirToSfs bytes fuel sfsDir fatDir (k + 1) m
    | some (.ok entry) =>
      if entry.name = "." ∨ entry.name = ".." then unpackDirToSfs bytes fuel sfsDir fatDir (k + 1) m
      else match entry.node with
        | .inl dir => (makeDir b sfs sfsDir entry.name m).bind fun
          | (some newDir, m) =>
            (unpackDirToSfs bytes fuel newDir dir 0 m).bind
              (unpackDirToSfs bytes fuel sfsDir fatDir (k + 1))
          | (none, m) => unpackDirToSfs bytes fuel sfsDir fatDir (k + 1) m
        | .inr file => (unpackFile b fat sfs bytes sfsDir entry.name file m).bind
          (unpackDirToSfs bytes fuel sfsDir fatDir (k + 1))

def imgToSfsBridge (bytes : Mounted FS → List UInt8) (fuel : Nat) (m : Mounted FS) :
    Option (Mounted FS) :=
  if !m.image.opens then some m
  else match fat.rootDir (bytes m) with
    | none => some m
    | some rootDir => unpackDirToSfs b fat sfs bytes fuel sfs.rootInode rootDir 0 m

end Unpack

section Reached
variable {FS Inode Dir File : Type} {b : Build} {fat : Fat Dir File} {sfs : Sfs FS Inode}
  {bytes bytes' : Mounted FS → List UInt8}

/-- One call that the copying makes of the file system. -/
inductive Sfs.Call (b : Build) (sfs : Sfs FS Inode) (m m' : Mounted FS) : Prop where
  | inodeCreate (answer : m.call b (sfs.inodeCreate inode name type mode) = some (result, m'))
  | find (answer : m.call b (sfs.find inode name) = some (result, m'))
  | resize (answer : m.call b (sfs.resize inode len) = some (result, m'))
  | writeAt (answer : m.call b (sfs.writeAt inode offset buf) = some (result, m'))

abbrev Sfs.Reaches (b : Build) (sfs : Sfs FS Inode) : Mounted FS → Mounted FS → Prop :=
  Relation.ReflTransGen (sfs.Call b)

theorem Mounted.call_image {method : FS → Program (α × FS)} {m m' : Mounted FS}
    (answer : m.call b method = some (value, m')) :
    m'.image = m.image := by
  obtain ⟨_, -, same⟩ := Option.map_eq_some_iff.mp answer
  exact (congrArg (·.2.image) same).symm

/-- No call of the file system touches the image. -/
theorem Sfs.Reaches.image {m m' : Mounted FS} (reaches : sfs.Reaches b m m') :
    m'.image = m.image := by
  induction reaches with
  | refl => rfl
  | tail _ step ih =>
    rw [← ih]
    cases step with
    | inodeCreate answer => exact Mounted.call_image answer
    | find answer => exact Mounted.call_image answer
    | resize answer => exact Mounted.call_image answer
    | writeAt answer => exact Mounted.call_image answer

theorem makeDir_reaches {m m' : Mounted FS}
    (made : makeDir b sfs sfsDir name m = some (result, m')) : sfs.Reaches b m m' := by
  obtain ⟨⟨created, m₁⟩, answer, rest⟩ := Option.bind_eq_some_iff.mp made
  refine .head (.inodeCreate answer) ?_
  cases created with
  | ok newDir =>
    cases rest
    exact .refl
  | error e =>
    cases e with
    | entryExist =>
      obtain ⟨⟨found, m₂⟩, answer', rest⟩ := Option.map_eq_some_iff.mp rest
      cases found <;> cases rest <;> exact .single (.find answer')
    | noDeviceSpace | other =>
      cases rest
      exact .refl

theorem unpackFile_reaches {m m' : Mounted FS}
    (unpacked : unpackFile b fat sfs bytes sfsDir name file m = some m') :
    sfs.Reaches b m m' := by
  obtain ⟨⟨created, m₁⟩, answer, rest⟩ := Option.bind_eq_some_iff.mp unpacked
  refine .head (.inodeCreate answer) ?_
  cases created with
  | error e =>
    cases rest
    exact .refl
  | ok newFile =>
    dsimp only at rest
    split at rest
    · cases rest
      exact .refl
    obtain ⟨⟨resized, m₂⟩, answer', rest⟩ := Option.bind_eq_some_iff.mp rest
    refine .head (.resize answer') ?_
    cases resized with
    | error e =>
      cases rest
      exact .refl
    | ok done =>
      obtain ⟨⟨written, m₃⟩, answer'', rfl⟩ := Option.map_eq_some_iff.mp rest
      exact .single (.writeAt answer'')

theorem unpackDirToSfs_reaches {m m' : Mounted FS}
    (unpacked : unpackDirToSfs b fat sfs bytes fuel sfsDir fatDir k m = some m') :
    sfs.Reaches b m m' := by
  induction fuel generalizing sfsDir fatDir k m m' with
  | zero => cases unpacked
  | succ fuel ih =>
    unfold unpackDirToSfs at unpacked
    split at unpacked
    · cases unpacked
      exact .refl
    · exact ih unpacked
    split at unpacked
    · exact ih unpacked
    split at unpacked
    · obtain ⟨⟨newDir, m₁⟩, made, rest⟩ := Option.bind_eq_some_iff.mp unpacked
      refine (makeDir_reaches made).trans ?_
      cases newDir with
      | none => exact ih rest
      | some newDir =>
        obtain ⟨m₂, inner, rest⟩ := Option.bind_eq_some_iff.mp rest
        exact (ih inner).trans (ih rest)
    · obtain ⟨m₁, copied, rest⟩ := Option.bind_eq_some_iff.mp unpacked
      exact (unpackFile_reaches copied).trans (ih rest)

theorem imgToSfsBridge_reaches {m m' : Mounted FS}
    (bridged : imgToSfsBridge b fat sfs bytes fuel m = some m') :
    sfs.Reaches b m m' := by
  unfold imgToSfsBridge at bridged
  split at bridged
  · cases bridged
    exact .refl
  split at bridged
  · cases bridged
    exact .refl
  · exact unpackDirToSfs_reaches bridged

/-- The copying does the same for two readings of the image that agree wherever it gets. -/
theorem unpackFile_congr {m : Mounted FS}
    (agree : ∀ m', sfs.Reaches b m m' → bytes m' = bytes' m') (sfsDir : Inode) (name : String)
    (file : File) :
    unpackFile b fat sfs bytes sfsDir name file m =
      unpackFile b fat sfs bytes' sfsDir name file m := by
  refine Option.bind_congr ?_
  rintro ⟨created, m₁⟩ answer
  cases created with
  | error e => rfl
  | ok newFile =>
    dsimp only
    rw [agree m₁ (.single (.inodeCreate answer))]

theorem unpackDirToSfs_congr {m : Mounted FS}
    (agree : ∀ m', sfs.Reaches b m m' → bytes m' = bytes' m') (fuel : Nat) (sfsDir : Inode)
    (fatDir : Dir) (k : Nat) :
    unpackDirToSfs b fat sfs bytes fuel sfsDir fatDir k m =
      unpackDirToSfs b fat sfs bytes' fuel sfsDir fatDir k m := by
  induction fuel generalizing sfsDir fatDir k m with
  | zero => rfl
  | succ fuel ih =>
    have later {m₁ : Mounted FS} (reaches : sfs.Reaches b m m₁) (sfsDir : Inode) (fatDir : Dir)
        (k : Nat) :=
      ih (fun m' rest => agree m' (reaches.trans rest)) sfsDir fatDir k
    unfold unpackDirToSfs
    rw [agree m .refl]
    split
    · rfl
    · exact later .refl ..
    split
    · exact later .refl ..
    split
    · refine Option.bind_congr ?_
      rintro ⟨newDir, m₁⟩ made
      have reaches := makeDir_reaches made
      cases newDir with
      | none => exact later reaches ..
      | some newDir =>
        dsimp only
        rw [later reaches]
        exact Option.bind_congr fun m₂ inner =>
          later (reaches.trans (unpackDirToSfs_reaches inner)) ..
    · rw [unpackFile_congr agree]
      exact Option.bind_congr fun m₁ copied => later (unpackFile_reaches copied) ..

theorem imgToSfsBridge_congr {m : Mounted FS}
    (agree : ∀ m', sfs.Reaches b m m' → bytes m' = bytes' m') (fuel : Nat) :
    imgToSfsBridge b fat sfs bytes fuel m = imgToSfsBridge b fat sfs bytes' fuel m := by
  unfold imgToSfsBridge
  rw [agree m .refl]
  simp only [unpackDirToSfs_congr agree]

end Reached
end AlloyStack.Sfsfdtab
