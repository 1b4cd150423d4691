import AlloyStack.Rcore.Descriptors
import AlloyStack.Wasi.Append
import AlloyStack.Wasi.Readdir

/-! The attributes of a file on their way to the guest. `path_filestat_get` takes the type from the
upper bits of the mode and the times from their nanoseconds; `fatfs_stat` leaves the mode at zero,
and the metadata of rcore-fs has the type in a field of its own. -/
namespace AlloyStack.Wasi.FileAttributes
open Rust LinearMemory LittleEndian LockProgram Rcore
open Fdtab (Fd Size)
open Fatfs (Disk Space)

section Records

structure TimeSpec where
  tvSec : Int64
  tvNsec : Int64
  deriving DecidableEq

/-- `Stat` of `as_hostcall`, without the fields for padding. -/
structure Stat where
  stDev : UInt64
  stIno : UInt64
  stNlink : UInt64
  stMode : UInt32
  stUid : UInt32
  stGid : UInt32
  stRdev : UInt64
  stSize : UInt64
  stBlksize : Int64
  stBlocks : Int64
  stAtime : TimeSpec
  stMtime : TimeSpec
  stCtime : TimeSpec
  deriving DecidableEq

/-- The fields that `path_filestat_get` passes on. -/
def passed (stat : Stat) : FileStat where
  dev := stat.stDev
  ino := stat.stIno
  mode := stat.stMode
  nlink := stat.stNlink
  size := stat.stSize
  atimeNsec := stat.stAtime.tvNsec.toUInt64
  mtimeNsec := stat.stMtime.tvNsec.toUInt64
  ctimeNsec := stat.stCtime.tvNsec.toUInt64

/-- What `fatfs_stat` answers for a file of this length. -/
def fatfsStat (stSize : UInt64) : Stat :=
  ⟨0, 0, 0, 0, 0, 0, 0, stSize, 0, 0, ⟨0, 0⟩, ⟨0, 0⟩, ⟨0, 0⟩⟩

/-- A time of rcore-fs. -/
structure Timespec where
  sec : Int64
  nsec : Int32
  deriving DecidableEq

/-- The fields of rcore-fs's metadata that `convert` copies. -/
structure Attributes where
  dev : UInt64
  inode : UInt64
  size : UInt64
  blkSize : UInt64
  blocks : UInt64
  atime : Timespec
  mtime : Timespec
  ctime : Timespec
  mode : UInt16
  nlinks : UInt64
  uid : UInt64
  gid : UInt64
  rdev : UInt64
  deriving DecidableEq

def Timespec.convert (time : Timespec) : TimeSpec := ⟨time.sec, time.nsec.toInt64⟩

def convert (attributes : Attributes) : Stat where
  stDev := attributes.dev
  stIno := attributes.inode
  stNlink := attributes.nlinks
  stMode := attributes.mode.toUInt32
  stUid := attributes.uid.toUInt32
  stGid := attributes.gid.toUInt32
  stRdev := attributes.rdev
  stSize := attributes.size
  stBlksize := attributes.blkSize.toInt64
  stBlocks := attributes.blocks.toInt64
  stAtime := attributes.atime.convert
  stMtime := attributes.mtime.convert
  stCtime := attributes.ctime.convert

/-- A time in nanoseconds. -/
def TimeSpec.nanos (time : TimeSpec) : Int := time.tvSec.toInt * 10 ^ 9 + time.tvNsec.toInt

/-- The guest finds this type in the record at `buf`, and the size and the times of `stat`. -/
structure Reports (memory : Bytes) (buf : Nat) (type : UInt8) (stat : Stat) : Prop where
  filetype : load memory (buf + 16) 1 = [type]
  size : decode (load memory (buf + 32) 8) = stat.stSize.toNat
  atim : (decode (load memory (buf + 40) 8) : Int) = stat.stAtime.nanos
  mtim : (decode (load memory (buf + 48) 8) : Int) = stat.stMtime.nanos
  ctim : (decode (load memory (buf + 56) 8) : Int) = stat.stCtime.nanos

/-- A time that is not lost with its seconds. -/
def TimeSpec.Early (time : TimeSpec) : Prop := time.tvSec = 0 ∧ 0 ≤ time.tvNsec

theorem TimeSpec.nanos_iff (time : TimeSpec) :
    (time.tvNsec.toUInt64.toNat : Int) = time.nanos ↔ time.Early := by
  have seconds : time.tvSec = 0 ↔ time.tvSec.toInt = 0 := by
    rw [← Int64.toInt_inj, Int64.toInt_zero]
  have positive : 0 ≤ time.tvNsec ↔ 0 ≤ time.tvNsec.toInt := by
    rw [Int64.le_iff_toInt_le, Int64.toInt_zero]
  have signed := BitVec.toInt_eq_toNat_cond time.tvNsec.toBitVec
  have small := time.tvNsec.toUInt64.toNat_lt
  rw [Int64.toInt_toBitVec, Int64.toNat_toBitVec] at signed
  rw [Early, seconds, positive, nanos]
  split at signed <;> omega

theorem filestat_length (padding : Nat → UInt8) (stat : FileStat) :
    (filestat padding stat).length = 64 := by
  simp [filestat, pad]

/-- The fields of a record, as the guest reads them. -/
theorem filestat_fields (padding : Nat → UInt8) (stat : FileStat) :
    load (filestat padding stat) 16 1 = [filetype (stat.mode >>> 12)] ∧
      load (filestat padding stat) 32 8 = encode 8 stat.size.toNat ∧
      load (filestat padding stat) 40 8 = encode 8 stat.atimeNsec.toNat ∧
      load (filestat padding stat) 48 8 = encode 8 stat.mtimeNsec.toNat ∧
      load (filestat padding stat) 56 8 = encode 8 stat.ctimeNsec.toNat := by
  have part (front field rest : Bytes) (whole : filestat padding stat = front ++ (field ++ rest)) :
      load (filestat padding stat) front.length field.length = field := by
    rw [whole, load_middle rfl rfl]
  let ids := encode 8 stat.dev.toNat ++ encode 8 stat.ino.toNat
  let links := ids ++ [filetype (stat.mode >>> 12)] ++ pad padding 7 ++ encode 8 stat.nlink.toNat
  have type :=
    part ids [filetype (stat.mode >>> 12)] _ (by simp only [filestat, ids, List.append_assoc]; rfl)
  have size :=
    part links (encode 8 stat.size.toNat) _
      (by simp only [filestat, links, ids, List.append_assoc]; rfl)
  have atim := part (links ++ encode 8 stat.size.toNat) (encode 8 stat.atimeNsec.toNat) _
    (by simp only [filestat, links, ids, List.append_assoc]; rfl)
  have mtim :=
    part (links ++ encode 8 stat.size.toNat ++ encode 8 stat.atimeNsec.toNat)
      (encode 8 stat.mtimeNsec.toNat) _
    (by simp only [filestat, links, ids, List.append_assoc]; rfl)
  have ctim :=
    part (links ++ encode 8 stat.size.toNat ++ encode 8 stat.atimeNsec.toNat ++
      encode 8 stat.mtimeNsec.toNat)
    (encode 8 stat.ctimeNsec.toNat) []
      (by simp only [filestat, links, ids, List.append_assoc, List.append_nil])
  simp only [links, ids, pad, List.length_append, encode_length, List.length_map, List.length_range,
    List.length_cons, List.length_nil] at type size atim mtim ctim
  exact ⟨type, size, atim, mtim, ctim⟩

/-- What the guest finds behind a call, in terms of the `Stat` that the call got. -/
theorem reports_iff (padding : Nat → UInt8) (type : UInt8) (stat : Stat)
    (fits : buf + 64 ≤ memory.length) :
    Reports (store memory buf (filestat padding (passed stat))) buf type stat ↔
      filetype (stat.stMode >>> 12) = type ∧ stat.stAtime.Early ∧ stat.stMtime.Early ∧
        stat.stCtime.Early := by
  have long := filestat_length padding (passed stat)
  have part {shift n : Nat} (inside : shift + n ≤ 64) : load
      (store memory buf (filestat padding (passed stat))) (buf + shift) n =
      load (filestat padding (passed stat)) shift n :=
        load_store_part (by rwa [long]) (by rwa [long])
  have word (value : UInt64) : decode (encode 8 value.toNat) = value.toNat :=
    decode_encode_of_lt value.toNat_lt
  obtain ⟨isType, isSize, isAtim, isMtim, isCtim⟩ := filestat_fields padding (passed stat)
  rw [← TimeSpec.nanos_iff, ← TimeSpec.nanos_iff, ← TimeSpec.nanos_iff]
  constructor
  · intro reports
    refine ⟨?_, ?_, ?_, ?_⟩
    · have found := reports.filetype
      rw [part (by decide), isType] at found
      exact List.singleton_inj.mp found
    · have found := reports.atim
      rwa [part (by decide), isAtim, word] at found
    · have found := reports.mtim
      rwa [part (by decide), isMtim, word] at found
    · have found := reports.ctim
      rwa [part (by decide), isCtim, word] at found
  · rintro ⟨rfl, atim, mtim, ctim⟩
    constructor
    · rw [part (by decide), isType]
      rfl
    · rw [part (by decide), isSize, word]
      rfl
    · rwa [part (by decide), isAtim, word]
    · rwa [part (by decide), isMtim, word]
    · rwa [part (by decide), isCtim, word]

end Records

section Calls

/-- The calls behind a `path_filestat_get` that succeeds, and what it stores. -/
theorem pathFilestatGet_success {σ : Type} {h : Host σ} {w w' : World σ}
    (done : pathFilestatGet h addr pathPtr pathLen buf w = some (.success, w')) :
    ∃ path fd opened stat asked, readString (addr pathPtr) pathLen w.memory = some path ∧
      h.openFile path 0 Fdtab.OpenMode.RD w.libos = some (some fd, opened) ∧
        h.stat fd opened = some (stat, asked) ∧
      addr buf + 64 ≤ w.memory.length ∧
        w'.memory = store w.memory (addr buf) (filestat h.padding stat) := by
  unfold pathFilestatGet at done
  obtain ⟨path, named, done⟩ := Option.bind_eq_some_iff.mp done
  obtain ⟨⟨answer, opened⟩, openedFile, done⟩ := Option.bind_eq_some_iff.mp done
  cases answer with
  | none => simp at done
  | some fd =>
    obtain ⟨⟨stat, asked⟩, stated, done⟩ := Option.bind_eq_some_iff.mp done
    obtain ⟨closed, -, done⟩ := Option.bind_eq_some_iff.mp done
    obtain ⟨memory, written, done⟩ := Option.bind_eq_some_iff.mp done
    cases done
    obtain ⟨fits, rfl⟩ := write_eq_some.mp written
    rw [filestat_length] at fits
    exact ⟨path, fd, opened, stat, asked, named, openedFile, stated, fits, rfl⟩

end Calls

section Fatfs
variable {Name : Type} [DecidableEq Name] (b : Build) (resolve : String → Option Name)
  (stdout : List UInt8 → Size) (space : Space)

/-- The libos with libfdtab and libfatfs, with any padding. -/
def fatfsHost (padding : Nat → UInt8) : Host (Disk Name) :=
  { Append.diskHost b resolve stdout (fun _ => space) with padding }

variable {b resolve stdout space}

/-- A file that fatfs opens is reported as unknown. -/
theorem fatfs_unknown (padding : Nat → UInt8) {w w' : World (Disk Name)}
    (done : pathFilestatGet (fatfsHost b resolve stdout space padding) addr pathPtr pathLen buf w =
      some (.success, w')) :
    load w'.memory (addr buf + 16) 1 = [0] := by
  obtain ⟨path, fd, opened, stat, asked, -, -, stated, fits, stored⟩ := pathFilestatGet_success done
  have mode : stat.mode = 0 := by
    simp only [fatfsHost, Append.diskHost] at stated
    split at stated
    · cases stated
      rfl
    · cases stated
  have long := filestat_length padding stat
  change w'.memory = store w.memory (addr buf) (filestat padding stat) at stored
  rw [stored, load_store_part (by rwa [long]) (by rw [long]; decide),
    (filestat_fields padding stat).1, mode]
  rfl

end Fatfs

section Sfs
variable {I W E Poll : Type}

def entry (number : FileType → UInt32) (found : Rcore.DirEntry) : Wasi.DirEntry :=
  ⟨found.entryName.toUTF8.data.toList, number found.entryType⟩

/-- What a call of the service answers, if it is not an error. -/
def answered (ran : Ran S (Except String α)) : Option (α × S) :=
  ran.outcome.bind fun r => r.1.toOption.map fun value => (value, r.2)

theorem answered_eq_some {ran : Ran S (Except String α)} :
    answered ran = some (value, s) ↔ ran = .done (.ok value) s := by
  rw [answered, Option.bind_eq_some_iff]
  constructor
  · rintro ⟨⟨answer, s'⟩, done, ok⟩
    rw [Ran.outcome_eq_some.mp done]
    cases answer with
    | error e => cases ok
    | ok value => cases ok; rfl
  · rintro rfl
    exact ⟨_, rfl, rfl⟩

/-- The libos with librcore_sfsfdtab. `number` is `as u32` on the types of rcore-fs. -/
def sfsHost (v : Setup I W E Attributes Poll) (number : FileType → UInt32) (padding : Nat → UInt8) :
    Host (Service I W) where
  openFile path flags mode s :=
    (Rcore.openFile v path flags mode [] s).outcome.map fun r => (r.1.toOption, r.2)
  close fd s := answered (Rcore.close v fd [] s) |>.map fun r => r.2
  stat fd s := answered (Rcore.stat v fd [] s) |>.map fun r => (passed (convert r.1), r.2)
  read fd len s :=
    answered (Rcore.read v fd len [] s) |>.map fun r =>
      (⟨r.1.take len, List.length_take_le ..⟩, r.2)
  write fd data s :=
    answered (Rcore.write v fd data [] s) |>.map fun r =>
      (⟨min r.1 data.length, Nat.min_le_right ..⟩, r.2)
  readdir path s :=
    answered (Rcore.readdir v path [] s) |>.map fun r => (r.1.map (entry number), r.2)
  getTime _ := none
  build := v.build
  padding

/-- The same nodes have the same metadata and the same entries. -/
structure Alike (fs : Vfs I W E Attributes Poll) (w w' : W) : Prop where
  metadata : ∀ node, (fs.metadata node w').1 = (fs.metadata node w).1
  find : ∀ dir name, (fs.find dir name w').1 = (fs.find dir name w).1

/-- What is assumed of the file system: to look at it changes nothing. -/
structure Steady (fs : Vfs I W E Attributes Poll) : Prop where
  metadata : ∀ node w, Alike fs w (fs.metadata node w).2.2
  lookup : ∀ root path w, Alike fs w (fs.lookup root path w).2.2
  find : ∀ dir name w, Alike fs w (fs.find dir name w).2.2
  list : ∀ dir w, Alike fs w (fs.list dir w).2.2

variable {v : Setup I W E Attributes Poll} {number : FileType → UInt32} {padding : Nat → UInt8}
  {s ready : Service I W}

theorem Alike.trans {fs : Vfs I W E Attributes Poll} {w w' w'' : W} (first : Alike fs w w')
    (second : Alike fs w' w'') :
    Alike fs w w'' where
  metadata node := (second.metadata node).trans (first.metadata node)
  find dir name := (second.find dir name).trans (first.find dir name)

theorem ensureInit_initDone (ran : ensureInit v [] s = .done () ready) : ready.initDone = true := by
  unfold ensureInit at ran
  simp only [bind_eq, state] at ran
  split at ran
  · rename_i before
    cases ran
    exact before
  · rw [withLock_eq (by simp), bind_eq] at ran
    cases mounted : init v [.initDone] s with
    | done value t =>
      rw [mounted] at ran
      cases ran
      rfl
    | panic =>
      rw [mounted] at ran
      cases ran
    | deadlock =>
      rw [mounted] at ran
      cases ran

theorem ensureInit_again (already : s.initDone = true) : ensureInit v [] s = .done () s := by
  unfold ensureInit
  simp only [bind_eq, state, already, if_true]
  rfl

/-- The state behind an `open` of a path that is found. -/
theorem openFile_found {root node : I} {t : Service I W}
    (ran : ensureInit v [] s = .done () ready) (mounted : ready.globalFs = some root)
    (found : (v.vfs.lookup root path ready.world).1 = .ok node)
    (opened : Rcore.openFile v path flags mode [] s = .done (.ok fd) t) :
    t.initDone = ready.initDone ∧ (∃ file, t.table fd = some file ∧ file.inode = node) ∧
      t.world = (v.vfs.metadata node (v.vfs.lookup root path ready.world).2.2).2.2 := by
  have outer := outerHeld_outer v
  have device : Lock.device ∉ outerHeld v := outer.absent (by decide)
  unfold Rcore.openFile at opened
  rw [exported_eq ran] at opened
  simp only [bind_eq, state, mounted, call_eq device, found] at opened
  rcases allocFd_cases v outer node (readableMode mode) (writableMode mode)
    { ready with
      globalFs := some root,
      world := (v.vfs.metadata node (v.vfs.lookup root path ready.world).2.2).2.2 } with
    ⟨-, panics⟩ | allocated
  · rw [panics] at opened
    cases opened
  · rw [allocated] at opened
    cases opened
    exact ⟨rfl, ⟨_, Function.update_self .., rfl⟩, rfl⟩

theorem stat_found {t : Service I W} (already : t.initDone = true)
    (found : t.table fd = some file) (described : (v.vfs.metadata file.inode t.world).1 = .ok m) :
    Rcore.stat v fd [] t =
      .done (.ok m.stat) { t with world := (v.vfs.metadata file.inode t.world).2.2 } := by
  have outer := outerHeld_outer v
  unfold Rcore.stat getFileWrapper
  rw [exported_eq (ensureInit_again already), bind_eq, withLock_eq (outer.absent (by decide)),
    bind_eq]
  dsimp only [state, pure, Prog.pure]
  rw [found]
  dsimp only
  rw [call_bind (outer.absent (by decide)), described]
  rfl

/-- A file or directory that a path leads to. -/
structure Located (v : Setup I W E Attributes Poll) (s : Service I W) (path : String) where
  ready : Service I W
  root : I
  node : I
  described : Metadata Attributes
  ran : ensureInit v [] s = .done () ready
  mounted : ready.globalFs = some root
  found : (v.vfs.lookup root path ready.world).1 = .ok node
  metadata : (v.vfs.metadata node ready.world).1 = .ok described
  type : described.type = .file ∨ described.type = .dir

theorem sfs_stored (steady : Steady v.vfs) {w w' : World (Service I W)}
    (l : Located v w.libos path) (named : readString (addr pathPtr) pathLen w.memory = some path)
    (done : pathFilestatGet (sfsHost v number padding) addr pathPtr pathLen buf w =
      some (.success, w')) :
    addr buf + 64 ≤ w.memory.length ∧
      w'.memory = store w.memory (addr buf)
        (filestat padding (passed (convert l.described.stat))) := by
  obtain ⟨path', fd, opened, stat, asked, named', openedFile, stated, fits, stored⟩ :=
    pathFilestatGet_success done
  obtain rfl := Option.some.inj (named.symm.trans named')
  refine ⟨fits, ?_⟩
  obtain ⟨⟨answer, t⟩, finished, same⟩ := Option.map_eq_some_iff.mp openedFile
  obtain ⟨isFd, rfl⟩ := Prod.mk.inj same
  obtain rfl : answer = .ok fd := by
    cases answer with
    | error e => cases isFd
    | ok value => cases isFd; rfl
  obtain ⟨already, ⟨file, entered, inode⟩, world⟩ :=
    openFile_found l.ran l.mounted l.found (Ran.outcome_eq_some.mp finished)
  have described : (v.vfs.metadata file.inode t.world).1 = .ok l.described := by
    rw [inode, world, (steady.metadata _ _).metadata, (steady.lookup _ _ _).metadata, l.metadata]
  have asks := stat_found (already.trans (ensureInit_initDone l.ran)) entered described
  obtain ⟨⟨attributes, t'⟩, ran, same⟩ := Option.map_eq_some_iff.mp stated
  cases (answered_eq_some.mp ran).symm.trans asks
  cases same
  exact stored

/-- The loop of `readdir` lists what is behind the names. -/
theorem entries_found (steady : Steady v.vfs) (outer : Outer held) {w : W} {names : List String}
    {t t' : Service I W} (alike : Alike v.vfs w t.world)
    (listed : entries v dir path names held t = .done found t') :
    ∀ e ∈ found, ∃ child m, (v.vfs.find dir e.entryName w).1 = .ok child ∧
      (v.vfs.metadata child w).1 = .ok m ∧
      e.entryType = m.type := by
  have device : Lock.device ∉ held := outer.absent (by decide)
  induction names generalizing t t' found with
  | nil =>
    cases listed
    exact fun _ member => absurd member List.not_mem_nil
  | cons name rest ih =>
    rw [entries, call_bind device] at listed
    have alike₁ := alike.trans (steady.find dir name t.world)
    cases answer : (v.vfs.find dir name t.world).1 with
    | error e =>
      rw [answer] at listed
      exact ih alike₁ listed
    | ok child =>
      rw [answer] at listed
      dsimp only at listed
      rw [call_bind device] at listed
      have alike₂ := alike₁.trans (steady.metadata child (v.vfs.find dir name t.world).2.2)
      cases described : (v.vfs.metadata child (v.vfs.find dir name t.world).2.2).1 with
      | error e =>
        rw [described] at listed
        exact ih alike₂ listed
      | ok m =>
        rw [described] at listed
        dsimp only at listed
        rw [bind_eq] at listed
        split at listed
        · rename_i later t₁ more
          cases listed
          intro e member
          rcases List.mem_cons.mp member with rfl | member
          · exact ⟨child, m, (alike.find _ _).symm.trans answer,
              (alike₁.metadata _).symm.trans described, rfl⟩
          · exact ih alike₂ more e member
        · cases listed
        · cases listed

/-- The call that finds the directory of `readdir`. -/
def opening (v : Setup I W E Attributes Poll) (root : I) (path : String) : Method W (Except E I) :=
  if path.toList.head? = some '/' then v.vfs.lookup root path else v.vfs.find root path

theorem Steady.opening (steady : Steady v.vfs) (root : I) (path : String) (w : W) :
    Alike v.vfs w (FileAttributes.opening v root path w).2.2 := by
  unfold FileAttributes.opening
  split
  · exact steady.lookup root path w
  · exact steady.find root path w

theorem readdir_found {root dir : I} (steady : Steady v.vfs)
    (ran : ensureInit v [] s = .done () ready) (mounted : ready.globalFs = some root)
    (directory : (opening v root path ready.world).1 = .ok dir)
    (listed : Rcore.readdir v path [] s = .done (.ok found) t) :
    ∀ e ∈ found, ∃ child m, (v.vfs.find dir e.entryName ready.world).1 = .ok child ∧
      (v.vfs.metadata child ready.world).1 = .ok m ∧ e.entryType = m.type := by
  have outer := outerHeld_outer v
  have device : Lock.device ∉ outerHeld v := outer.absent (by decide)
  unfold Rcore.readdir at listed
  rw [exported_eq ran, bind_eq] at listed
  dsimp only [state] at listed
  rw [mounted] at listed
  dsimp only at listed
  change (call (opening v root path) >>= _) (outerHeld v) ready = _ at listed
  rw [call_bind device, directory] at listed
  dsimp only at listed
  rw [call_bind device] at listed
  cases answer : (v.vfs.list dir (opening v root path ready.world).2.2).1 with
  | error e =>
    rw [answer] at listed
    cases listed
  | ok names =>
    rw [answer] at listed
    dsimp only at listed
    rw [bind_eq] at listed
    split at listed
    · rename_i walked
      cases listed
      exact entries_found steady outer ((steady.opening _ _ _).trans (steady.list _ _)) walked
    · cases listed
    · cases listed

/-- The directory that has a file or directory as an entry. -/
structure Entered (l : Located v s path) (dirPath name : String) where
  dir : I
  directory : (opening v l.root dirPath l.ready.world).1 = .ok dir
  entered : (v.vfs.find dir name l.ready.world).1 = .ok l.node

/-- The item that `readdir` lists for an entry has the number of its type. -/
theorem listed_number (steady : Steady v.vfs) {l : Located v s path} (e : Entered l dirPath name)
    (listed : (sfsHost v number padding).readdir dirPath s = some (items, t))
    (member : item ∈ items) (same : item.entryName = name.toUTF8.data.toList) :
    item.entryType = number l.described.type := by
  obtain ⟨⟨found, t'⟩, ran, same'⟩ := Option.map_eq_some_iff.mp listed
  cases same'
  obtain ⟨e', inside, rfl⟩ := List.mem_map.mp member
  obtain ⟨child, m, found, described, type⟩ :=
    readdir_found steady l.ran l.mounted e.directory (answered_eq_some.mp ran) e' inside
  obtain rfl : e'.entryName = name := by
    apply String.toByteArray_inj.mp
    exact ByteArray.ext (Array.toList_inj.mp same)
  cases e.entered.symm.trans found
  cases l.metadata.symm.trans described
  exact congrArg number type

/-- The type that a guest knows a node by. -/
def wasiType : FileType → UInt8
  | .dir => 3
  | _ => 4

/-- The number that stands for it in a mode, and in an entry of a directory. -/
def typeBits : FileType → UInt32
  | .dir => 4
  | _ => 8

theorem filetype_iff (bits : UInt32) (type : FileType) :
    filetype bits = wasiType type ↔ bits = typeBits type := by
  have directory : filetype bits = 3 ↔ bits = 4 := by
    unfold filetype
    split <;> simp_all
  have regular : filetype bits = 4 ↔ bits = 8 := by
    unfold filetype
    split <;> simp_all
  cases type
  case dir => exact directory
  all_goals exact regular

/-- A time of rcore-fs that is not lost with its seconds. -/
def Timespec.Early (time : Timespec) : Prop := time.sec = 0 ∧ 0 ≤ time.nsec

theorem Timespec.convert_early (time : Timespec) : time.convert.Early ↔ time.Early := by
  have positive : 0 ≤ time.nsec.toInt64 ↔ 0 ≤ time.nsec := by
    rw [Int64.le_iff_toInt_le, Int32.le_iff_toInt_le, Int32.toInt_toInt64]
    rfl
  rw [TimeSpec.Early, Early, convert, positive]

/-- The mode has the type in its upper bits, and no time has seconds. -/
structure Carried (type : FileType) (attributes : Attributes) : Prop where
  mode : attributes.mode.toUInt32 >>> 12 = typeBits type
  atime : attributes.atime.Early
  mtime : attributes.mtime.Early
  ctime : attributes.ctime.Early

theorem sfs_reports_iff (steady : Steady v.vfs) {w w' : World (Service I W)}
    (l : Located v w.libos path) (named : readString (addr pathPtr) pathLen w.memory = some path)
    (done : pathFilestatGet (sfsHost v number padding) addr pathPtr pathLen buf w =
      some (.success, w')) :
    Reports w'.memory (addr buf) (wasiType l.described.type) (convert l.described.stat) ↔
      Carried l.described.type l.described.stat := by
  obtain ⟨fits, stored⟩ := sfs_stored steady l named done
  rw [stored, reports_iff padding _ _ fits, filetype_iff]
  constructor
  · rintro ⟨mode, atime, mtime, ctime⟩
    exact ⟨mode, (Timespec.convert_early _).mp atime, (Timespec.convert_early _).mp mtime,
      (Timespec.convert_early _).mp ctime⟩
  · rintro ⟨mode, atime, mtime, ctime⟩
    exact ⟨mode, (Timespec.convert_early _).mpr atime, (Timespec.convert_early _).mpr mtime,
      (Timespec.convert_early _).mpr ctime⟩

end Sfs

section Listing
variable {σ : Type} {h : Host σ} {d : Directory}

/-- A guest that lists the directory receives the name, with this type only. -/
def ListedAs (session : Session h d) (name : Bytes) (type : UInt8) : Prop :=
  ∃ calls, ∀ fuel ≥ calls, ∃ received, session.iterate fuel 0 0 = some (received, true) ∧
    (∃ r ∈ received, r.name = name) ∧ ∀ r ∈ received, r.name = name → r.type = type

theorem mem_recordsFrom (cookie : Nat) (items : List Wasi.DirEntry) (r : Record) :
    r ∈ recordsFrom cookie items → ∃ item ∈ items, ∃ next, r = record next item := by
  induction items generalizing cookie with
  | nil => exact fun member => absurd member List.not_mem_nil
  | cons item items ih =>
    intro member
    rw [recordsFrom] at member
    rcases List.mem_cons.mp member with rfl | member
    · exact ⟨item, List.mem_cons_self, _, rfl⟩
    · obtain ⟨item, inside, next, rfl⟩ := ih _ member
      exact ⟨item, List.mem_cons_of_mem _ inside, next, rfl⟩

theorem recordsFrom_mem (cookie : Nat) (member : item ∈ items) :
    ∃ next, record next item ∈ recordsFrom cookie items := by
  induction items generalizing cookie with
  | nil => exact absurd member List.not_mem_nil
  | cons first items ih =>
    rw [recordsFrom]
    rcases List.mem_cons.mp member with rfl | member
    · exact ⟨_, List.mem_cons_self⟩
    · obtain ⟨next, inside⟩ := ih (cookie + 1) member
      exact ⟨next, List.mem_cons_of_mem _ inside⟩

/-- An entry is received with the type that its number stands for. -/
theorem listedAs_iff (session : Session h d) (member : item ∈ d.entries) (type : UInt8) :
    ListedAs session item.entryName type ↔ filetype item.entryType = type := by
  have sorted : item ∈ sortedEntries d.entries :=
    (sortedEntries_perm _).mem_iff.mpr (List.mem_append_left _ member)
  obtain ⟨next, received⟩ := recordsFrom_mem 0 sorted
  constructor
  · rintro ⟨calls, lists⟩
    obtain ⟨all, ran, -, typed⟩ := lists (calls + (sortedEntries d.entries).length + 1) (by omega)
    rw [session.iterate_all (by omega)] at ran
    cases ran
    exact typed _ received rfl
  · rintro rfl
    refine ⟨(sortedEntries d.entries).length + 1,
      fun fuel enough => ⟨_, session.iterate_all enough, ⟨_, received, rfl⟩, ?_⟩⟩
    intro r inside named
    obtain ⟨other, among, next, rfl⟩ := mem_recordsFrom _ _ _ inside
    rw [List.inj_on_of_nodup_map (sortedEntries_nodup d) among sorted named]
    rfl

end Listing

/-- The attributes of a file or directory reach the guest never from fatfs, and from the simple file
system exactly if its mode and its number have the type and its times have no seconds. -/
theorem attributes_iff (padding : Nat → UInt8) (pathPtr pathLen buf : I32) :
    (∀ {Name : Type} [DecidableEq Name] (b : Build) (resolve : String → Option Name)
      (stdout : List UInt8 → Size) (space : Space)
      (w w' : World (Disk Name)) (stat : Stat),
      pathFilestatGet (fatfsHost b resolve stdout space padding) asUsize pathPtr pathLen buf w =
        some (.success, w') →
      ¬ Reports w'.memory (asUsize buf) 4 stat) ∧
    ∀ {I W E Poll : Type} (v : Setup I W E Attributes Poll) (number : FileType → UInt32)
      (path : String)
      (w w' : World (Service I W)) (l : Located v w.libos path), Steady v.vfs →
      readString (asUsize pathPtr) pathLen w.memory = some path →
      pathFilestatGet (sfsHost v number padding) asUsize pathPtr pathLen buf w =
        some (.success, w') →
      (Reports w'.memory (asUsize buf) (wasiType l.described.type) (convert l.described.stat) ↔
        Carried l.described.type l.described.stat) ∧
      ∀ (d : Directory) (session : Session (sfsHost v number padding) d) (dirPath name : String)
        (item : Wasi.DirEntry),
        Entered l dirPath name → pathOf session.fd (session.world 0) = some dirPath →
          (session.world 0).libos = w.libos →
        item ∈ d.entries → item.entryName = name.toUTF8.data.toList →
        (Reports w'.memory (asUsize buf) (wasiType l.described.type) (convert l.described.stat) ∧
            ListedAs session item.entryName (wasiType l.described.type) ↔
          Carried l.described.type l.described.stat ∧
            number l.described.type = typeBits l.described.type) := by
  refine ⟨fun b resolve stdout space w w' stat done reports => ?_,
    fun v number path w w' l steady named done => ?_⟩
  · have found := (fatfs_unknown padding done).symm.trans reports.filetype
    exact absurd found (by decide)
  · have reported := sfs_reports_iff steady l named done
    refine ⟨reported, fun d session dirPath name item entered opened same member called => ?_⟩
    obtain ⟨path', libos, opened', listed⟩ := session.lists 0
    obtain rfl := Option.some.inj (opened.symm.trans opened')
    rw [same] at listed
    rw [reported, listedAs_iff session member, listed_number steady entered listed member called,
      filetype_iff]

/-- A guest that asks for the file `a`. -/
def asking (libos : σ) : World σ := ⟨97 :: List.replicate 79 0, none, fun _ => some "/", libos⟩

def oneOnFat : Disk String := ⟨[], .mounted (Function.update (fun _ => none) "a" (some [104, 105]))⟩

/-- A regular file on fatfs is reported as unknown. -/
theorem fatfs_file_unknown :
    ∃ w', oneOnFat.volume.content "a" = [104, 105] ∧
    pathFilestatGet (fatfsHost debug some (fun _ => 0) ⟨true, 100⟩ (fun _ => 0)) asUsize 0 1 8
      (asking oneOnFat) = some (.success, w') ∧
    ¬ Reports w'.memory (asUsize 8) 4 (fatfsStat 2) :=
  ⟨_, rfl, rfl, fun reports => absurd reports.filetype (by decide)⟩

/-- A root directory with the file `a`, as nodes `false` and `true`. -/
def oneNode : Vfs Bool Unit Unit Attributes Unit where
  mount w := (some false, 0, w)
  readAt _ _ _ w := (.ok [], 0, w)
  writeAt _ _ _ w := (.error (), 0, w)
  metadata node w :=
    (.ok ⟨if node then .file else .dir, 1,
      ⟨0, 1, 2, 4096, 1, ⟨0, 0⟩, ⟨0, 0⟩, ⟨0, 0⟩, 0o777, 1, 0, 0, 0⟩⟩, 0, w)
  lookup _ path w :=
    (if path = "/" then .ok false else if path = "a" then .ok true else .error (), 0, w)
  find dir name w := (if !dir && name = "a" then .ok true else .error (), 0, w)
  list _ w := (.ok ["a"], 0, w)
  create _ _ _ _ w := (.error (), 0, w)
  link _ _ _ w := (.error (), 0, w)
  unlink _ _ w := (.error (), 0, w)
  move _ _ _ _ w := (.error (), 0, w)
  setMetadata _ _ w := (.error (), 0, w)
  syncAll _ w := (.ok (), 0, w)
  syncData _ w := (.ok (), 0, w)
  poll _ w := (.ok (), 0, w)
  invalidParam := ()
  debug _ := "InvalidParam"

theorem oneNode_steady : Steady oneNode where
  metadata _ _ := ⟨fun _ => rfl, fun _ _ => rfl⟩
  lookup _ _ _ := ⟨fun _ => rfl, fun _ _ => rfl⟩
  find _ _ _ := ⟨fun _ => rfl, fun _ _ => rfl⟩
  list _ _ := ⟨fun _ => rfl, fun _ _ => rfl⟩

def oneSetup : Setup Bool Unit Unit Attributes Unit := ⟨.sfs, debug, false, oneNode, List.length⟩

def oneService : Service Bool Unit := ⟨fun _ => none, 3, true, some false, ()⟩

/-- The types in their order. -/
def inOrder : FileType → UInt32
  | .file => 0
  | .dir => 1
  | .symLink => 2
  | .charDevice => 3
  | .blockDevice => 4
  | .namedPipe => 5
  | .socket => 6

def oneLocated : Located oneSetup oneService "a" where
  ready := oneService
  root := false
  node := true
  described := ⟨.file, 1, 0, 1, 2, 4096, 1, ⟨0, 0⟩, ⟨0, 0⟩, ⟨0, 0⟩, 0o777, 1, 0, 0, 0⟩
  ran := rfl
  mounted := rfl
  found := rfl
  metadata := rfl
  type := .inl rfl

def oneEntry : Directory := ⟨[⟨[97], 0⟩], by decide, by decide, by decide⟩

def oneSession : Session (sfsHost oneSetup inOrder fun _ => 0) oneEntry where
  fd := 4
  buf := 8
  bufLen := 32
  bufused := 48
  world _ := asking oneService
  lists _ := ⟨"/", oneService, rfl, rfl⟩
  large := by decide
  short := by decide
  placed _ := by decide
  below := by decide
  counted _ := by decide
  low := by decide
  apart := by decide
  addressed _ := by decide

/-- The file `a` on both file systems. -/
theorem file_unknown :
    (∃ w', pathFilestatGet (fatfsHost debug some (fun _ => 0) ⟨true, 100⟩ fun _ => 0) asUsize 0 1 8
      (asking oneOnFat) = some (.success, w') ∧
      ¬ Reports w'.memory (asUsize 8) 4 (fatfsStat 2)) ∧
    ∃ w', pathFilestatGet (sfsHost oneSetup inOrder fun _ => 0) asUsize 0 1 8 (asking oneService) =
      some (.success, w') ∧
      (Reports w'.memory (asUsize 8) 4 (convert oneLocated.described.stat) ∧
        ListedAs oneSession [97] 4 ↔
        Carried .file oneLocated.described.stat ∧ inOrder .file = 8) := by
  have attributes := attributes_iff (fun _ => 0) 0 1 8
  refine ⟨⟨_, rfl, attributes.1 debug some (fun _ => 0) ⟨true, 100⟩ (asking oneOnFat) _ _ rfl⟩, _,
    rfl, ?_⟩
  exact (attributes.2 oneSetup inOrder "a"
    (asking oneService) _ oneLocated oneNode_steady rfl rfl).2
    oneEntry oneSession "/" "a" ⟨[97], 0⟩ ⟨false, rfl, rfl⟩ rfl rfl (by decide) rfl

end AlloyStack.Wasi.FileAttributes
