import AlloyStack.Ext4fdtab.Apis
import AlloyStack.Library.Transition

/-! The size that `stat` of `ext4fdtab` reports. Reads and writes go to the file system by the
number of the inode, and `stat` looks at the copy of the inode that was made when the descriptor was
opened. -/
namespace AlloyStack.Ext4fdtab
open Rust AlloyStack.Fdtab Transition

/-- What is assumed of `ext4_rs`: the sizes of the stored inodes, and what the methods do to them. A
write that fails may have added to the file. -/
structure Sizes {F E Inode Stat : Type} (v : Setup F E Inode Stat) where
  size : UInt32 → F → Nat
  stSize : Stat → Nat
  numbered : ∀ num fs, (v.ext4.getInodeRef num fs).inodeNum = num
  copied : ∀ num fs, stSize (v.ext4.fromInodeRef (v.ext4.getInodeRef num fs)) = size num fs
  opened : ∀ path fs num, size num (v.ext4.fileOpen path "r" fs).2 = size num fs
  grows : ∀ num offset buf fs, size num fs ≤ size num (v.ext4.writeAt num offset buf fs).2
  other : ∀ num offset buf fs m, m ≠ num → size m (v.ext4.writeAt num offset buf fs).2 = size m fs
  written : ∀ num offset buf fs len fs', v.ext4.writeAt num offset buf fs = (.ok len, fs') →
    size num fs' = if len = 0 then size num fs else max (size num fs) (offset + len)

section Runs
variable {F E Inode Stat : Type} {v : Setup F E Inode Stat} (z : Sizes v)

/-- The size of the file of a descriptor. -/
def Service.sizeOf (s : Service F Inode) (fd : Fd) : Option Nat := do
  let file ← s.table fd
  let fs ← s.globalFs
  some (z.size file.inodeRef.inodeNum fs)

inductive Op where
  | openFile (path : String) (flags mode : UInt32)
  | write (fd : Fd) (buf : List UInt8)
  | lseek (fd : Fd) (pos : UInt32)
  | stat (fd : Fd)

/-- The service, with two things that it does not know: which descriptors have seen their file grow,
and for each inode the largest end of what was written to it. -/
structure Watched (F Inode : Type) where
  service : Service F Inode
  grown : Fd → Prop
  ends : UInt32 → Nat

/-- The end of the bytes that an answered write has written, if any. -/
def written (s : Service F Inode) (fd : Fd) (answer : Except Error Size) (num : UInt32) : Nat :=
  match answer, s.table fd with
  | .ok len, some file =>
    if fd ≠ 1 ∧ fd ≠ 2 ∧ len ≠ 0 ∧ file.inodeRef.inodeNum = num then file.offset + len else 0
  | _, _ => 0

inductive StatStep : Watched F Inode → Op → Watched F Inode → Prop where
  | opened : openFile v path flags mode w.service = some (.ok fd, s) →
      StatStep w (.openFile path flags mode) ⟨s, Function.update w.grown fd False, w.ends⟩
  | unopened : openFile v path flags mode w.service = some (.error e, s) →
      StatStep w (.openFile path flags mode) ⟨s, w.grown, w.ends⟩
  | write : write v fd buf w.service = some (answer, s) →
      StatStep w (.write fd buf)
        ⟨s, fun other => w.grown other ∨ s.sizeOf z other ≠ w.service.sizeOf z other,
        fun num => max (w.ends num) (written w.service fd answer num)⟩
  | lseek : lseek v fd pos w.service = some (answer, s) →
    StatStep w (.lseek fd pos) ⟨s, w.grown, w.ends⟩
  | stat : stat v fd w.service = some (answer, s) → StatStep w (.stat fd) ⟨s, w.grown, w.ends⟩

/-- A `stat` that answers reports the size of the file, which no write went beyond. -/
def SeesWrites (w : Watched F Inode) (op : Op) (_ : Watched F Inode) : Prop :=
  ∀ fd file st s, op = .stat fd → w.service.table fd = some file →
    stat v fd w.service = some (.ok st, s) →
    w.service.sizeOf z fd = some (z.stSize st) ∧ w.ends file.inodeRef.inodeNum ≤ z.stSize st

/-- The file of the descriptor of a `stat` has not grown since the descriptor was opened. -/
def Fresh (w : Watched F Inode) (op : Op) (_ : Watched F Inode) : Prop :=
  ∀ fd file, op = .stat fd → w.service.table fd = some file → ¬ w.grown fd

end Runs

section Steps
variable {F E Inode Stat : Type} {v : Setup F E Inode Stat} {z : Sizes v} {s t : Service F Inode}
  {w w' : Watched F Inode}

/-- What a descriptor has copied is what its file was, and it has grown exactly if it is not that
any more. No write went beyond the end of a file. -/
structure Watched.Sound (z : Sizes v) (w : Watched F Inode) : Prop where
  copies : ∀ fd file, w.service.table fd = some file → ∃ fs, w.service.globalFs = some fs ∧
    z.stSize (v.ext4.fromInodeRef file.inodeRef) ≤ z.size file.inodeRef.inodeNum fs ∧
    (w.grown fd ↔ z.stSize (v.ext4.fromInodeRef file.inodeRef) ≠ z.size file.inodeRef.inodeNum fs)
  ends : ∀ fs num, w.service.globalFs = some fs → w.ends num ≤ z.size num fs
  untouched : w.service.initDone = false → w.service.table = (fun _ => none) ∧ ∀ num, w.ends num = 0

theorem sound_initial (z : Sizes v) : Watched.Sound z ⟨.initial, fun _ => False, fun _ => 0⟩ where
  copies fd file found := by simp [Service.initial] at found
  ends fs num found := by simp [Service.initial] at found
  untouched _ := ⟨rfl, fun _ => rfl⟩

theorem sound_ensureInit (sound : w.Sound z) :
    Watched.Sound z ⟨ensureInit v w.service, w.grown, w.ends⟩ := by
  unfold ensureInit
  split
  next => exact sound
  next untouched =>
    obtain ⟨table, ends⟩ := sound.untouched (by simpa using untouched)
    refine ⟨fun fd file found => ?_, fun fs num _ => ?_, by simp⟩
    · simp [table] at found
    · simp [ends num]

theorem ensureInit_table (v : Setup F E Inode Stat) (s : Service F Inode) :
    (ensureInit v s).table = s.table := by
  unfold ensureInit
  split <;> rfl

theorem ensureInit_done (v : Setup F E Inode Stat) (s : Service F Inode) :
    (ensureInit v s).initDone = true := by
  unfold ensureInit
  split
  next done => exact done
  next => rfl

/-- What a write to a file does: the descriptor keeps its copy, and the rest is up to `write_at`. -/
structure Wrote (v : Setup F E Inode Stat) (fd : Fd) (buf : List UInt8) (s : Service F Inode)
    (answer : Except Error Size) (t : Service F Inode) (file : FileWrapper Inode) (fs fs' : F) :
    Prop where
  found : s.table fd = some file
  before : s.globalFs = some fs
  after : t.globalFs = some fs'
  done : t.initDone = s.initDone
  table : ∀ other, (t.table other).map FileWrapper.inodeRef =
    (s.table other).map FileWrapper.inodeRef
  effect : fs' = fs ∨ fs' = (v.ext4.writeAt file.inodeRef.inodeNum file.offset buf fs).2
  answered : ∀ len, answer = .ok len →
    v.ext4.writeAt file.inodeRef.inodeNum file.offset buf fs = (.ok len, fs')

theorem written_standard (standard : fd = 1 ∨ fd = 2) (answer : Except Error Size) (num : UInt32) :
    written s fd answer num = 0 := by
  unfold written
  split
  next => exact if_neg fun file => standard.elim file.1 file.2.1
  next => rfl

/-- Everything that `FileWrapper::write` can do. -/
theorem fileWrite_cases (wrote : FileWrapper.write v file buf fs = some (result, fs')) :
    (fs' = fs ∨ fs' = (v.ext4.writeAt file.inodeRef.inodeNum file.offset buf fs).2) ∧
      ∀ len file', result = .ok (len, file') → file'.inodeRef = file.inodeRef ∧
        v.ext4.writeAt file.inodeRef.inodeNum file.offset buf fs = (.ok len, fs') := by
  unfold FileWrapper.write at wrote
  split at wrote
  next =>
    obtain ⟨rfl, rfl⟩ := Prod.mk.inj (Option.some.inj wrote)
    exact ⟨.inl rfl, by simp⟩
  next =>
    split at wrote
    next e after failed =>
      obtain ⟨rfl, rfl⟩ := Prod.mk.inj (Option.some.inj wrote)
      exact ⟨.inr (by rw [failed]), by simp⟩
    next len after succeeded =>
      obtain ⟨offset, -, wrote⟩ := Option.map_eq_some_iff.mp wrote
      obtain ⟨rfl, rfl⟩ := Prod.mk.inj wrote
      refine ⟨.inr (by rw [succeeded]), fun len' file' same => ?_⟩
      obtain ⟨rfl, rfl⟩ := Prod.mk.inj (Except.ok.inj same)
      exact ⟨rfl, succeeded⟩

/-- Everything that a write can do. -/
theorem write_cases (wrote : write v fd buf s = some (answer, t)) :
    (t = ensureInit v s ∧ ∀ num, written s fd answer num = 0) ∨
      (fd ≠ 1 ∧ fd ≠ 2) ∧ ∃ file fs fs', Wrote v fd buf (ensureInit v s) answer t file fs fs' := by
  unfold write at wrote
  split at wrote
  next standard =>
    obtain ⟨rfl, rfl⟩ := Prod.mk.inj (Option.some.inj wrote)
    exact .inl ⟨rfl, fun num => written_standard standard _ num⟩
  next standard =>
    unfold onFile at wrote
    split at wrote
    next missing =>
      obtain ⟨rfl, rfl⟩ := Prod.mk.inj (Option.some.inj wrote)
      exact .inl ⟨rfl, fun num => rfl⟩
    next file found =>
      simp only [Option.bind_eq_some_iff, Option.map_eq_some_iff] at wrote
      obtain ⟨fs, before, ⟨result, fs'⟩, body, wrote⟩ := wrote
      obtain ⟨effect, answered⟩ := fileWrite_cases body
      refine .inr ⟨not_or.mp standard, file, fs, fs', ?_⟩
      cases result with
      | error e =>
        obtain ⟨rfl, rfl⟩ := Prod.mk.inj wrote
        exact ⟨found, before, rfl, rfl, fun _ => rfl, effect, by simp⟩
      | ok pair =>
        obtain ⟨rfl, rfl⟩ := Prod.mk.inj wrote
        obtain ⟨same, succeeded⟩ := answered pair.1 pair.2 rfl
        refine ⟨found, before, rfl, rfl, fun other => ?_, effect, ?_⟩
        · by_cases own : other = fd
          · simp [own, found, same]
          · simp [own]
        · rintro len ⟨⟩
          exact succeeded

theorem sizeOf_congr (after : t.globalFs = some fs)
    (copies : (t.table fd).map FileWrapper.inodeRef = some ref) :
    t.sizeOf z fd = some (z.size ref.inodeNum fs) := by
  obtain ⟨file, found, rfl⟩ := Option.map_eq_some_iff.mp copies
  simp [Service.sizeOf, found, after]

theorem Wrote.size_le (wrote : Wrote v fd buf s answer t file fs fs') (num : UInt32) :
    z.size num fs ≤ z.size num fs' := by
  rcases wrote.effect with rfl | rfl
  · exact Nat.le_refl _
  · by_cases own : num = file.inodeRef.inodeNum
    · rw [own]
      exact z.grows ..
    · rw [z.other _ _ _ _ _ own]

/-- What an answered write has written is in the file. -/
theorem Wrote.written_le (wrote : Wrote v fd buf s answer t file fs fs') (num : UInt32) :
    written s fd answer num ≤ z.size num fs' := by
  unfold written
  split
  next len file' found =>
    split
    next writes =>
      obtain rfl : file' = file := Option.some.inj (found.symm.trans wrote.found)
      obtain ⟨-, -, some', rfl⟩ := writes
      rw [z.written _ _ _ _ _ _ (wrote.answered len rfl), if_neg some']
      exact Nat.le_max_right ..
    next => exact Nat.zero_le _
  next => exact Nat.zero_le _

theorem sizeOf_ensureInit (sound : w.Sound z) (fd : Fd) :
    (ensureInit v w.service).sizeOf z fd = w.service.sizeOf z fd := by
  unfold ensureInit
  split
  next => rfl
  next untouched =>
    have table := (sound.untouched (by simpa using untouched)).1
    simp [Service.sizeOf, table]

theorem sound_write (sound : w.Sound z) (wrote : write v fd buf w.service = some (answer, t)) :
    Watched.Sound z ⟨t, fun other => w.grown other ∨ t.sizeOf z other ≠ w.service.sizeOf z other,
      fun num => max (w.ends num) (written w.service fd answer num)⟩ := by
  have started := sound_ensureInit sound
  rcases write_cases wrote with ⟨rfl, nothing⟩ | ⟨-, file, fs, fs', wrote⟩
  · refine ⟨fun other file found => ?_, fun fs num present => ?_, fun untouched => ?_⟩
    · simpa [sizeOf_ensureInit sound] using started.copies other file found
    · simpa [nothing] using started.ends fs num present
    · simp [ensureInit_done] at untouched
  · refine ⟨fun other file' found => ?_, fun fs'' num present => ?_, fun untouched => ?_⟩
    · have kept := wrote.table other
      rw [found, Option.map_some] at kept
      obtain ⟨file₀, found₀, same⟩ := Option.map_eq_some_iff.mp kept.symm
      obtain ⟨_, present, below, exact⟩ := started.copies other file₀ found₀
      obtain rfl := Option.some.inj (present.symm.trans wrote.before)
      have now : t.sizeOf z other = _ := sizeOf_congr wrote.after (by rw [found]; rfl)
      have past : (ensureInit v w.service).sizeOf z other = _ := sizeOf_congr wrote.before kept.symm
      have grows := wrote.size_le (z := z) file'.inodeRef.inodeNum
      rw [same] at below exact
      refine ⟨fs', wrote.after, below.trans grows, ?_⟩
      dsimp only
      rw [exact, ← sizeOf_ensureInit sound, now, past, (Option.some_injective Nat).ne_iff]
      omega
    · obtain rfl := Option.some.inj (present.symm.trans wrote.after)
      have old := (started.ends fs num wrote.before).trans (wrote.size_le num)
      have new := wrote.written_le (z := z) num
      refine Nat.max_le.mpr ⟨old, ?_⟩
      simpa only [written, ensureInit_table] using new
    · rw [wrote.done, ensureInit_done] at untouched
      cases untouched

/-- A file system in which no size is different. -/
theorem sound_same (sound : Watched.Sound z ⟨s, grown, ends⟩) (present : s.globalFs = some fs)
    (same : ∀ num, z.size num fs' = z.size num fs) :
    Watched.Sound z ⟨{ s with globalFs := some fs' }, grown, ends⟩ := by
  refine ⟨fun fd file found => ?_, fun _ num after => ?_, sound.untouched⟩
  · obtain ⟨_, before, copies⟩ := sound.copies fd file found
    obtain rfl := Option.some.inj (before.symm.trans present)
    exact ⟨fs', rfl, by simpa only [same] using copies⟩
  · obtain rfl := Option.some.inj after
    rw [same]
    exact sound.ends fs num present

/-- A new descriptor has the size of the file that is stored. -/
theorem sound_allocFd (sound : Watched.Sound z ⟨s, grown, ends⟩) (present : s.globalFs = some fs)
    (started : s.initDone = true)
    (allocated : allocFd v (v.ext4.getInodeRef num fs) readable writable s = some (fd, t)) :
    Watched.Sound z ⟨t, Function.update grown fd False, ends⟩ := by
  unfold allocFd at allocated
  split at allocated
  next => cases allocated
  next =>
    obtain ⟨rfl, rfl⟩ := Prod.mk.inj (Option.some.inj allocated)
    refine ⟨fun fd file found => ?_, sound.ends, fun untouched => ?_⟩
    · by_cases new : fd = s.nextFd
      · subst new
        simp only [Function.update_self] at found
        obtain rfl := Option.some.inj found
        refine ⟨fs, present, ?_⟩
        simp [z.copied, z.numbered]
      · simp only [Function.update_of_ne new] at found
        simpa only [Function.update_of_ne new] using sound.copies fd file found
    · rw [started] at untouched
      cases untouched

theorem sound_open (sound : w.Sound z)
    (opened : openFile v path flags mode w.service = some (answer, t)) :
    (∀ fd, answer = .ok fd → Watched.Sound z ⟨t, Function.update w.grown fd False, w.ends⟩) ∧
      ∀ e, answer = .error e → Watched.Sound z ⟨t, w.grown, w.ends⟩ := by
  have started := sound_ensureInit sound
  unfold openFile at opened
  dsimp only at opened
  split at opened
  next =>
    obtain ⟨rfl, rfl⟩ := Prod.mk.inj (Option.some.inj opened)
    exact ⟨by simp, fun _ _ => started⟩
  next fs present =>
    have same := z.opened path fs
    split at opened
    next e fs' failed =>
      obtain ⟨rfl, rfl⟩ := Prod.mk.inj (Option.some.inj opened)
      rw [failed] at same
      exact ⟨by simp, fun _ _ => sound_same started present same⟩
    next num fs' succeeded =>
      obtain ⟨⟨fd, t'⟩, allocated, pair⟩ := Option.map_eq_some_iff.mp opened
      obtain ⟨rfl, rfl⟩ := Prod.mk.inj pair
      rw [succeeded] at same
      refine ⟨fun fd' ok => ?_, by simp⟩
      obtain rfl := Except.ok.inj ok
      exact sound_allocFd (sound_same started present same) rfl (ensureInit_done v _) allocated

theorem sound_lseek (sound : w.Sound z) (sought : lseek v fd pos w.service = some (answer, t)) :
    Watched.Sound z ⟨t, w.grown, w.ends⟩ := by
  have started := sound_ensureInit sound
  unfold lseek at sought
  dsimp only at sought
  split at sought
  next =>
    obtain ⟨rfl, rfl⟩ := Prod.mk.inj (Option.some.inj sought)
    exact started
  next file found =>
    obtain ⟨rfl, rfl⟩ := Prod.mk.inj (Option.some.inj sought)
    refine ⟨fun other file' found' => ?_, started.ends, fun untouched => ?_⟩
    · by_cases own : other = fd
      · subst own
        simp only [Function.update_self] at found'
        obtain rfl := Option.some.inj found'
        exact started.copies other file found
      · simp only [Function.update_of_ne own] at found'
        exact started.copies other file' found'
    · rw [ensureInit_done] at untouched
      cases untouched

theorem stat_service (stated : stat v fd s = some (answer, t)) : t = s := by
  unfold stat at stated
  split at stated
  next => exact (Prod.mk.inj (Option.some.inj stated)).2.symm
  next => exact (Prod.mk.inj (Option.some.inj stated)).2.symm

theorem sound_step (sound : w.Sound z) (stepped : StatStep z w op w') : w'.Sound z := by
  cases stepped with
  | opened opened => exact (sound_open sound opened).1 _ rfl
  | unopened opened => exact (sound_open sound opened).2 _ rfl
  | write wrote => exact sound_write sound wrote
  | lseek sought => exact sound_lseek sound sought
  | stat stated =>
    obtain rfl := stat_service stated
    exact sound

/-- A `stat` sees the writes exactly if the file has not grown. -/
theorem sees_iff (sound : w.Sound z) : SeesWrites z w op w' ↔ Fresh w op w' := by
  constructor
  · intro sees fd file stats found grown
    obtain ⟨fs, present, -, exact⟩ := sound.copies fd file found
    have stated : stat v fd w.service = some (.ok (v.ext4.fromInodeRef file.inodeRef), w.service) :=
      by simp only [stat, found]
    have size := (sees fd file _ _ stats found stated).1
    rw [sizeOf_congr present (by rw [found]; rfl)] at size
    exact exact.mp grown (Option.some.inj size).symm
  · intro fresh fd file st s stats found stated
    obtain ⟨fs, present, -, exact⟩ := sound.copies fd file found
    simp only [stat, found, Option.some.injEq, Prod.mk.injEq, Except.ok.injEq] at stated
    obtain ⟨rfl, -⟩ := stated
    have same := not_not.mp (mt exact.mpr (fresh fd file stats found))
    rw [sizeOf_congr present (by rw [found]; rfl), same]
    exact ⟨rfl, sound.ends fs _ present⟩

/-- In a run every `stat` sees the writes before it if and only if no file had grown between the
open of the descriptor and the `stat`. -/
theorem stat_sees_writes_iff (v : Setup F E Inode Stat) (z : Sizes v) (ops : List Op)
    (w : Watched F Inode) :
    Run (Where (StatStep z) (SeesWrites z)) ⟨.initial, fun _ => False, fun _ => 0⟩ ops w ↔
      Run (Where (StatStep z) Fresh) ⟨.initial, fun _ => False, fun _ => 0⟩ ops w :=
  Run.where_iff (fun sound stepped _ => sound_step sound stepped) (fun sound _ => sees_iff sound)
    (sound_initial z)

end Steps

section OneFile

/-- The size of a file of which something is written at an offset. -/
def extended (sizes : UInt32 → Nat) (num : UInt32) (offset len : Nat) : UInt32 → Nat :=
  if len = 0 then sizes else Function.update sizes num (max (sizes num) (offset + len))

/-- A file system that keeps nothing of a file but its size, and finds one file. -/
def oneFile : Setup (UInt32 → Nat) Unit Nat Nat where
  build := release
  ext4 := {
    init := some fun _ => 0
    fileOpen := fun _ _ fs => (.ok 12, fs)
    getInodeRef := fun num fs => ⟨num, fs num⟩
    readAt := fun _ _ _ fs => (.ok [], fs)
    writeAt := fun num offset buf fs => (.ok buf.length, extended fs num offset buf.length)
    dirOpen := fun _ fs => (.error (), fs)
    dirGetEntries := fun _ _ => []
    fromInodeRef := Ext4InodeRef.inode
    eacces := ()
    debug := fun _ => "" }
  stdout := List.length

theorem extended_self (sizes : UInt32 → Nat) (num : UInt32) (offset len : Nat) :
    extended sizes num offset len num = if len = 0 then sizes num
      else max (sizes num) (offset + len) := by
  unfold extended
  split
  · rfl
  · exact Function.update_self ..

theorem extended_other (sizes : UInt32 → Nat) (num : UInt32) (offset len : Nat) (m : UInt32)
    (other : m ≠ num) :
    extended sizes num offset len m = sizes m := by
  unfold extended
  split
  · rfl
  · exact Function.update_of_ne other ..

theorem extended_le (sizes : UInt32 → Nat) (num : UInt32) (offset len : Nat) :
    sizes num ≤ extended sizes num offset len num := by
  rw [extended_self]
  split
  · exact Nat.le_refl _
  · exact Nat.le_max_left ..

theorem oneFile_written (num : UInt32) (offset : Nat) (buf : List UInt8) (fs : UInt32 → Nat)
    (len : Size) (fs' : UInt32 → Nat)
    (wrote : oneFile.ext4.writeAt num offset buf fs = (.ok len, fs')) :
    fs' num = if len = 0 then fs num else max (fs num) (offset + len) := by
  obtain ⟨answer, rfl⟩ := Prod.mk.inj wrote
  obtain rfl := Except.ok.inj answer
  exact extended_self ..

def oneFileSizes : Sizes oneFile where
  size num fs := fs num
  stSize st := st
  numbered _ _ := rfl
  copied _ _ := rfl
  opened _ _ _ := rfl
  grows num offset buf fs := extended_le fs num offset buf.length
  other num offset buf fs := extended_other fs num offset buf.length
  written := oneFile_written

/-- The service after an open, with the offset of the descriptor and the sizes. -/
def serving (offset : Nat) (sizes : UInt32 → Nat) : Service (UInt32 → Nat) Nat :=
  ⟨Function.update (fun _ => none) 3 (some ⟨⟨12, 0⟩, offset, true, true⟩), 4, true, some sizes⟩

/-- A file that is opened, written to and looked at through one descriptor. -/
theorem stat_misses_write :
    ¬ ∀ ops w op w', Run (StatStep oneFileSizes) ⟨.initial, fun _ => False, fun _ => 0⟩ ops w →
    StatStep oneFileSizes w op w' → SeesWrites oneFileSizes w op w' := by
  intro sees
  have opened : openFile oneFile "f" 0 3 .initial = some (.ok 3, serving 0 fun _ => 0) := rfl
  have wrote : write oneFile 3 [1] (serving 0 fun _ => 0) =
      some (.ok 1, serving 1 (extended (fun _ => 0) 12 0 1)) := by
    simp [write, onFile, ensureInit, serving, FileWrapper.write, oneFile, Build.add, release, word]
  have stated : stat oneFile 3 (serving 1 (extended (fun _ => 0) 12 0 1)) =
      some (.ok 0, serving 1 (extended (fun _ => 0) 12 0 1)) := rfl
  have size :=
    (sees [.openFile "f" 0 3, .write 3 [1]] _ (.stat 3) _
      (.cons (.opened opened) (.cons (.write wrote) (.nil _)))
    (.stat stated) 3 _ 0 _ rfl rfl stated).1
  cases size

end OneFile
end AlloyStack.Ext4fdtab
