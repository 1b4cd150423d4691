import AlloyStack.AsStd.File
import AlloyStack.Library.Transition
import AlloyStack.Mm.Mmap

/-! `as_std::mm::Mmap`: a file that an app opens, maps, reads and drops again. The file is wrapped
in `ManuallyDrop` so that the fault handler can read it, and nobody closes it afterwards. -/
namespace AlloyStack.AsStd
open Rust SlotTable Transition AlloyStack.Fdtab AlloyStack.Fatfs
open AlloyStack.Mm.Mmap

/-- The services that a mapping involves. -/
structure App (Name : Type) where
  disk : Disk Name
  memory : Memory

structure Mmap where
  ptr : Nat
  length : Nat

inductive MmapError where
  | fileErr (e : FdtabError)
  | mmErr (e : MMError)

section Operations
variable {Name : Type} [DecidableEq Name] (b : Build) (resolve : String → Option Name)
  (stdout : List UInt8 → Size)

/-- The descriptor of the file is not closed, whatever the answer. -/
def Mmap.mmapFile (space : Space) (host : Host) (env : Backing) (file : Fd) (s : App Name) :
    Option (Except MmapError Mmap × App Name) :=
  match s.disk.exec b resolve stdout space (.stat file) with
  | some (.ok (.stat stat), _, disk) =>
    (alignedLength b stat.stSize).map fun aligned =>
      match libosMmap host env 0 aligned ProtFlags.READ file s.memory with
      | (.error e, memory) => (.error (.mmErr e), ⟨disk, memory⟩)
      | (.ok ptr, memory) => (.ok ⟨ptr, stat.stSize⟩, ⟨disk, memory⟩)
  | some (.error e, _, disk) => some (.error (.fileErr e), ⟨disk, s.memory⟩)
  | _ => none

/-- `Drop for Mmap`. -/
def Mmap.drop (host : Host) (env : Backing) (m : Mmap) (s : App Name) : Option (App Name) :=
  match libosMunmap b host env m.ptr m.length true s.memory with
  | some (.ok (), memory) => some ⟨s.disk, memory⟩
  | _ => none

/-- `read_at_offset` of the fault handler. -/
def readAtOffset (space : Space) (fd : Fd) (offset : UInt32) (disk : Disk Name) :
    Option (Disk Name) :=
  match disk.exec b resolve stdout space (.lseek fd offset) with
  | some (.ok _, _, disk) =>
    match disk.exec b resolve stdout space (.read fd Mm.Mmap.PAGE_SIZE) with
    | some (.ok _, _, disk) => some disk
    | _ => none
  | _ => none

/-- The page faults while the app reads, each with the file of its region and the offset in it. -/
def faults (space : Space) : List (Fd × UInt32) → Disk Name → Option (Disk Name)
  | [], disk => some disk
  | (fd, offset) :: rest, disk =>
    (readAtOffset b resolve stdout space fd offset disk).bind (faults space rest)

/-- One file is opened, mapped, read and dropped again, and all calls succeed. -/
inductive MapRound : App Name → String → App Name → Prop where
  | intro (space : Space) (mapping unmapping : Host) (registering unregistering : Backing)
      (offsets : List (Fd × UInt32)) : mapping.Fresh s.memory.live →
      File.open b resolve stdout space path s.disk = some (.ok fd, opened) →
      Mmap.mmapFile b resolve stdout space mapping registering fd ⟨opened, s.memory⟩ =
        some (.ok m, mapped) → m.length ≠ 0 →
      faults b resolve stdout space offsets mapped.disk = some paged →
      Mmap.drop b unmapping unregistering m ⟨paged, mapped.memory⟩ = some t →
      MapRound s path t

end Operations

/-- The heap, the regions and the descriptors are what they were. -/
def Balanced {Name : Type} (s t : App Name) : Prop :=
  Same s.memory t.memory ∧ t.disk.fdTable.files = s.disk.fdTable.files

section Rounds
variable {Name : Type} [DecidableEq Name] {b : Build} {resolve : String → Option Name}
  {stdout : List UInt8 → Size}
  {space : Space}

/-- The operations on a file that neither add nor remove descriptors. -/
def Quiet : Op → Prop
  | .read .. | .lseek .. | .stat .. => True
  | _ => False

/-- The shape of these operations: a descriptor below 3 is refused, and the rest looks at its
file. -/
theorem checked_table {refused : Done α} {f : Option Fdtab.File → List Call → Done α}
    (low : refused.table = t) (kept : ∀ file calls, (f file calls).table = t)
    (done : (if fd.toNat ≤ 2 then some refused else FdTable.withFile b t fd f) = some d) :
    d.table = t := by
  split at done
  · rw [← Option.some.inj done, low]
  · obtain ⟨idx, -, rfl⟩ := Option.map_eq_some_iff.mp done
    exact kept _ _

theorem quiet_table (quiet : Quiet op) (executed : Fdtab.exec b ans op t = some d) :
    d.table = t := by
  cases op with
  | read fd len =>
    obtain ⟨inner, done, rfl⟩ := Option.map_eq_some_iff.mp executed
    unfold Fdtab.read at done
    change inner.table = t
    refine checked_table rfl (fun file calls => ?_) done
    split
    · rfl
    · split
      · rfl
      · split <;> rfl
  | lseek fd pos =>
    obtain ⟨inner, done, rfl⟩ := Option.map_eq_some_iff.mp executed
    unfold Fdtab.lseek at done
    change inner.table = t
    refine checked_table rfl (fun file calls => ?_) done
    split
    · rfl
    · split <;> rfl
  | stat fd =>
    obtain ⟨inner, done, rfl⟩ := Option.map_eq_some_iff.mp executed
    unfold Fdtab.stat at done
    change inner.table = t
    refine checked_table rfl (fun file calls => ?_) done
    split
    · rfl
    · split <;> rfl
  | _ => cases quiet

theorem quiet_exec {s t : Disk Name}
    (done : s.exec b resolve stdout space op = some (result, data, t)) (quiet : Quiet op) :
    t.fdTable = s.fdTable := by
  unfold Disk.exec at done
  obtain ⟨probe, _, answered⟩ := Option.bind_eq_some_iff.mp done
  obtain ⟨last, executed, same⟩ := Option.map_eq_some_iff.mp answered
  cases same
  exact quiet_table quiet executed

theorem readAtOffset_fdTable {disk after : Disk Name}
    (done : readAtOffset b resolve stdout space fd offset disk = some after) :
    after.fdTable = disk.fdTable := by
  unfold readAtOffset at done
  split at done
  · next sought =>
    split at done
    · next delivered =>
      cases done
      rw [quiet_exec delivered trivial, quiet_exec sought trivial]
    · cases done
  · cases done

theorem faults_fdTable {disk after : Disk Name} (offsets : List (Fd × UInt32))
    (done : faults b resolve stdout space offsets disk = some after) :
    after.fdTable = disk.fdTable := by
  induction offsets generalizing disk with
  | nil =>
    cases done
    rfl
  | cons fault rest ih =>
    obtain ⟨middle, first, later⟩ := Option.bind_eq_some_iff.mp done
    rw [ih later, readAtOffset_fdTable first]

/-- What `mmap_file` does when it succeeds. -/
theorem mmapFile_ok {s t : App Name}
    (done : Mmap.mmapFile b resolve stdout space host env fd s = some (.ok m, t)) :
    t.disk.fdTable = s.disk.fdTable ∧ ∃ aligned, alignedLength b m.length = some aligned ∧
      libosMmap host env 0 aligned ProtFlags.READ fd s.memory = (.ok m.ptr, t.memory) := by
  unfold Mmap.mmapFile at done
  split at done
  · next stated =>
    obtain ⟨aligned, rounded, done⟩ := Option.map_eq_some_iff.mp done
    split at done
    · simp at done
    · next mapped =>
      cases done
      exact ⟨quiet_exec stated trivial, aligned, rounded, mapped⟩
  · simp at done
  · cases done

theorem open_fdTable {s t : Disk Name}
    (done : File.open b resolve stdout space path s = some (.ok fd, t)) :
    ∃ file : Fdtab.File, t.fdTable = (SlotTable.insert file s.fdTable).2 := by
  unfold File.open openWith at done
  rw [Disk.exec_open] at done
  rcases opened : s.volume.fatfsOpen resolve space path 0 with ⟨_ | rawFd, volume⟩
  · simp [opened] at done
  · rw [opened] at done
    cases done
    exact ⟨_, rfl⟩

/-- A round keeps its descriptor. -/
theorem MapRound.descriptors {s t : App Name} (round : MapRound b resolve stdout s path t) :
    ∃ file : Fdtab.File, t.disk.fdTable = (SlotTable.insert file s.disk.fdTable).2 := by
  cases round with
  | intro space mapping unmapping registering unregistering offsets fresh opens maps _ pages
    drops =>
    obtain ⟨kept, _⟩ := mmapFile_ok maps
    obtain ⟨file, added⟩ := open_fdTable opens
    unfold Mmap.drop at drops
    split at drops
    · cases drops
      exact ⟨file, by rw [faults_fdTable offsets pages, kept, added]⟩
    · cases drops

/-- A round gives back its block and its region. -/
theorem MapRound.memory {s t : App Name} (round : MapRound b resolve stdout s path t)
    (sound : s.memory.Sound) :
    t.memory = s.memory := by
  cases round with
  | intro space mapping unmapping registering unregistering offsets fresh opens maps _ pages
    drops =>
    obtain ⟨_, aligned, rounded, mapped⟩ := mmapFile_ok maps
    unfold Mmap.drop at drops
    split at drops
    · next unmapped =>
      cases drops
      exact libosMunmap_libosMmap sound fresh rounded mapped unmapped
    · cases drops

theorem rounds_descriptors {s t : App Name} (run : Run (MapRound b resolve stdout) s paths t) :
    used t.disk.fdTable = used s.disk.fdTable + paths.length := by
  induction run with
  | nil => rfl
  | cons first _ ih =>
    obtain ⟨file, added⟩ := first.descriptors
    rw [ih, added, used_insert, List.length_cons]
    omega

theorem rounds_memory {s t : App Name} (run : Run (MapRound b resolve stdout) s paths t)
    (sound : s.memory.Sound) :
    t.memory = s.memory := by
  induction run with
  | nil => rfl
  | cons first _ ih =>
    have memory := first.memory sound
    exact (ih (memory ▸ sound)).trans memory

end Rounds

/-- After any number of rounds, one more leaves its descriptor open. Its memory is given back, as
long as every registered region starts at a live block. -/
theorem mmap_never_balanced {Name : Type} [DecidableEq Name] (b : Build)
    (resolve : String → Option Name) (stdout : List UInt8 → Size) (s₀ s t : App Name)
    (paths : List String) (path : String) (run : Run (MapRound b resolve stdout) s₀ paths s)
    (round : MapRound b resolve stdout s path t) :
    ¬ Balanced s t ∧ t.disk.fdTable.files ≠ s.disk.fdTable.files ∧
      used t.disk.fdTable = used s₀.disk.fdTable + paths.length + 1 ∧
        (s₀.memory.Sound → Same s.memory t.memory) := by
  obtain ⟨file, added⟩ := round.descriptors
  have grown : t.disk.fdTable.files ≠ s.disk.fdTable.files := by
    intro same
    have there := congrFun same ((SlotTable.insert file s.disk.fdTable).1 + 3)
    rw [added, files_update (slot_insert file _), Function.update_self] at there
    rw [FdTable.files, if_neg (by omega), Nat.add_sub_cancel, insert_free] at there
    cases there
  refine ⟨fun balanced => grown balanced.2, grown, ?_, fun sound => ?_⟩
  · rw [added, used_insert, rounds_descriptors run]
  · rw [round.memory (rounds_memory run sound ▸ sound)]
    exact .refl _

/-- A volume with one file of one byte, and nothing mapped. -/
def oneFile : App String :=
  ⟨⟨[], .mounted (Function.update (fun _ => none) "data" (some [7]))⟩, ⟨[], []⟩⟩

/-- The pipe is there when the region is removed. -/
def piped : Backing := ⟨.ok (), .ok (), true, .ok true, .ok (), .ok true, .ok true, .ok (), .ok ()⟩

/-- The services after the file was opened and read up to a position. -/
def readUpTo (cursor : Nat) : Disk String :=
  ⟨[some ⟨OpenMode.RD, .fatFS 0⟩],
    ⟨[some ⟨"data", cursor⟩], Function.update (fun _ => none) "data" (some [7])⟩⟩

def oneFileLeft : App String := ⟨readUpTo 1, ⟨[], []⟩⟩

theorem oneFile_round : MapRound debug some (fun _ => 0) oneFile "data" oneFileLeft := by
  have fresh : onePage.Fresh oneFile.memory.live := by
    intro _ _ block member
    simp [oneFile] at member
  have opens : File.open debug some (fun _ => 0) ⟨true, 0⟩ "data" oneFile.disk =
      some (.ok 3, readUpTo 0) :=
    rfl
  have maps : Mmap.mmapFile debug some (fun _ => 0) ⟨true, 0⟩ onePage (firstRegistration (.ok ())) 3
      ⟨readUpTo 0, ⟨[], []⟩⟩ =
      some (.ok ⟨0x1000, 1⟩, ⟨readUpTo 0, ⟨[⟨0x1000, ⟨0x1000, 0x1000⟩⟩], [⟨0x1000, 3⟩]⟩⟩) := by
    have stated : (readUpTo 0).exec debug some (fun _ => 0) ⟨true, 0⟩ (.stat 3) =
        some (.ok (.stat ⟨1⟩), [], readUpTo 0) :=
      rfl
    have rounded : alignedLength debug 1 = some 0x1000 := rfl
    rw [Mmap.mmapFile, stated]
    simp only [rounded, Option.map_some]
    rfl
  have pages : faults debug some (fun _ => 0) ⟨true, 0⟩ [(3, 0)] (readUpTo 0) = some (readUpTo 1) :=
    rfl
  exact .intro ⟨true, 0⟩ onePage onePage (firstRegistration (.ok ())) piped
    [(3, 0)] fresh opens maps Nat.one_ne_zero pages rfl

theorem mmap_keeps_descriptor : ¬ Balanced oneFile oneFileLeft :=
  (mmap_never_balanced debug some (fun _ => 0) oneFile oneFile oneFileLeft [] "data"
    (.nil _) oneFile_round).1

/-- After the first round the descriptor 3 is still open. -/
theorem mmap_leaks_descriptor :
    ¬ ∀ s t : App String, ∀ path, MapRound debug some (fun _ => 0) s path t → Balanced s t := by
  intro all
  have balanced := all oneFile oneFileLeft "data" oneFile_round
  cases congrFun balanced.2 3

end AlloyStack.AsStd
