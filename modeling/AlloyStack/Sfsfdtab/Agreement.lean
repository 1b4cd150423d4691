import AlloyStack.Sfsfdtab.Apis

/-! The fdtab service over fatfs and the one over the simple file system as replacements of each
other. A client names a descriptor by the open that returned it, or by a number that it makes up. -/
namespace AlloyStack.Sfsfdtab
open Rust SlotTable AlloyStack.Fdtab AlloyStack.Fatfs

inductive Descriptor where
  | opened (k : Nat)
  | number (fd : Fd)
  deriving DecidableEq, Repr

inductive FileCall where
  | open (path : String) (flags mode : UInt32)
  | read (d : Descriptor) (len : Size)
  | write (d : Descriptor) (buf : List UInt8)
  | lseek (d : Descriptor) (pos : UInt32)
  | close (d : Descriptor)
  deriving DecidableEq, Repr

/-- What a client sees of a result. Descriptor numbers and errors are left out. -/
inductive Response where
  | opened
  | size (n : Size) (data : List UInt8)
  | done
  | failed
  deriving DecidableEq, Repr

/-- A service with the descriptors that its opens have returned; those to come are 0. -/
structure Client (S : Type) where
  service : S
  opens : Nat
  fds : Nat → Fd

namespace Client
variable {S : Type}

def start (service : S) : Client S := ⟨service, 0, fun _ => 0⟩

def fd (c : Client S) : Descriptor → Fd
  | .opened k => c.fds k
  | .number fd => fd

def opened (c : Client S) (fd : Fd) (service : S) : Client S :=
  ⟨service, c.opens + 1, Function.update c.fds c.opens fd⟩

end Client

/-- The call as an operation of fdtab. -/
def FileCall.op (fd : Descriptor → Fd) : FileCall → Op
  | .open path flags mode => .open path flags mode
  | .read d len => .read (fd d) len
  | .write d buf => .write (fd d) buf
  | .lseek d pos => .lseek (fd d) pos
  | .close d => .close (fd d)

/-- The file systems do not run out of space. -/
def FileCall.space : FileCall → Space
  | .write _ buf => ⟨true, buf.length⟩
  | _ => ⟨true, 0⟩

section Runs
variable {Name : Type} [DecidableEq Name]
variable (b : Build) (resolve : String → Option Name) (paths : Paths Name)
  (stdout : List UInt8 → Size)

/-- In the results of calls and runs `none` is a panic. -/
def fatCall (call : FileCall) (c : Client (Disk Name)) : Option (Response × Client (Disk Name)) :=
  (c.service.exec b resolve stdout call.space (call.op c.fd)).map fun
    | (.ok (.fd fd), _, service) => (.opened, c.opened fd service)
    | (.ok (.size n), data, service) => (.size n data, { c with service })
    | (.ok _, _, service) => (.done, { c with service })
    | (.error _, _, service) => (.failed, { c with service })

/-- The response to a result of the service other than a descriptor. -/
def Client.answered (c : Client (Service Name)) (respond : α → Response) :
    Except String α × Service Name → Response × Client (Service Name)
  | (.ok value, service) => (respond value, { c with service })
  | (.error _, service) => (.failed, { c with service })

def sfsCall (call : FileCall) (c : Client (Service Name)) :
    Option (Response × Client (Service Name)) :=
  match call with
  | .open path flags mode => (openFile b paths path flags mode c.service).map fun
    | (.ok fd, service) => (.opened, c.opened fd service)
    | (.error _, service) => (.failed, { c with service })
  | .read d len =>
    some (c.answered (fun data => .size data.length data) (read (c.fd d) len c.service))
  | .write d buf => some (c.answered (fun n => .size n []) (write stdout (c.fd d) buf c.service))
  | .lseek d pos => some (c.answered (fun _ => .done) (lseek (c.fd d) pos c.service))
  | .close d => some (c.answered (fun _ => .done) (close (c.fd d) c.service))

/-- The responses to a sequence of calls. -/
def responses (call : FileCall → S → Option (Response × S)) :
    List FileCall → S → Option (List Response)
  | [], _ => some []
  | c :: calls, s =>
    (call c s).bind fun (response, s) => (responses call calls s).map (response :: ·)

/-- The services answer the calls alike when they are started on the same files. -/
def Agree (files : Name → Option (List UInt8)) (calls : List FileCall) : Prop :=
  ∃ answers, responses (fatCall b resolve stdout) calls (.start ⟨[], .mounted files⟩) =
    some answers ∧
    responses (sfsCall b paths stdout) calls (.start (.mounted files)) = some answers

/-- The descriptor stands for the `k`-th open in both services, and the file is still open. -/
def Denotes (fat : Client (Disk Name)) (sfs : Client (Service Name)) (d : Descriptor) (k : Nat) :
    Prop :=
  fat.fd d = fat.fds k ∧ sfs.fd d = sfs.fds k ∧ sfs.service.table (sfs.fds k) ≠ none

/-- The descriptor stands for the same open in both services, or it is open in neither. A closed
descriptor that fdtab has given out again is not tracked. -/
def Tracked (fat : Client (Disk Name)) (sfs : Client (Service Name)) (d : Descriptor) : Prop :=
  (∃ k, Denotes fat sfs d k) ∨ sfs.service.table (sfs.fd d) = none ∧
    fat.service.fdTable.files (fat.fd d).toNat = none

/-- The file that fatfs finds at a path. -/
def fatLookup (files : Name → Option (List UInt8)) (path : String) : Option Name :=
  (resolve path).filter fun name => (files name).isSome

/-- A path leads to the same file in both file systems, `NEXT_FD` has not come to its end, no seek
goes beyond the end of a file, and only open descriptors are closed. -/
def Proper (fat : Client (Disk Name)) (sfs : Client (Service Name)) : FileCall → Prop
  | .open path flags _ =>
    sfs.service.lookup paths path = (fatLookup resolve sfs.service.files path).map .file ∧
      (fatLookup resolve sfs.service.files path = none → flags &&& O_CREAT = O_CREAT →
        paths.create (trimStart path) = resolve path) ∧ sfs.service.nextFd.toNat + 1 < 2 ^ 32
  | .read d _ | .write d _ => Tracked fat sfs d
  | .lseek d pos => Tracked fat sfs d ∧ ∀ file name, sfs.service.table (sfs.fd d) = some file →
      file.inode = .file name → pos.toNat ≤ (sfs.service.content name).length
  | .close d => ∃ k, Denotes fat sfs d k

/-- Each call of a run is proper in the states that the calls before it lead to. -/
def Orderly : List FileCall → Client (Disk Name) → Client (Service Name) → Prop
  | [], _, _ => True
  | call :: calls, fat, sfs => Proper resolve paths fat sfs call ∧
      match fatCall b resolve stdout call fat, sfsCall b paths stdout call sfs with
      | some (_, fat'), some (_, sfs') => Orderly calls fat' sfs'
      | _, _ => True

end Runs

section Simulation
variable {Name : Type} {b : Build} {resolve : String → Option Name} {paths : Paths Name}
  {stdout : List UInt8 → Size} {fat : Client (Disk Name)} {sfs : Client (Service Name)} {k : Nat}
  {file : Opened Name} {mode : UInt32}

/-- The wrapper of a file that is open in fatfs with a mode. -/
def wrapper (file : Opened Name) (mode : UInt32) : FileWrapper Name :=
  ⟨.file file.name, file.cursor, mode &&& OpenMode.RD == OpenMode.RD,
    mode &&& OpenMode.WR == OpenMode.WR⟩

/-- The `k`-th open as both services have it. Its handle in fatfs is `k`. -/
structure Paired (fat : Client (Disk Name)) (sfs : Client (Service Name)) (k : Nat)
    (file : Opened Name) (mode : UInt32) :
    Prop where
  handle : slot fat.service.volume.table k = some file
  fdtab : fat.service.fdTable.files (fat.fds k).toNat = some ⟨mode, .fatFS (UInt32.ofNat k)⟩
  wrapped : sfs.service.table (sfs.fds k) = some (wrapper file mode)
  inside : file.cursor ≤ (sfs.service.content file.name).length

/-- Both services have the same files, and their tables have grown with the opens. -/
structure Counted (fat : Client (Disk Name)) (sfs : Client (Service Name)) : Prop where
  files : fat.service.volume.files = sfs.service.files
  opens : fat.opens = sfs.opens
  handles : fat.service.volume.table.length = sfs.opens
  slots : fat.service.fdTable.length ≤ sfs.opens
  next : sfs.service.nextFd.toNat = sfs.opens + 3
  numbered : ∀ k, (sfs.fds k).toNat = if k < sfs.opens then k + 3 else 0
  ordinary : ∀ k, ¬ (fat.fds k = 1 ∨ fat.fds k = 2)

structure Matched (fat : Client (Disk Name)) (sfs : Client (Service Name)) :
    Prop extends Counted fat sfs where
  live : ∀ k file, slot fat.service.volume.table k = some file → ∃ mode, Paired fat sfs k file mode
  closed : ∀ k, slot fat.service.volume.table k = none → sfs.service.table (sfs.fds k) = none

theorem Paired.valid (paired : Paired fat sfs k file mode) : ¬ (fat.fds k).toNat ≤ 2 := by
  intro low
  have found := paired.fdtab
  rw [files_low low] at found
  nomatch found

namespace Matched

theorem below (matched : Matched fat sfs) (paired : Paired fat sfs k file mode) : k < sfs.opens :=
  matched.handles ▸ lt_length_of_slot (paired.handle ▸ Option.some_ne_none file)

theorem opens_lt (matched : Matched fat sfs) : sfs.opens + 3 < 2 ^ 32 :=
  matched.next ▸ sfs.service.nextFd.toNat_lt

theorem rawFd_eq (matched : Matched fat sfs) (less : k < sfs.opens) :
    (UInt32.ofNat k).toNat = k := by
  have bound := matched.opens_lt
  rw [UInt32.toNat_ofNat', Nat.mod_eq_of_lt (by omega)]

theorem fds_ne (matched : Matched fat sfs) (less : k < sfs.opens) (other : j ≠ k) :
    sfs.fds j ≠ sfs.fds k := by
  intro same
  have first := matched.numbered j
  have second := matched.numbered k
  rw [same, second, if_pos less] at first
  split at first <;> omega

/-- fdtab has different descriptors for different handles. -/
theorem numbers_ne (matched : Matched fat sfs) (one : Paired fat sfs j file mode)
    (two : Paired fat sfs k file' mode') (other : j ≠ k) :
    (fat.fds j).toNat ≠ (fat.fds k).toNat := by
  intro same
  have found := one.fdtab
  rw [same, two.fdtab, Option.some.injEq, Fdtab.File.mk.injEq, DataSource.fatFS.injEq] at found
  apply other
  rw [← matched.rawFd_eq (matched.below one), ← found.2, matched.rawFd_eq (matched.below two)]

theorem sfs_ordinary (matched : Matched fat sfs) (k : Nat) : ¬ (sfs.fds k = 1 ∨ sfs.fds k = 2) := by
  have number := matched.numbered k
  rw [← UInt32.toNat_inj, ← UInt32.toNat_inj, number]
  simp only [UInt32.reduceToNat]
  split <;> omega

theorem standard_iff (matched : Matched fat sfs) (d : Descriptor) :
    (fat.fd d = 1 ∨ fat.fd d = 2) ↔ (sfs.fd d = 1 ∨ sfs.fd d = 2) := by
  cases d with
  | opened k => exact iff_of_false (matched.ordinary k) (matched.sfs_ordinary k)
  | number fd => exact Iff.rfl

theorem paired_of_denotes (matched : Matched fat sfs) (denotes : Denotes fat sfs d k) :
    ∃ file mode, Paired fat sfs k file mode := by
  cases entry : slot fat.service.volume.table k with
  | none => exact absurd (matched.closed k entry) denotes.2.2
  | some file => exact ⟨file, matched.live k file entry⟩

/-- Both services change the `k`-th open and leave the others alone. -/
theorem frame (matched : Matched fat sfs) (counted : Counted fat' sfs')
    (entries : slot fat'.service.volume.table =
      Function.update (slot fat.service.volume.table) k entry)
    (numbers : ∀ j, j ≠ k → fat'.fds j = fat.fds j ∧ sfs'.fds j = sfs.fds j)
    (kept : ∀ j file mode, j ≠ k → Paired fat sfs j file mode →
      fat'.service.fdTable.files (fat.fds j).toNat = fat.service.fdTable.files (fat.fds j).toNat)
    (wrappers : ∀ j, j ≠ k → sfs'.service.table (sfs.fds j) = sfs.service.table (sfs.fds j))
    (grown : ∀ name, (sfs.service.content name).length ≤ (sfs'.service.content name).length)
    (present : ∀ file, entry = some file → ∃ mode, Paired fat' sfs' k file mode)
    (absent : entry = none → sfs'.service.table (sfs'.fds k) = none) : Matched fat' sfs' := by
  have own : slot fat'.service.volume.table k = entry := by rw [entries, Function.update_self]
  have other (j : Nat) (apart : j ≠ k) : slot fat'.service.volume.table j =
      slot fat.service.volume.table j := by
    rw [entries, Function.update_of_ne apart]
  refine ⟨counted, fun j file found => ?_, fun j free => ?_⟩
  · by_cases same : j = k
    · subst same
      exact present file (own.symm.trans found)
    · obtain ⟨mode, paired⟩ := matched.live j file ((other j same).symm.trans found)
      obtain ⟨fatNumber, sfsNumber⟩ := numbers j same
      refine ⟨mode, found, ?_, ?_, paired.inside.trans (grown _)⟩
      · rw [fatNumber, kept j file mode same paired, paired.fdtab]
      · rw [sfsNumber, wrappers j same, paired.wrapped]
  · by_cases same : j = k
    · subst same
      exact absent (own.symm.trans free)
    · rw [(numbers j same).2, wrappers j same]
      exact matched.closed j ((other j same).symm.trans free)

/-- Both services move the cursor of an open file, and no file gets shorter. -/
theorem advance (matched : Matched fat sfs) (paired : Paired fat sfs k file mode) (cursor : Nat)
    (files : Name → Option (List UInt8))
    (grown : ∀ name, (sfs.service.content name).length ≤ ((files name).getD []).length)
    (inside : cursor ≤ ((files file.name).getD []).length) :
    Matched { fat with service :=
      ⟨fat.service.fdTable, ⟨fat.service.volume.table.set k (some { file with cursor }), files⟩⟩ }
      { sfs with service :=
        ⟨Function.update sfs.service.table (sfs.fds k) (some (wrapper { file with cursor } mode)),
          sfs.service.nextFd, files⟩ } := by
  have less := matched.below paired
  have entries := slot_set (matched.handles ▸ less) (some { file with cursor })
  refine matched.frame ?_ entries (fun _ _ => ⟨rfl, rfl⟩) (fun _ _ _ _ _ => rfl)
    (fun j other => ?_) grown ?_ (by simp)
  · exact ⟨rfl, matched.opens, (List.length_set ..).trans matched.handles, matched.slots,
      matched.next, matched.numbered,
      matched.ordinary⟩
  · exact Function.update_of_ne (matched.fds_ne less other) ..
  · intro _ same
    cases same
    exact ⟨mode, by rw [entries, Function.update_self], paired.fdtab, Function.update_self ..,
      inside⟩

theorem closing (matched : Matched fat sfs) (paired : Paired fat sfs k file mode) {rest : FdTable}
    (removed : rest.files = Function.update fat.service.fdTable.files (fat.fds k).toNat none)
    (length : rest.length = fat.service.fdTable.length) :
    Matched { fat with service :=
      ⟨rest, ⟨fat.service.volume.table.set k none, fat.service.volume.files⟩⟩ }
      { sfs with service :=
        { sfs.service with table := Function.update sfs.service.table (sfs.fds k) none } } := by
  have less := matched.below paired
  refine matched.frame ?_ (slot_set (matched.handles ▸ less) none) (fun _ _ => ⟨rfl, rfl⟩)
    (fun j _ _ other paired' => ?_)
    (fun j other => ?_) (fun _ => Nat.le_refl _) (by simp) fun _ => Function.update_self ..
  · exact ⟨matched.files, matched.opens, (List.length_set ..).trans matched.handles,
      length.trans_le matched.slots, matched.next,
      matched.numbered, matched.ordinary⟩
  · rw [removed, Function.update_of_ne (matched.numbers_ne paired' paired other)]
  · exact Function.update_of_ne (matched.fds_ne less other) ..

/-- Both services open a file of the same name, and no file gets shorter. -/
theorem opening (matched : Matched fat sfs) (room : sfs.service.nextFd.toNat + 1 < 2 ^ 32)
    {fd : Fd} {table : FdTable} (above : 3 ≤ fd.toNat)
    (free : fat.service.fdTable.files fd.toNat = none)
    (added : table.files =
      Function.update fat.service.fdTable.files fd.toNat
      (some ⟨mode, .fatFS (UInt32.ofNat sfs.opens)⟩))
    (length : table.length ≤ fat.service.fdTable.length + 1) (name : Name)
    (files : Name → Option (List UInt8))
    (grown : ∀ name, (sfs.service.content name).length ≤ ((files name).getD []).length) :
    Matched (fat.opened fd ⟨table, ⟨fat.service.volume.table ++ [some ⟨name, 0⟩], files⟩⟩)
      (sfs.opened sfs.service.nextFd
        ⟨Function.update sfs.service.table sfs.service.nextFd (some (wrapper ⟨name, 0⟩ mode)),
        sfs.service.nextFd + 1, files⟩) := by
  have next := matched.next
  have entries := slot_snoc fat.service.volume.table (some ⟨name, 0⟩)
  rw [matched.handles] at entries
  refine matched.frame ⟨rfl, congrArg (· + 1) matched.opens, ?_,
    length.trans (Nat.succ_le_succ matched.slots), ?_,
    fun j => ?_, fun j => ?_⟩ entries (fun j other => ?_) (fun j _ _ _ paired => ?_)
      (fun j other => ?_) grown ?_ (by simp)
  · simp [Client.opened, matched.handles]
  · simp only [Client.opened, UInt32.toNat_add, UInt32.reduceToNat, Nat.mod_eq_of_lt room]
    omega
  · have number := matched.numbered j
    simp only [Client.opened, Function.update_apply]
    by_cases last : j = sfs.opens
    · simp [last, next]
    · rw [if_neg last, number]
      exact if_congr (by omega) rfl rfl
  · simp only [Client.opened, Function.update_apply]
    split
    · rw [← UInt32.toNat_inj, ← UInt32.toNat_inj]
      simp only [UInt32.reduceToNat]
      omega
    · exact matched.ordinary j
  · simp only [Client.opened, matched.opens, Function.update_of_ne other, and_self]
  · have other : (fat.fds j).toNat ≠ fd.toNat := by
      intro same
      have taken := paired.fdtab
      rw [same, free] at taken
      nomatch taken
    simp only [Client.opened, added, Function.update_of_ne other]
  · -- No descriptor of an earlier open, and no 0 for a later one, is the new one.
    have number := matched.numbered j
    have unknown : sfs.fds j ≠ sfs.service.nextFd := by
      rw [← UInt32.toNat_inj.ne, number, next]
      split <;> omega
    simp only [Client.opened, Function.update_of_ne unknown]
  · intro _ same
    cases same
    refine ⟨mode, by simp only [Client.opened, entries, Function.update_self], ?_, ?_,
      Nat.zero_le _⟩
    · simp only [Client.opened, ← matched.opens, Function.update_self, added]
    · simp only [Client.opened, Function.update_self]

theorem content_eq (matched : Matched fat sfs) (name : Name) :
    fat.service.volume.content name = sfs.service.content name := by
  rw [Volume.content, matched.files, Service.content]

end Matched

variable [DecidableEq Name]

variable (b resolve paths stdout) in
/-- Both services answer a call with the same response, and stay matched. -/
def Simulated (call : FileCall) (fat : Client (Disk Name)) (sfs : Client (Service Name)) : Prop :=
  ∃ response fat' sfs', fatCall b resolve stdout call fat = some (response, fat') ∧
    sfsCall b paths stdout call sfs = some (response, sfs') ∧ Matched fat' sfs'

theorem fatCall_failed
    (failed : ∃ e, fat.service.exec b resolve stdout call.space (call.op fat.fd) =
      some (.error e, [], fat.service)) :
    fatCall b resolve stdout call fat = some (.failed, fat) := by
  obtain ⟨e, run⟩ := failed
  rw [fatCall, run, Option.map_some]

theorem read_simulated (matched : Matched fat sfs) (tracked : Tracked fat sfs d) (len : Size) :
    Simulated b resolve paths stdout (.read d len) fat sfs := by
  rcases tracked with ⟨k, denotes⟩ | ⟨unknown, free⟩
  · obtain ⟨file, mode, paired⟩ := matched.paired_of_denotes denotes
    cases allowed : mode &&& OpenMode.RD == OpenMode.RD with
    | true =>
      obtain ⟨data, taken⟩ : ∃ data,
          ((sfs.service.content file.name).drop file.cursor).take len = data :=
        ⟨_, rfl⟩
      have bound : file.cursor + data.length ≤ (sfs.service.content file.name).length := by
        rw [← taken, List.length_take, List.length_drop]
        have inside := paired.inside
        omega
      refine ⟨.size data.length data, _, _, ?_, ?_,
        matched.advance paired _ _ (fun _ => Nat.le_refl _) bound⟩
      · simp only [fatCall, FileCall.op, denotes.1,
          Disk.exec_read paired.valid paired.fdtab rfl allowed, Volume.fatfsRead,
          matched.rawFd_eq (matched.below paired), paired.handle, Except.mapError, Except.map,
          Option.map_some, matched.content_eq, matched.files, taken]
      · simp only [sfsCall, denotes.2.1, read, paired.wrapped, wrapper, allowed, Bool.not_true,
          Bool.false_eq_true, if_false, Client.answered, taken]
    | false =>
      refine ⟨.failed, fat, sfs, fatCall_failed ?_, ?_, matched⟩
      · rw [FileCall.op, denotes.1]
        exact Disk.exec_read_denied _ _ _ _ paired.valid paired.fdtab allowed len
      · simp only [sfsCall, denotes.2.1, read, paired.wrapped, wrapper, allowed, Bool.not_false,
          if_true, Client.answered]
  · refine ⟨.failed, fat, sfs, fatCall_failed (Disk.exec_read_absent _ _ _ _ free len), ?_, matched⟩
    simp only [sfsCall, read, unknown, Client.answered]

theorem length_writeAt (inside : cursor ≤ content.length) (data : List UInt8) :
    (writeAt content cursor data).length = max content.length (cursor + data.length) := by
  simp only [writeAt, List.length_append, List.length_take, List.length_drop]
  omega

theorem write_simulated (matched : Matched fat sfs) (tracked : Tracked fat sfs d)
    (buf : List UInt8) :
    Simulated b resolve paths stdout (.write d buf) fat sfs := by
  rcases tracked with ⟨k, denotes⟩ | ⟨unknown, free⟩
  · obtain ⟨file, mode, paired⟩ := matched.paired_of_denotes denotes
    cases allowed : mode &&& OpenMode.WR == OpenMode.WR with
    | true =>
      have size := length_writeAt paired.inside buf
      refine ⟨.size buf.length [], _, _, ?_, ?_, matched.advance paired (file.cursor + buf.length)
        (Function.update sfs.service.files file.name
          (some (writeAt (sfs.service.content file.name) file.cursor buf)))
        (fun name => ?_) ?_⟩
      · simp only [fatCall, FileCall.op, FileCall.space, denotes.1,
          Disk.exec_write paired.valid paired.fdtab rfl allowed, Volume.fatfsWrite,
          matched.rawFd_eq (matched.below paired), paired.handle, Except.mapError, Except.map,
          Option.map_some, matched.content_eq, matched.files, List.take_length]
      · simp only [sfsCall, denotes.2.1, write, if_neg (matched.sfs_ordinary k), paired.wrapped,
          wrapper, allowed, Bool.not_true, Bool.false_eq_true, if_false, Client.answered,
          Nat.sub_eq_zero_of_le paired.inside, List.replicate_zero, List.append_nil]
      · by_cases same : name = file.name
        · subst same
          rw [Function.update_self, Option.getD_some, size]
          exact Nat.le_max_left ..
        · rw [Function.update_of_ne same, Service.content]
      · rw [Function.update_self, Option.getD_some, size]
        exact Nat.le_max_right ..
    | false =>
      refine ⟨.failed, fat, sfs, fatCall_failed ?_, ?_, matched⟩
      · rw [FileCall.op, denotes.1]
        exact Disk.exec_write_denied _ _ _ _ paired.valid paired.fdtab allowed buf
      · simp only [sfsCall, denotes.2.1, write, if_neg (matched.sfs_ordinary k), paired.wrapped,
          wrapper, allowed, Bool.not_false, if_true, Client.answered]
  · by_cases standard : fat.fd d = 1 ∨ fat.fd d = 2
    · refine ⟨.size (stdout buf) [], fat, sfs, ?_, ?_, matched⟩
      · simp only [fatCall, FileCall.op, Disk.exec_write_stdout standard, Option.map_some]
      · simp only [sfsCall, write, if_pos ((matched.standard_iff d).mp standard), Client.answered]
    · refine ⟨.failed, fat, sfs, fatCall_failed (Disk.exec_write_absent _ _ _ _ free standard buf),
        ?_, matched⟩
      simp only [sfsCall, write, if_neg (standard ∘ (matched.standard_iff d).mpr), unknown,
        Client.answered]

theorem lseek_simulated (matched : Matched fat sfs)
    (proper : Proper resolve paths fat sfs (.lseek d pos)) :
    Simulated b resolve paths stdout (.lseek d pos) fat sfs := by
  obtain ⟨⟨k, denotes⟩ | ⟨unknown, free⟩, bound⟩ := proper
  · obtain ⟨file, mode, paired⟩ := matched.paired_of_denotes denotes
    rw [denotes.2.1] at bound
    have within := bound _ file.name paired.wrapped rfl
    refine ⟨.done, _, _, ?_, ?_, matched.advance paired _ _ (fun _ => Nat.le_refl _) within⟩
    · simp only [fatCall, FileCall.op, denotes.1, Disk.exec_lseek paired.valid paired.fdtab rfl,
        Volume.fatfsSeek, matched.rawFd_eq (matched.below paired), paired.handle, Except.mapError,
        Except.map, Option.map_some, matched.content_eq, matched.files, Nat.min_eq_left within]
    · simp only [sfsCall, denotes.2.1, lseek, paired.wrapped, wrapper, Client.answered]
  · refine ⟨.failed, fat, sfs, fatCall_failed (Disk.exec_lseek_absent _ _ _ _ free pos), ?_,
      matched⟩
    simp only [sfsCall, lseek, unknown, Client.answered]

theorem close_simulated (matched : Matched fat sfs)
    (proper : Proper resolve paths fat sfs (.close d)) :
    Simulated b resolve paths stdout (.close d) fat sfs := by
  obtain ⟨k, denotes⟩ := proper
  obtain ⟨file, mode, paired⟩ := matched.paired_of_denotes denotes
  obtain ⟨rest, removed, length, run⟩ :=
    Disk.exec_close b resolve stdout ⟨true, 0⟩ paired.valid paired.fdtab rfl
  refine ⟨.done, _, _, ?_, ?_, matched.closing paired removed length⟩
  · simp only [fatCall, FileCall.op, FileCall.space, denotes.1, run, Volume.fatfsClose,
      matched.rawFd_eq (matched.below paired), paired.handle, Except.mapError, Except.map,
      Option.map_some]
  · simp only [sfsCall, denotes.2.1, close, Client.answered]

/-- The mode that has the bits of `RDWR` has those of `RD` and `WR`. -/
theorem contains_of_rdwr (bit : UInt32) (single : OpenMode.RDWR &&& bit = bit) (mode : UInt32) :
    (mode &&& bit == bit || mode &&& OpenMode.RDWR == OpenMode.RDWR) = (mode &&& bit == bit) := by
  rw [Bool.or_eq_left_iff_imp, beq_iff_eq, beq_iff_eq]
  intro both
  rw [← single, ← UInt32.and_assoc, both]

omit [DecidableEq Name] in
theorem allocFd_eq {s : Service Name} (room : s.nextFd.toNat + 1 < 2 ^ 32) (inode : INode Name)
    (readable writable : Bool) :
    allocFd b inode readable writable s = some (s.nextFd,
      { s with
        table := Function.update s.table s.nextFd (some ⟨inode, 0, readable, writable⟩),
        nextFd := s.nextFd + 1 }) := by
  rw [allocFd, if_neg]
  rintro ⟨-, last⟩
  omega

/-- The service after it has opened the file `name`. -/
def Service.opening (s : Service Name) (name : Name) (mode : UInt32)
    (files : Name → Option (List UInt8)) : Service Name :=
  ⟨Function.update s.table s.nextFd (some (wrapper ⟨name, 0⟩ mode)), s.nextFd + 1, files⟩

theorem openFile_found {s : Service Name} (room : s.nextFd.toNat + 1 < 2 ^ 32)
    (there : s.lookup paths path = some (.file name))
    (flags mode : UInt32) :
    openFile b paths path flags mode s = some (.ok s.nextFd, s.opening name mode s.files) := by
  simp only [openFile, there, allocFd_eq room, Option.map_some, Service.opening, wrapper,
    contains_of_rdwr OpenMode.RD (by decide), contains_of_rdwr OpenMode.WR (by decide)]

theorem openFile_created {s : Service Name} (room : s.nextFd.toNat + 1 < 2 ^ 32)
    (absent : s.lookup paths path = none)
    (missing : s.files name = none) (creating : flags &&& O_CREAT = O_CREAT)
    (created : paths.create (trimStart path) = some name)
    (mode : UInt32) : openFile b paths path flags mode s =
      some (.ok s.nextFd, s.opening name mode (Function.update s.files name (some []))) := by
  have room' : ({ s with files := Function.update s.files name (some []) } :
      Service Name).nextFd.toNat + 1 < 2 ^ 32 := room
  simp only [openFile, absent, missing, creating, created, Option.isSome_none,
    Bool.false_eq_true, if_false,
    beq_self_eq_true, if_true, allocFd_eq room', Option.map_some, Service.opening, wrapper,
    contains_of_rdwr OpenMode.RD (by decide), contains_of_rdwr OpenMode.WR (by decide)]

theorem openFile_failed {s : Service Name} (missing : s.lookup paths path = none)
    (refused : flags &&& O_CREAT = O_CREAT → paths.create (trimStart path) = none) (mode : UInt32) :
    ∃ e, openFile b paths path flags mode s = some (.error e, s) := by
  by_cases creating : flags &&& O_CREAT = O_CREAT
  · refine ⟨"create failed: InvalidParam", ?_⟩
    simp only [openFile, missing, creating, beq_self_eq_true, if_true, refused creating]
  · refine ⟨"invalid fd", ?_⟩
    simp only [openFile, missing, beq_iff_eq, creating, if_false]

theorem opened_simulated (matched : Matched fat sfs)
    (room : sfs.service.nextFd.toNat + 1 < 2 ^ 32)
    (grown : ∀ name, (sfs.service.content name).length ≤ ((files name).getD []).length)
    (fatOpen : fat.service.volume.fatfsOpen resolve ⟨true, 0⟩ path flags =
      (.ok (UInt32.ofNat fat.service.volume.table.length),
      ⟨fat.service.volume.table ++ [some ⟨name, 0⟩], files⟩))
    (sfsOpen : openFile b paths path flags mode sfs.service =
      some (.ok sfs.service.nextFd, sfs.service.opening name mode files)) :
    Simulated b resolve paths stdout (.open path flags mode) fat sfs := by
  have bound := matched.next
  have slots := matched.slots
  have spare : fat.service.fdTable.Room := room_of_length (by omega)
  have least := (addFile_least spare { mode, src := .fatFS (UInt32.ofNat sfs.opens) }).1
  have next :=
    matched.opening room least.1 least.2 (addFile_files spare _)
      (length_insert_le _ _) name files grown
  refine ⟨.opened, _, _, ?_, ?_, next⟩
  · simp only [fatCall, FileCall.op, FileCall.space, Disk.exec_open, fatOpen, Option.map_some,
      matched.handles]
  · simp only [sfsCall, sfsOpen, Option.map_some, Service.opening]

/-- Neither service finds the file, and neither makes it. -/
theorem unopened_simulated (matched : Matched fat sfs)
    (absent : sfs.service.lookup paths path = none)
    (missing : fatLookup resolve sfs.service.files path = none)
    (refused : flags &&& O_CREAT = O_CREAT → resolve path = none ∧
      paths.create (trimStart path) = none) :
    Simulated b resolve paths stdout (.open path flags mode) fat sfs := by
  obtain ⟨e, failed⟩ := openFile_failed (b := b) absent (fun creating => (refused creating).2) mode
  have answer : sfsCall b paths stdout (.open path flags mode) sfs = some (.failed, sfs) := by
    simp only [sfsCall, failed, Option.map_some]
  refine ⟨.failed, fat, sfs, fatCall_failed ⟨.fatfsError .unknown, ?_⟩, answer, matched⟩
  simp only [FileCall.op, FileCall.space, Disk.exec_open, Volume.fatfsOpen, matched.files]
  cases resolved : resolve path with
  | none => rfl
  | some name =>
    have missing' : sfs.service.files name = none := by simpa [fatLookup, resolved] using missing
    have fixed : ¬ flags &&& O_CREAT = O_CREAT :=
      fun creating => Option.some_ne_none name (resolved ▸ (refused creating).1)
    simp [missing', fixed]

theorem open_simulated (matched : Matched fat sfs)
    (proper : Proper resolve paths fat sfs (.open path flags mode)) :
    Simulated b resolve paths stdout (.open path flags mode) fat sfs := by
  obtain ⟨alike, creates, room⟩ := proper
  cases there : fatLookup resolve sfs.service.files path with
  | some name =>
    obtain ⟨resolved, present⟩ : resolve path = some name ∧
        (sfs.service.files name).isSome = true :=
      Option.filter_eq_some_iff.mp there
    rw [there, Option.map_some] at alike
    refine opened_simulated matched room (fun _ => Nat.le_refl _) ?_
      (openFile_found room alike flags mode)
    simp only [Volume.fatfsOpen, resolved, matched.files, present, if_true]
  | none =>
    rw [there, Option.map_none] at alike
    by_cases creating : flags &&& O_CREAT = O_CREAT
    · have created := creates there creating
      cases resolved : resolve path with
      | none =>
        exact unopened_simulated matched alike there fun _ => ⟨resolved, created.trans resolved⟩
      | some name =>
        have missing : sfs.service.files name = none := by simpa [fatLookup, resolved] using there
        refine opened_simulated matched room (fun name' => ?_) ?_
          (openFile_created room alike missing creating (created.trans resolved) mode)
        · by_cases same : name' = name
          · simp [same, Service.content, missing]
          · rw [Function.update_of_ne same, Service.content]
        · simp [Volume.fatfsOpen, resolved, matched.files, missing, creating]
    · exact unopened_simulated matched alike there fun contained => absurd contained creating

variable (b stdout) in
theorem call_simulated (matched : Matched fat sfs) (proper : Proper resolve paths fat sfs call) :
    Simulated b resolve paths stdout call fat sfs := by
  cases call with
  | «open» path flags mode => exact open_simulated matched proper
  | read d len => exact read_simulated matched proper len
  | write d buf => exact write_simulated matched proper buf
  | lseek d pos => exact lseek_simulated matched proper
  | close d => exact close_simulated matched proper

theorem run_simulated (matched : Matched fat sfs)
    (orderly : Orderly b resolve paths stdout calls fat sfs) :
    ∃ answers, responses (fatCall b resolve stdout) calls fat = some answers ∧
      responses (sfsCall b paths stdout) calls sfs = some answers := by
  induction calls generalizing fat sfs with
  | nil => exact ⟨[], rfl, rfl⟩
  | cons call calls ih =>
    obtain ⟨proper, rest⟩ := orderly
    obtain ⟨response, fat', sfs', fatRun, sfsRun, matched'⟩ :=
      call_simulated b stdout matched proper
    rw [fatRun, sfsRun] at rest
    obtain ⟨answers, fatRest, sfsRest⟩ := ih matched' rest
    refine ⟨response :: answers, ?_, ?_⟩
    · simp only [responses, fatRun, Option.bind_some, fatRest, Option.map_some]
    · simp only [responses, sfsRun, Option.bind_some, sfsRest, Option.map_some]

omit [DecidableEq Name] in
theorem start_matched (files : Name → Option (List UInt8)) :
    Matched (.start ⟨[], .mounted files⟩) (.start (.mounted files)) where
  files := rfl
  opens := rfl
  handles := rfl
  slots := Nat.le_refl _
  next := rfl
  numbered _ := rfl
  ordinary _ := by
    simp only [Client.start]
    decide
  live _ _ found := nomatch found
  closed _ _ := rfl

end Simulation

section Replacement
variable {Name : Type} [DecidableEq Name]

theorem replaceable_when (b : Build) (resolve : String → Option Name) (paths : Paths Name)
    (stdout : List UInt8 → Size) (files : Name → Option (List UInt8)) (calls : List FileCall)
    (orderly : Orderly b resolve paths stdout calls (.start ⟨[], .mounted files⟩)
      (.start (.mounted files))) :
    Agree b resolve paths stdout files calls :=
  run_simulated (start_matched files) orderly

/-- A file is created, written, read back and closed. -/
theorem read_back_replaceable :
    Agree debug some ⟨fun path => some (.file path), some⟩ List.length (fun _ => none)
    [.open "a.txt" O_CREAT OpenMode.RDWR, .write (.opened 0) [1, 2], .lseek (.opened 0) 0,
      .read (.opened 0) 8,
      .close (.opened 0)] := by
  apply replaceable_when
  refine ⟨⟨rfl, fun _ _ => by rfl, by decide⟩, .inl ⟨0, rfl, rfl, ?_⟩,
    ⟨.inl ⟨0, rfl, rfl, ?_⟩, fun _ _ _ _ => Nat.zero_le _⟩,
    .inl ⟨0, rfl, rfl, ?_⟩, ⟨0, rfl, rfl, ?_⟩, trivial⟩
  all_goals exact Option.some_ne_none _

/-- fdtab reports a second close of a descriptor, the other service does not. -/
theorem closed_twice :
    ¬ Agree debug some ⟨fun path => some (.file path), some⟩ List.length (fun _ => none)
    [.open "a.txt" O_CREAT OpenMode.RDWR, .close (.opened 0), .close (.opened 0)] := by
  rintro ⟨answers, fat, sfs⟩
  have first : some [Response.opened, .done, .failed] = some answers := fat
  have second : some [Response.opened, .done, .done] = some answers := sfs
  rw [← first] at second
  nomatch second

end Replacement

end AlloyStack.Sfsfdtab
