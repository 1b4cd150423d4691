import AlloyStack.Fatfs.Volume

/-! `as_std::fs::File` over the fdtab and fatfs services: `create`, `open`, the loops of `write_all`
and `read_to_end`, and the `close` of its destructor. In the results `none` is a panic. -/
namespace AlloyStack.AsStd
open Rust SlotTable AlloyStack.Fdtab AlloyStack.Fatfs

variable {Name : Type} [DecidableEq Name]
variable (b : Build) (resolve : String → Option Name) (stdout : List UInt8 → Size)

/-- The descriptor that an `open` through fdtab returns. -/
def openWith (flags mode : UInt32) (space : Space) (path : String) (s : Disk Name) :
    Option (Except FdtabError Fd × Disk Name) :=
  match s.exec b resolve stdout space (.open path flags mode) with
  | some (.ok (.fd fd), _, s) => some (.ok fd, s)
  | some (.error e, _, s) => some (.error e, s)
  | _ => none

def File.create (space : Space) : String → Disk Name → Option (Except FdtabError Fd × Disk Name) :=
  openWith b resolve stdout O_CREAT OpenMode.RDWR space

def File.open (space : Space) : String → Disk Name → Option (Except FdtabError Fd × Disk Name) :=
  openWith b resolve stdout 0 OpenMode.RD space

/-- `Write::write_all`. -/
def writeAll (space : Space) (fd : Fd) (buf : List UInt8) (s : Disk Name) :
    Option (Except FdtabError Unit × Disk Name) :=
  if buf = [] then some (.ok (), s)
  else match s.exec b resolve stdout space (.write fd buf) with
    | some (.ok (.size n), _, s) =>
      if n = 0 ∨ buf.length < n then none else writeAll space fd (buf.drop n) s
    | some (.error e, _, s) => some (.error e, s)
    | _ => none
termination_by buf.length
decreasing_by
  have some := List.length_pos_iff.mpr ‹buf ≠ []›
  have positive := (not_or.mp ‹¬ (n = 0 ∨ buf.length < n)›).1
  rw [List.length_drop]
  exact Nat.sub_lt some (Nat.pos_of_ne_zero positive)

/-- `Read::read_to_end`, with a bound on the iterations of its loop. -/
def readToEnd (space : Space) (fd : Fd) :
    Nat → List UInt8 → Disk Name → Option (Except FdtabError (List UInt8) × Disk Name)
  | 0, _, _ => none
  | fuel + 1, buf, s =>
    match s.exec b resolve stdout space (.read fd 1024) with
    | some (.ok (.size n), data, s) =>
      if n = 0 then some (.ok buf, s) else readToEnd space fd fuel (buf ++ data) s
    | some (.error e, _, s) => some (.error e, s)
    | _ => none

/-- `Drop for File`. -/
def File.drop (space : Space) (fd : Fd) (s : Disk Name) : Option (Disk Name) :=
  match s.exec b resolve stdout space (.close fd) with
  | some (.ok _, _, s) => some s
  | _ => none

/-- No file is open. -/
structure Idle (s : Disk Name) : Prop where
  fds : ∀ n, s.fdTable.files n = none
  handles : ∀ h, slot s.volume.table h = none

/-- The one open file, with the handle that fdtab has for it. -/
structure Holding (s : Disk Name) (fd : Fd) (mode : UInt32) (rawFd : Fd) (h : Nat)
    (file : Opened Name) : Prop where
  valid : ¬ fd.toNat ≤ 2
  fds : s.fdTable.files = Function.update (fun _ => none) fd.toNat (some ⟨mode, .fatFS rawFd⟩)
  handles : slot s.volume.table = Function.update (fun _ => none) h (some file)

section Specifications
variable {b resolve stdout} {space : Space} {path : String} {flags mode : UInt32} {s : Disk Name}
  {fd rawFd : Fd}
  {file : Opened Name} {name : Name}

omit [DecidableEq Name] in
theorem Idle.room (idle : Idle s) : s.fdTable.Room := by
  have none : used s.fdTable = 0 := by
    refine List.countP_eq_zero.mpr fun entry member => ?_
    obtain ⟨i, found⟩ := List.mem_iff_getElem?.mp member
    have free := idle.fds (i + 3)
    rw [FdTable.files, if_neg (by omega), Nat.add_sub_cancel, slot, found, Option.join_some] at free
    simp [free]
  rw [FdTable.Room, none]
  decide

theorem rdwr_canWrite (src : DataSource) : (⟨OpenMode.RDWR, src⟩ : Fdtab.File).canWrite = true := by
  simp only [File.canWrite, OpenMode.RDWR, OpenMode.WR]
  decide

theorem rd_canRead (src : DataSource) : (⟨OpenMode.RD, src⟩ : Fdtab.File).canRead = true := by
  simp only [File.canRead, OpenMode.RD]
  decide

/-- The file is there, or `create_file` can make it. -/
def Available (s : Disk Name) (flags : UInt32) (space : Space) (name : Name) : Prop :=
  (s.volume.files name).isSome = true ∨ (flags &&& O_CREAT == O_CREAT && space.entry) = true

theorem fatfsOpen_available (named : resolve path = some name)
    (available : Available s flags space name) :
    s.volume.fatfsOpen resolve space path flags = (.ok (UInt32.ofNat s.volume.table.length),
      ⟨s.volume.table ++ [some ⟨name, 0⟩],
        Function.update s.volume.files name (some (s.volume.content name))⟩) := by
  unfold Volume.fatfsOpen
  simp only [named]
  split
  · rename_i there
    obtain ⟨content, found⟩ := Option.isSome_iff_exists.mp there
    rw [Function.update_eq_self_iff.mpr (by rw [Volume.content, found, Option.getD_some])]
  · rename_i missing
    rw [if_pos (available.resolve_left missing), Volume.content,
      Option.not_isSome_iff_eq_none.mp missing, Option.getD_none]

theorem fatfsOpen_unavailable
    (unavailable : ∀ name, resolve path = some name → ¬ Available s flags space name) :
    s.volume.fatfsOpen resolve space path flags = (.error .unknown, s.volume) := by
  unfold Volume.fatfsOpen
  split
  · rfl
  · rename_i name named
    have missing := unavailable name named
    rw [Available, not_or] at missing
    rw [if_neg missing.1, if_neg missing.2]

theorem openWith_unavailable
    (unavailable : ∀ name, resolve path = some name → ¬ Available s flags space name) :
    openWith b resolve stdout flags mode space path s =
      some (.error (.fatfsError .unknown), s) := by
  simp only [openWith, Disk.exec_open, fatfsOpen_unavailable unavailable]

variable (b stdout mode) in
theorem openWith_available (idle : Idle s) (named : resolve path = some name)
    (available : Available s flags space name) :
    ∃ fd t, openWith b resolve stdout flags mode space path s = some (.ok fd, t) ∧
      Holding t fd mode (UInt32.ofNat s.volume.table.length) s.volume.table.length ⟨name, 0⟩ ∧
      t.volume.table.length = s.volume.table.length + 1 ∧
      t.volume.files = Function.update s.volume.files name (some (s.volume.content name)) := by
  simp only [openWith, Disk.exec_open, fatfsOpen_available named available]
  have least :=
    (addFile_least idle.room { mode, src := .fatFS (UInt32.ofNat s.volume.table.length) }).1.1
  have free : s.fdTable.files = fun _ => none := funext idle.fds
  have closed : slot s.volume.table = fun _ => none := funext idle.handles
  refine ⟨_, _, rfl, ⟨by omega, ?_, ?_⟩, by simp, rfl⟩
  · rw [addFile_files idle.room, free]
  · rw [slot_snoc, closed]

namespace Holding
variable {h : Nat}

omit [DecidableEq Name] in
theorem found (held : Holding s fd mode rawFd h file) :
    s.fdTable.files fd.toNat = some ⟨mode, .fatFS rawFd⟩ := by
  rw [held.fds, Function.update_self]

omit [DecidableEq Name] in
theorem opened (held : Holding s fd mode rawFd h file) (own : rawFd.toNat = h) :
    slot s.volume.table rawFd.toNat = some file := by
  rw [held.handles, own, Function.update_self]

omit [DecidableEq Name] in
/-- The table after a change to the open file. -/
theorem changed (held : Holding s fd mode rawFd h file) (own : rawFd.toNat = h)
    (entry : Option (Opened Name)) :
    slot (s.volume.table.set rawFd.toNat entry) = Function.update (fun _ => none) h entry := by
  have inside := lt_length_of_slot (held.opened own ▸ Option.some_ne_none file)
  rw [slot_set inside, held.handles, own, Function.update_idem]

variable (b resolve stdout space) in
theorem drop (held : Holding s fd mode rawFd h file) (own : rawFd.toNat = h) :
    ∃ t, File.drop b resolve stdout space fd s = some t ∧
    Idle t ∧ t.volume.table.length = s.volume.table.length ∧ t.volume.files = s.volume.files := by
  obtain ⟨rest, files, -, run⟩ := Disk.exec_close b resolve stdout space held.valid held.found rfl
  simp only [File.drop, run, Volume.fatfsClose, held.opened own]
  refine ⟨_, rfl, ⟨fun n => ?_, fun h' => ?_⟩, List.length_set .., rfl⟩
  · rw [files, held.fds, Function.update_idem]
    by_cases same : n = fd.toNat <;> simp [same]
  · rw [held.changed own]
    by_cases same : h' = h <;> simp [same]

variable (b resolve stdout space) in
/-- A handle beyond `u32` is cut to that of a closed file, and the destructor panics. -/
theorem drop_stray (held : Holding s fd mode rawFd h file) (stray : rawFd.toNat ≠ h) :
    File.drop b resolve stdout space fd s = none := by
  obtain ⟨rest, files, -, run⟩ := Disk.exec_close b resolve stdout space held.valid held.found rfl
  have closed : slot s.volume.table rawFd.toNat = none := by
    rw [held.handles, Function.update_of_ne stray]
  simp only [File.drop, run, Volume.fatfsClose, closed, Except.mapError, Except.map]

variable (b resolve stdout space) in
theorem write (held : Holding s fd mode rawFd h file) (own : rawFd.toNat = h)
    (writable : (⟨mode, .fatFS rawFd⟩ : Fdtab.File).canWrite = true)
    (content : s.volume.files file.name = some old) (buf : List UInt8) :
    ∃ t, writeAll b resolve stdout space fd buf s = some (.ok (), t) ∧
      Holding t fd mode rawFd h
        { file with cursor := file.cursor + (buf.take space.bytes).length } ∧
      t.volume.table.length = s.volume.table.length ∧
      t.volume.files = Function.update s.volume.files file.name
        (some (writeAt old file.cursor (buf.take space.bytes))) := by
  rw [writeAll]
  split
  · rename_i empty
    subst empty
    refine ⟨s, rfl, by simpa using held, rfl, ?_⟩
    rw [eq_comm, Function.update_eq_self_iff, content]
    simp [writeAt]
  · rename_i nonempty
    have length := List.length_pos_iff.mpr nonempty
    have rest : ¬ (buf.length = 0 ∨ buf.length < buf.length) := by omega
    rw [Disk.exec_write held.valid held.found rfl writable]
    simp only [Volume.fatfsWrite, held.opened own, Except.mapError, Except.map, if_neg rest,
      List.drop_length]
    rw [writeAll, if_pos rfl]
    refine ⟨_, rfl, ⟨held.valid, held.fds, held.changed own _⟩, List.length_set .., ?_⟩
    simp only [Volume.content, content, Option.getD_some]

theorem write_stray (held : Holding s fd mode rawFd h file) (stray : rawFd.toNat ≠ h)
    (writable : (⟨mode, .fatFS rawFd⟩ : Fdtab.File).canWrite = true)
    (run : writeAll b resolve stdout space fd buf s = some (.ok (), t)) : t = s := by
  have closed : slot s.volume.table rawFd.toNat = none := by
    rw [held.handles, Function.update_of_ne stray]
  rw [writeAll] at run
  split at run
  · cases run
    rfl
  · rw [Disk.exec_write held.valid held.found rfl writable] at run
    simp [Volume.fatfsWrite, closed, Except.mapError, Except.map] at run

variable (b resolve stdout space) in
/-- The loop gathers what is left of the file, as long as it has an iteration for each byte. -/
theorem readToEnd (held : Holding s fd mode rawFd h file) (own : rawFd.toNat = h)
    (readable : (⟨mode, .fatFS rawFd⟩ : Fdtab.File).canRead = true)
    (remaining : (s.volume.content file.name).drop file.cursor = rest) (buf : List UInt8) :
    ∃ t file', (∀ fuel, rest.length < fuel →
      readToEnd b resolve stdout space fd fuel buf s = some (.ok (buf ++ rest), t)) ∧
      Holding t fd mode rawFd h file' ∧ t.volume.table.length = s.volume.table.length ∧
        t.volume.files = s.volume.files := by
  induction size : rest.length using Nat.strong_induction_on generalizing s file buf rest with
  | _ n ih =>
    have next (data : List UInt8) : Holding ⟨s.fdTable, ⟨s.volume.table.set rawFd.toNat
        (some { file with cursor := file.cursor + data.length }), s.volume.files⟩⟩ fd mode rawFd h
        { file with cursor := file.cursor + data.length } :=
          ⟨held.valid, held.fds, held.changed own _⟩
    by_cases ended : rest = []
    · refine ⟨_, _, fun fuel enough => ?_, next [], List.length_set .., rfl⟩
      obtain ⟨fuel, rfl⟩ := Nat.exists_eq_add_of_lt enough
      rw [AsStd.readToEnd, Disk.exec_read held.valid held.found rfl readable]
      simp only [Volume.fatfsRead, held.opened own, Except.mapError, Except.map, remaining, ended,
        List.take_nil, List.length_nil, if_true, List.append_nil]
    · have some := List.length_pos_iff.mpr ended
      have after : (s.volume.content file.name).drop (file.cursor + (rest.take 1024).length) =
          rest.drop 1024 := by
        rw [← List.drop_drop, remaining, List.length_take]
        rcases Nat.le_total 1024 rest.length with long | short
        · rw [Nat.min_eq_left long]
        · rw [Nat.min_eq_right short, List.drop_length, List.drop_of_length_le short]
      have fewer : (rest.drop 1024).length < n := by
        rw [List.length_drop]
        omega
      obtain ⟨t, file', run, held', length, files⟩ :=
        ih _ fewer (next (rest.take 1024)) after (buf ++ rest.take 1024) rfl
      refine ⟨t, file', fun fuel enough => ?_, held', length.trans (List.length_set ..), files⟩
      obtain ⟨fuel, rfl⟩ := Nat.exists_eq_add_of_lt enough
      have nonzero : (rest.take 1024).length ≠ 0 := by
        rw [List.length_take]
        omega
      rw [AsStd.readToEnd, Disk.exec_read held.valid held.found rfl readable]
      simp only [Volume.fatfsRead, held.opened own, Except.mapError, Except.map, remaining,
        if_neg nonzero]
      rw [run _ (by omega), List.append_assoc, List.take_append_drop]

theorem readToEnd_stray (held : Holding s fd mode rawFd h file) (stray : rawFd.toNat ≠ h)
    (readable : (⟨mode, .fatFS rawFd⟩ : Fdtab.File).canRead = true) :
    AsStd.readToEnd b resolve stdout space fd fuel buf s ≠ some (.ok bytes, t) := by
  have closed : slot s.volume.table rawFd.toNat = none := by
    rw [held.handles, Function.update_of_ne stray]
  cases fuel with
  | zero => nofun
  | succ fuel =>
    rw [AsStd.readToEnd, Disk.exec_read held.valid held.found rfl readable]
    simp [Volume.fatfsRead, closed, Except.mapError, Except.map]

end Holding

end Specifications

end AlloyStack.AsStd
