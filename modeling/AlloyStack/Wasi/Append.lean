import Mathlib.Data.List.Basic
import AlloyStack.AsStd.File
import AlloyStack.Library.Transition
import AlloyStack.Wasi.Vectored

/-! Writes of a guest through a descriptor that it opened for appending, with libfdtab as the fdtab
service. `path_open` passes the flag on and `fatfs_open` does not look at it: a write goes to the
position of the open file. -/
namespace AlloyStack.Wasi.Append
open Rust SlotTable Transition Fdtab Fatfs

section Contents

/-- The contents of a file and the position of a descriptor after one write, of which the volume
takes a number of bytes. -/
def put (file : List UInt8 × Nat) (piece : List UInt8 × Nat) : List UInt8 × Nat :=
  (writeAt file.1 file.2 (piece.1.take piece.2), file.2 + (piece.1.take piece.2).length)

theorem writeAt_length {content data : List UInt8} {cursor : Nat}
    (inside : cursor ≤ content.length) :
    (writeAt content cursor data).length = max content.length (cursor + data.length) := by
  simp only [writeAt, List.length_append, List.length_take, List.length_drop]
  omega

theorem writeAt_end (content data : List UInt8) :
    writeAt content content.length data = content ++ data := by
  simp [writeAt]

theorem writeAt_nil (content : List UInt8) (cursor : Nat) :
    writeAt content cursor [] = content := by
  simp [writeAt]

theorem put_inside {file : List UInt8 × Nat} (inside : file.2 ≤ file.1.length)
    (piece : List UInt8 × Nat) : (put file piece).2 ≤ (put file piece).1.length := by
  rw [put, writeAt_length inside]
  exact le_max_right _ _

def allBytes (pieces : List (List UInt8 × Nat)) : List UInt8 := pieces.flatMap Prod.fst

/-- The pieces are appended exactly when the position is at the end and all of them fit. -/
def Appendable (file : List UInt8 × Nat) (pieces : List (List UInt8 × Nat)) : Prop :=
  allBytes pieces = [] ∨ file.2 = file.1.length ∧ ∀ piece ∈ pieces, piece.1.length ≤ piece.2

theorem puts_of_appendable {file : List UInt8 × Nat} (appendable : Appendable file pieces) :
    (pieces.foldl put file).1 = file.1 ++ allBytes pieces := by
  induction pieces generalizing file with
  | nil => simp [allBytes]
  | cons piece pieces ih =>
    obtain ⟨piece, bytes⟩ := piece
    rcases appendable with blank | ⟨atEnd, fit⟩
    · obtain ⟨rfl, rest⟩ : piece = [] ∧ allBytes pieces = [] := List.append_eq_nil_iff.mp blank
      have same : put file ([], bytes) = file := by simp [put, writeAt_nil]
      rw [List.foldl_cons, same, ih (.inl rest)]
      rfl
    · have whole := List.take_of_length_le (fit (piece, bytes) List.mem_cons_self)
      have moved : put file (piece, bytes) = (file.1 ++ piece, file.1.length + piece.length) := by
        rw [put, whole, atEnd, writeAt_end]
      rw [List.foldl_cons, moved,
        ih (.inr ⟨by simp, fun other member => fit other (List.mem_cons_of_mem _ member)⟩)]
      simp [allBytes]

/-- No more is added than is written, and as much only if the pieces are appended. -/
theorem puts_length (pieces : List (List UInt8 × Nat)) {file : List UInt8 × Nat}
    (inside : file.2 ≤ file.1.length) :
    (pieces.foldl put file).1.length ≤ file.1.length + (allBytes pieces).length ∧
    (file.1.length + (allBytes pieces).length ≤ (pieces.foldl put file).1.length →
      Appendable file pieces) := by
  induction pieces generalizing file with
  | nil => exact ⟨by simp [allBytes], fun _ => .inl rfl⟩
  | cons piece pieces ih =>
    obtain ⟨bound, equal⟩ := ih (put_inside inside piece)
    obtain ⟨piece, bytes⟩ := piece
    have length : (writeAt file.1 file.2 (piece.take bytes)).length = _ := writeAt_length inside
    have both : allBytes ((piece, bytes) :: pieces) = piece ++ allBytes pieces := rfl
    rw [List.length_take] at length
    simp only [put] at bound equal
    rw [length] at bound equal
    simp only [List.foldl_cons, both, List.length_append, put]
    refine ⟨by omega, fun grown => ?_⟩
    have filled : 0 < piece.length → file.2 = file.1.length := by omega
    have fits : piece.length ≤ bytes := by omega
    rcases equal (by omega) with blank | ⟨atEnd, fit⟩
    · by_cases none : piece = []
      · left
        rw [both, none, blank]
        rfl
      · refine .inr ⟨filled (List.length_pos_iff.mpr none),
          List.forall_mem_cons.mpr ⟨fits, fun other member => ?_⟩⟩
        rw [List.flatMap_eq_nil_iff.mp blank other member]
        exact Nat.zero_le _
    · exact .inr ⟨by simp only [length, List.length_take] at atEnd; omega,
        List.forall_mem_cons.mpr ⟨fits, fit⟩⟩

end Contents

section Volumes
variable {Name : Type} [DecidableEq Name]

omit [DecidableEq Name] in
/-- No position is beyond the end of its file. -/
def Sound (v : Volume Name) : Prop :=
  ∀ h opened, slot v.table h = some opened → opened.cursor ≤ (v.content opened.name).length

variable {v : Volume Name} {fd : Fd}

omit [DecidableEq Name] in
theorem sound_mounted (files : Name → Option (List UInt8)) : Sound (.mounted files) := by
  intro h opened found
  simp [Volume.mounted] at found

omit [DecidableEq Name] in
/-- The position of one open file changes. -/
theorem Sound.set (sound : Sound v) (fd : Fd) (entry : Option (Opened Name))
    (inside : ∀ opened, entry = some opened → opened.cursor ≤ (v.content opened.name).length) :
    Sound { v with table := v.table.set fd.toNat entry } := by
  intro h opened found
  by_cases bound : fd.toNat < v.table.length
  · rw [slot_set bound] at found
    by_cases same : h = fd.toNat
    · rw [same, Function.update_self] at found
      exact inside opened found
    · rw [Function.update_of_ne same] at found
      exact sound h opened found
  · rw [List.set_eq_of_length_le (Nat.le_of_not_lt bound)] at found
    exact sound h opened found

omit [DecidableEq Name] in
theorem Sound.read (sound : Sound v) (fd : Fd) (len : Size) : Sound (v.fatfsRead fd len).2.2 := by
  unfold Volume.fatfsRead
  split
  · exact sound
  · next file found =>
    refine sound.set fd _ fun opened same => ?_
    obtain rfl := Option.some.inj same
    have inside := sound _ _ found
    simp only [List.length_take, List.length_drop]
    omega

omit [DecidableEq Name] in
theorem Sound.seek (sound : Sound v) (fd : Fd) (pos : UInt32) : Sound (v.fatfsSeek fd pos).2 := by
  unfold Volume.fatfsSeek
  split
  · exact sound
  · refine sound.set fd _ fun opened same => ?_
    obtain rfl := Option.some.inj same
    exact Nat.min_le_right _ _

omit [DecidableEq Name] in
theorem Sound.close (sound : Sound v) (fd : Fd) : Sound (v.fatfsClose fd).2 := by
  unfold Volume.fatfsClose
  split
  · exact sound
  · exact sound.set fd none (by simp)

theorem content_update (v : Volume Name) (table : List (Option (Opened Name))) (name other : Name)
    (content : List UInt8) :
    (⟨table, Function.update v.files name (some content)⟩ : Volume Name).content other =
      if other = name then content else v.content other := by
  unfold Volume.content
  by_cases same : other = name <;> simp [same]

/-- Files only grow, so that positions of other descriptors stay inside. -/
theorem Sound.write (sound : Sound v) (space : Space) (fd : Fd) (buf : List UInt8) :
    Sound (v.fatfsWrite space fd buf).2 := by
  unfold Volume.fatfsWrite
  split
  · exact sound
  · next file found =>
    have inside := sound _ _ found
    have length : (writeAt (v.content file.name) file.cursor (buf.take space.bytes)).length = _ :=
      writeAt_length inside
    have bound := lt_length_of_slot (found ▸ Option.some_ne_none file)
    intro h opened entry
    simp only [slot_set bound, Function.update_apply] at entry
    rw [content_update]
    split at entry
    · obtain rfl := Option.some.inj entry
      rw [if_pos rfl, length]
      exact le_max_right _ _
    · have old := sound h opened entry
      split
      · next same =>
        rw [same] at old
        rw [length]
        exact old.trans (le_max_left _ _)
      · exact old

theorem Sound.open (sound : Sound v) (resolve : String → Option Name) (space : Space)
    (path : String) (flags : UInt32) :
    Sound (v.fatfsOpen resolve space path flags).2 := by
  have added (files : Name → Option (List UInt8))
      (kept : ∀ name, v.content name = (⟨v.table, files⟩ : Volume Name).content name)
      (name : Name) : Sound ⟨v.table ++ [some ⟨name, 0⟩], files⟩ := by
    intro h opened found
    rw [slot_snoc, Function.update_apply] at found
    split at found
    · obtain rfl := Option.some.inj found
      exact Nat.zero_le _
    · exact (sound h opened found).trans (congrArg List.length (kept opened.name)).le
  unfold Volume.fatfsOpen
  split
  · exact sound
  · next name _ =>
    simp only
    split
    · exact added v.files (fun _ => rfl) name
    · next missing =>
      split
      · refine added _ (fun other => ?_) name
        rw [content_update]
        split
        · next same => rw [same, Volume.content, Option.not_isSome_iff_eq_none.mp missing,
            Option.getD_none]
        · rfl
      · exact sound

theorem Sound.serve (sound : Sound v) (resolve : String → Option Name)
    (stdout : List UInt8 → Size) (space : Space) (call : Fdtab.Call) :
    Sound (v.serve resolve stdout space call).2.2 := by
  cases call with
  | fatfsOpen path flags => exact sound.open resolve space path flags
  | fatfsRead rawFd len => exact sound.read rawFd len
  | fatfsWrite rawFd buf => exact sound.write space rawFd buf
  | fatfsSeek rawFd pos => exact sound.seek rawFd pos
  | fatfsClose rawFd => exact sound.close rawFd
  | _ => exact sound

/-- Every operation of fdtab keeps the positions inside their files. -/
theorem Sound.exec {s t : Disk Name} (sound : Sound s.volume)
    (done : s.exec b resolve stdout space op = some (result, data, t)) : Sound t.volume := by
  unfold Disk.exec at done
  obtain ⟨probe, _, answered⟩ := Option.bind_eq_some_iff.mp done
  obtain ⟨last, _, same⟩ := Option.map_eq_some_iff.mp answered
  obtain ⟨-, -, rfl⟩ : _ ∧ _ ∧ _ := by simpa only [Prod.mk.injEq] using same
  simp only
  split
  · exact sound.serve resolve stdout space _
  · exact sound

end Volumes

section Guests
variable {Name : Type} [DecidableEq Name] (b : Build) (resolve : String → Option Name)
  (stdout : List UInt8 → Size)

/-- The libos with libfdtab, and what the volume has left in each state. A directory cannot be read
through libfdtab, and the clock is not its part. -/
def diskHost (space : Disk Name → Space) : Host (Disk Name) where
  openFile path flags mode s :=
    match s.exec b resolve stdout (space s) (.open path flags mode) with
    | some (.ok (.fd fd), _, s) => some (some fd, s)
    | some (.error _, _, s) => some (none, s)
    | _ => none
  close fd s :=
    match s.exec b resolve stdout (space s) (.close fd) with
    | some (.ok _, _, s) => some s
    | _ => none
  stat fd s :=
    match s.exec b resolve stdout (space s) (.stat fd) with
    | some (.ok (.stat stat), _, s) => some (⟨0, 0, 0, 0, UInt64.ofNat stat.stSize, 0, 0, 0⟩, s)
    | _ => none
  read fd len s :=
    match s.exec b resolve stdout (space s) (.read fd len) with
    | some (.ok (.size n), data, s) => some (⟨(data.take n).take len, List.length_take_le ..⟩, s)
    | _ => none
  write fd data s :=
    match s.exec b resolve stdout (space s) (.write fd data) with
    | some (.ok (.size n), _, s) => some (⟨min n data.length, Nat.min_le_right ..⟩, s)
    | _ => none
  readdir _ _ := none
  getTime _ := none
  build := b
  padding _ := 0

/-- The buffers that the records of `fd_write` point to. -/
def pieces (memory : Bytes) (iovs : Nat) : (left i : Nat) → Option (List Bytes)
  | 0, _ => some []
  | left + 1, i => do
    let (buf, bufLen) ← ciovec memory (iovs + i * 8)
    let data ← Wasi.read memory buf bufLen
    let rest ← pieces memory iovs left (i + 1)
    some (data :: rest)

/-- The buffers of one `fd_write`, each with what the volume has left when its turn comes. -/
def turns (space : Disk Name → Space) (fd : Fd) : List Bytes → Disk Name → List (Bytes × Nat)
  | [], _ => []
  | data :: rest, s =>
    (data, (space s).bytes) :: turns space fd rest
      (((s.exec b resolve stdout (space s) (.write fd data)).map fun done => done.2.2).getD s)

inductive GuestEvent where
  | fdWrite (buffers : List (Bytes × Nat))
  | other (op : Op)
  | compute

/-- The guest calls `fd_write` with the descriptor, anyone calls fdtab, or the guest computes. -/
inductive GuestStep (fd : I32) : World (Disk Name) → GuestEvent → World (Disk Name) → Prop where
  | fdWrite (w w' : World (Disk Name)) (space : Disk Name → Space) (iovsPtr iovsLen retptr : I32)
    (buffers : List Bytes) :
      pieces w.memory (asUsize iovsPtr) (rounds iovsLen) 0 = some buffers →
      Wasi.fdWrite (diskHost b resolve stdout space) asUsize fd iovsPtr iovsLen retptr w =
        some (.success, w') →
      GuestStep fd w (.fdWrite (turns b resolve stdout space fd buffers w.libos)) w'
  | other (w : World (Disk Name)) (space : Space) (op : Op) (result : Except FdtabError Reply)
    (data : List UInt8)
      (disk : Disk Name) : w.libos.exec b resolve stdout space op = some (result, data, disk) →
      GuestStep fd w (.other op) { w with libos := disk }
  | compute (w : World (Disk Name)) (memory : Bytes) : GuestStep fd w .compute { w with memory }

/-- The file of the crate that a descriptor has open. -/
def openedBy (s : Disk Name) (fd : Fd) : Option (Opened Name) :=
  match s.fdTable.files fd.toNat with
  | some ⟨_, .fatFS rawFd⟩ => slot s.volume.table rawFd.toNat
  | _ => none

/-- The other operations leave the contents of the file as they are. -/
def Undisturbed (name : Name) (w : World (Disk Name)) (e : GuestEvent) (w' : World (Disk Name)) :
    Prop :=
  match e with
  | .other _ => w'.libos.volume.content name = w.libos.volume.content name
  | _ => True

/-- A write that is not empty finds the descriptor at the end of the file, and the volume has room
for it. -/
def AtEnd (fd : Fd) (name : Name) (w : World (Disk Name)) (e : GuestEvent) (_ : World (Disk Name)) :
    Prop :=
  match e with
  | .fdWrite buffers =>
    allBytes buffers = [] ∨ ∃ opened, openedBy w.libos fd = some opened ∧ opened.name = name ∧
      opened.cursor = (w.libos.volume.content name).length ∧
        ∀ buffer ∈ buffers, buffer.1.length ≤ buffer.2
  | _ => True

/-- What the guest has written, in order. -/
def written : List GuestEvent → List UInt8
  | [] => []
  | .fdWrite buffers :: es => allBytes buffers ++ written es
  | _ :: es => written es

variable {b resolve stdout} {s t : Disk Name} {fd : Fd}

/-- A write that succeeds goes to the standard output or to an open file of the crate. -/
theorem write_cases
    (done : s.exec b resolve stdout space (.write fd data) = some (.ok reply, out, t)) :
    (s.fdTable.files fd.toNat = none ∧ t = s) ∨ ∃ mode rawFd opened,
      s.fdTable.files fd.toNat = some ⟨mode, .fatFS rawFd⟩ ∧
        slot s.volume.table rawFd.toNat = some opened ∧
      t = ⟨s.fdTable, (s.volume.fatfsWrite space rawFd data).2⟩ := by
  cases listed : s.fdTable.files fd.toNat with
  | none =>
    left
    by_cases standard : fd = 1 ∨ fd = 2
    · rw [Disk.exec_write_stdout standard] at done
      exact ⟨rfl, (by simpa using done : _ ∧ _ ∧ s = t).2.2.symm⟩
    · obtain ⟨e, failed⟩ := Disk.exec_write_absent b resolve stdout space listed standard data
      rw [failed] at done
      simp at done
  | some file =>
    right
    have valid := valid_of_listed listed
    cases allowed : file.canWrite with
    | false =>
      obtain ⟨e, failed⟩ := Disk.exec_write_denied b resolve stdout space valid listed allowed data
      rw [failed] at done
      simp at done
    | true =>
      obtain ⟨mode, src⟩ := file
      cases src with
      | fatFS rawFd =>
        rw [Disk.exec_write valid listed rfl allowed] at done
        cases found : slot s.volume.table rawFd.toNat with
        | none => simp [Volume.fatfsWrite, found, Except.mapError, Except.map] at done
        | some opened =>
          refine ⟨mode, rawFd, opened, rfl, found, ?_⟩
          simp only [Option.some.injEq, Prod.mk.injEq] at done
          exact done.2.2.symm
      | net socket =>
        have positive : ¬ fd.toNat = 0 := by omega
        simp [Disk.exec, Fdtab.exec, Fdtab.write, positive, valid, withFile_eq valid, listed,
          allowed, Volume.serve, Volume.unanswered, Done.map, Except.map, Except.mapError] at done

/-- What a descriptor sees of a file: the contents, and its position if it has the file open. -/
def view (s : Disk Name) (fd : Fd) (name : Name) : List UInt8 × Option Nat :=
  (s.volume.content name,
    (openedBy s fd).bind fun opened => if opened.name = name then some opened.cursor else none)

/-- The view after writes through the descriptor. -/
def puts (buffers : List (Bytes × Nat)) : List UInt8 × Option Nat → List UInt8 × Option Nat
  | (content, some cursor) =>
    let file := buffers.foldl put (content, cursor)
    (file.1, some file.2)
  | (content, none) => (content, none)

theorem write_view
    (done : s.exec b resolve stdout space (.write fd data) = some (.ok reply, out, t))
    (name : Name) :
    view t fd name = puts [(data, space.bytes)] (view s fd name) := by
  rcases write_cases done with ⟨standard, rfl⟩ | ⟨mode, rawFd, opened, listed, found, rfl⟩
  · have none : openedBy t fd = none := by rw [openedBy, standard]
    simp [view, none, puts]
  · have bound := lt_length_of_slot (found ▸ Option.some_ne_none opened)
    have before : openedBy s fd = some opened := by simp only [openedBy, listed, found]
    have after : openedBy ⟨s.fdTable, (s.volume.fatfsWrite space rawFd data).2⟩ fd =
        some { opened with cursor := opened.cursor + (data.take space.bytes).length } := by
      simp only [openedBy, listed, Volume.fatfsWrite, found, slot_set bound, Function.update_self]
    have content : (s.volume.fatfsWrite space rawFd data).2.content name =
        if name = opened.name then
          writeAt (s.volume.content opened.name) opened.cursor (data.take space.bytes)
        else s.volume.content name := by
      simp only [Volume.fatfsWrite, found, content_update]
    rw [view, view, after, before, content]
    by_cases same : opened.name = name
    · simp [same, puts, put]
    · simp [same, Ne.symm same, puts]

theorem puts_append (first second : List (Bytes × Nat)) (file : List UInt8 × Option Nat) :
    puts (first ++ second) file = puts second (puts first file) := by
  obtain ⟨content, _ | cursor⟩ := file
  · rfl
  · simp only [puts, List.foldl_append]

/-- The loop of `fd_write` writes the buffers one after the other. -/
theorem writeLoop_view (memory : Bytes) (iovs : Nat) (sound : Sound s.volume) (name : Name)
    (found : pieces memory iovs left i = some buffers)
    (done : writeLoop (diskHost b resolve stdout space) fd iovs memory left i size s =
      some (total, t)) :
    Sound t.volume ∧ view t fd name =
      puts (turns b resolve stdout space fd buffers s) (view s fd name) := by
  induction left generalizing i size s buffers with
  | zero =>
    obtain rfl := Option.some.inj found
    obtain ⟨-, rfl⟩ := Prod.mk.inj (Option.some.inj done)
    refine ⟨sound, ?_⟩
    rcases view s fd name with ⟨content, _ | cursor⟩ <;> rfl
  | succ left ih =>
    simp only [pieces, Option.bind_eq_bind, Option.bind_eq_some_iff, Prod.exists,
      Option.some.injEq] at found
    obtain ⟨buf, len, record, data, loaded, rest, others, rfl⟩ := found
    simp only [writeLoop, record, loaded, Option.bind_eq_bind, Option.bind_some,
      Option.bind_eq_some_iff, Prod.exists] at done
    obtain ⟨n, disk, wrote, looped⟩ := done
    obtain ⟨count, out, executed⟩ : ∃ count out,
        s.exec b resolve stdout (space s) (.write fd data) =
          some (.ok (.size count), out, disk) := by
      simp only [diskHost] at wrote
      split at wrote
      · next count out disk' executed =>
        obtain ⟨-, rfl⟩ := Prod.mk.inj (Option.some.inj wrote)
        exact ⟨count, out, executed⟩
      · cases wrote
    obtain ⟨kept, seen⟩ := ih (sound.exec executed) others looped
    refine ⟨kept, ?_⟩
    rw [seen, write_view executed, ← puts_append, turns, executed]
    rfl

theorem fdWrite_view {w w' : World (Disk Name)} (sound : Sound w.libos.volume) (name : Name)
    (found : pieces w.memory (asUsize iovsPtr) (rounds iovsLen) 0 = some buffers)
    (done : Wasi.fdWrite (diskHost b resolve stdout space) asUsize fd iovsPtr iovsLen retptr w =
      some (.success, w')) :
    Sound w'.libos.volume ∧
      view w'.libos fd name =
        puts (turns b resolve stdout space fd buffers w.libos) (view w.libos fd name) := by
  simp only [Wasi.fdWrite, Option.bind_eq_bind, Option.bind_eq_some_iff, Prod.exists] at done
  obtain ⟨total, disk, looped, memory, _, same⟩ := done
  obtain ⟨-, rfl⟩ := Prod.mk.inj (Option.some.inj same)
  exact writeLoop_view w.memory _ sound name found looped

theorem written_cons (e : GuestEvent) (es : List GuestEvent) :
    written (e :: es) = written [e] ++ written es := by
  cases e <;> simp [written]

/-- One step adds no more than it writes, as much only if it finds the position at the end, and then
appends it. -/
structure Adds (fd : Fd) (name : Name) (w : World (Disk Name)) (e : GuestEvent)
    (w' : World (Disk Name)) : Prop where
  most : (w'.libos.volume.content name).length ≤
    (w.libos.volume.content name).length + (written [e]).length
  full : (w.libos.volume.content name).length + (written [e]).length ≤
    (w'.libos.volume.content name).length →
    AtEnd fd name w e w'
  appends : AtEnd fd name w e w' →
    w'.libos.volume.content name = w.libos.volume.content name ++ written [e]

omit [DecidableEq Name] in
theorem Adds.unchanged {w w' : World (Disk Name)} {e : GuestEvent} (fd : Fd)
    (quiet : written [e] = []) (at_end : AtEnd fd name w e w')
    (same : w'.libos.volume.content name = w.libos.volume.content name) : Adds fd name w e w' := by
  refine ⟨by rw [same]; omega, fun _ => at_end, fun _ => by rw [same, quiet, List.append_nil]⟩

omit [DecidableEq Name] in
theorem openedBy_inside {opened : Opened Name} (sound : Sound s.volume)
    (found : openedBy s fd = some opened) :
    opened.cursor ≤ (s.volume.content opened.name).length := by
  unfold openedBy at found
  split at found
  · exact sound _ _ found
  · cases found

/-- A descriptor that does not have the file open cannot add to it. -/
theorem fdWrite_elsewhere {w w' : World (Disk Name)}
    (elsewhere : ∀ opened, openedBy w.libos fd = some opened → opened.name ≠ name)
    (seen : view w'.libos fd name = puts buffers (view w.libos fd name)) :
    Adds fd name w (.fdWrite buffers) w' := by
  have all : written [.fdWrite buffers] = allBytes buffers := by simp [written]
  have away : view w.libos fd name = (w.libos.volume.content name, none) := by
    rw [view]
    cases opened : openedBy w.libos fd with
    | none => rfl
    | some file => rw [Option.bind_some, if_neg (elsewhere file opened)]
  rw [away, puts] at seen
  have same : w'.libos.volume.content name = w.libos.volume.content name := congrArg Prod.fst seen
  refine ⟨by rw [same]; omega, fun grown => .inl ?_, fun at_end => ?_⟩
  · rw [same, all] at grown
    exact List.eq_nil_of_length_eq_zero (by omega)
  · rcases at_end with blank | ⟨opened, found, own, _⟩
    · rw [same, all, blank, List.append_nil]
    · exact absurd own (elsewhere opened found)

theorem fdWrite_adds {w w' : World (Disk Name)} (sound : Sound w.libos.volume)
    (seen : view w'.libos fd name = puts buffers (view w.libos fd name)) :
    Adds fd name w (.fdWrite buffers) w' := by
  by_cases elsewhere : ∀ opened, openedBy w.libos fd = some opened → opened.name ≠ name
  · exact fdWrite_elsewhere elsewhere seen
  · simp only [not_forall, not_not] at elsewhere
    obtain ⟨file, opened, rfl⟩ := elsewhere
    have all : written [.fdWrite buffers] = allBytes buffers := by simp [written]
    let before := (w.libos.volume.content file.name, file.cursor)
    have inside : before.2 ≤ before.1.length := openedBy_inside sound opened
    have at_end : AtEnd fd file.name w (.fdWrite buffers) w' ↔
        Appendable before buffers := by
      simp only [AtEnd, opened, Option.some.injEq, exists_eq_left', true_and]
      rfl
    have position : view w.libos fd file.name = (before.1, some before.2) := by
      rw [view, opened, Option.bind_some, if_pos rfl]
    rw [position, puts] at seen
    have content : w'.libos.volume.content file.name = (buffers.foldl put before).1 :=
      congrArg Prod.fst seen
    obtain ⟨most, full⟩ := puts_length buffers inside
    refine ⟨by rw [content, all]; exact most, fun grown => ?_, fun held => ?_⟩
    · rw [content, all] at grown
      exact at_end.mpr (full grown)
    · rw [content, all]
      exact puts_of_appendable (at_end.mp held)

theorem step_adds {w w' : World (Disk Name)} (sound : Sound w.libos.volume)
    (stepped : Where (GuestStep b resolve stdout fd) (Undisturbed name) w e w') :
    Sound w'.libos.volume ∧ Adds fd name w e w' := by
  obtain ⟨stepped, undisturbed⟩ := stepped
  cases stepped with
  | fdWrite _ space iovsPtr iovsLen retptr buffers found done =>
    obtain ⟨kept, seen⟩ := fdWrite_view sound name found done
    exact ⟨kept, fdWrite_adds sound seen⟩
  | other space op result data disk done =>
    exact ⟨sound.exec done, .unchanged fd rfl trivial undisturbed⟩
  | compute memory => exact ⟨sound, .unchanged fd rfl trivial rfl⟩

/-- The contents after a run, by induction over its steps. -/
theorem run_adds {w w' : World (Disk Name)} (sound : Sound w.libos.volume)
    (run : Run (Where (GuestStep b resolve stdout fd) (Undisturbed name)) w es w') :
    (w'.libos.volume.content name).length ≤
      (w.libos.volume.content name).length + (written es).length ∧
    ((w.libos.volume.content name).length + (written es).length ≤
      (w'.libos.volume.content name).length →
      Run (Where (Where (GuestStep b resolve stdout fd) (Undisturbed name)) (AtEnd fd name)) w es
        w') := by
  induction run with
  | nil w => exact ⟨by simp [written], fun _ => .nil w⟩
  | cons first _ ih =>
    obtain ⟨kept, adds⟩ := step_adds sound first
    obtain ⟨most, full⟩ := ih kept
    have stepMost := adds.most
    rw [written_cons, List.length_append]
    exact ⟨by omega, fun grown => .cons ⟨first, adds.full (by omega)⟩ (full (by omega))⟩

theorem run_appends {w w' : World (Disk Name)} (sound : Sound w.libos.volume)
    (run : Run (Where (Where (GuestStep b resolve stdout fd) (Undisturbed name)) (AtEnd fd name)) w
      es w') :
    w'.libos.volume.content name = w.libos.volume.content name ++ written es := by
  induction run with
  | nil w => simp [written]
  | cons first _ ih =>
    obtain ⟨kept, adds⟩ := step_adds sound first.1
    rw [ih kept, adds.appends first.2, List.append_assoc, ← written_cons]

/-- Disks that fdtab can bring about from a mounted image. -/
def Reached (b : Build) (resolve : String → Option Name) (stdout : List UInt8 → Size)
    (s : Disk Name) : Prop :=
  ∃ files ops, Run (fun s op t => ∃ space result data,
    s.exec b resolve stdout space op = some (result, data, t))
    ⟨[], .mounted files⟩ ops s

theorem Reached.sound (reached : Reached b resolve stdout s) : Sound s.volume := by
  obtain ⟨files, ops, run⟩ := reached
  exact run.stable (P := fun s : Disk Name => Sound s.volume)
    (fun sound ⟨_, _, _, done⟩ => sound.exec done)
    (sound_mounted files)

/-- An open that succeeds adds a file of the crate, at position 0 whatever the flags are. -/
theorem open_cases
    (done : s.exec b resolve stdout space (.open path flags mode) = some (.ok reply, out, t)) :
    ∃ name fd, resolve path = some name ∧ reply = .fd fd ∧
      t.volume.content name = s.volume.content name ∧
      (s.volume.table.length < 2 ^ 32 → s.fdTable.Room → openedBy t fd = some ⟨name, 0⟩ ∧
        ∃ rawFd, t.fdTable.files fd.toNat = some ⟨mode, .fatFS rawFd⟩) := by
  rw [Disk.exec_open] at done
  by_cases available : ∃ name, resolve path = some name ∧ AsStd.Available s flags space name
  · obtain ⟨name, named, available⟩ := available
    rw [AsStd.fatfsOpen_available named available] at done
    simp only [Option.some.injEq, Prod.mk.injEq, Except.ok.injEq] at done
    obtain ⟨rfl, -, rfl⟩ := done
    refine ⟨name, _, named, rfl, by rw [content_update, if_pos rfl], fun few room => ?_⟩
    have listed := congrFun (addFile_files room ⟨mode, .fatFS (UInt32.ofNat s.volume.table.length)⟩)
      (s.fdTable.addFile ⟨mode, .fatFS (UInt32.ofNat s.volume.table.length)⟩).1.toNat
    rw [Function.update_self] at listed
    refine ⟨?_, _, listed⟩
    simp only [openedBy, listed, UInt32.toNat_ofNat_of_lt' few, slot_snoc, Function.update_self]
  · have unavailable : ∀ name, resolve path = some name → ¬ AsStd.Available s flags space name :=
      fun name named there => available ⟨name, named, there⟩
    rw [AsStd.fatfsOpen_unavailable unavailable] at done
    simp at done

/-- What a successful `path_open` asks fdtab for, and what it gives the guest. -/
theorem pathOpen_cases {w w' : World (Disk Name)}
    (opened : pathOpen (diskHost b resolve stdout space) asUsize pathAddr pathLen oflags rightsBase
      fdflags retptr w = some (.success, w')) :
    ∃ path fd, readString (asUsize pathAddr) pathLen w.memory = some path ∧
      w'.fd2path fd = some path ∧
      LittleEndian.decode (LinearMemory.load w'.memory (asUsize retptr) 4) = fd.toNat ∧
      ∃ out, w.libos.exec b resolve stdout (space w.libos)
        (.open path (openFlags fdflags oflags) (openMode rightsBase)) =
        some (.ok (.fd fd), out, w'.libos) := by
  simp only [pathOpen, Option.bind_eq_bind, Option.bind_eq_some_iff, Prod.exists] at opened
  obtain ⟨path, named, answer, disk, asked, rest⟩ := opened
  cases answer with
  | none => simp at rest
  | some fd =>
    simp only [Option.bind_eq_some_iff, Option.some.injEq, Prod.mk.injEq, true_and] at rest
    obtain ⟨memory, stored, rfl⟩ := rest
    refine ⟨path, fd, named, Function.update_self .., ?_, ?_⟩
    · obtain ⟨inside, rfl⟩ := write_eq_some.mp stored
      rw [LittleEndian.encode_length] at inside
      rw [Vectors.result_read inside, Nat.mod_eq_of_lt fd.toNat_lt]
    · simp only [diskHost] at asked
      split at asked
      · next _ out _ executed =>
        simp only [Option.some.injEq, Prod.mk.injEq] at asked
        obtain ⟨rfl, rfl⟩ := asked
        exact ⟨out, executed⟩
      · simp at asked
      · cases asked

end Guests

/-- The contents after a run through the descriptor that `path_open` returned for appending are the
old ones followed by what was written exactly when every write that is not empty finds the
descriptor at the end of the file. It starts at position 0. -/
theorem append_mode_iff {Name : Type} [DecidableEq Name] (b : Build)
    (resolve : String → Option Name) (stdout : List UInt8 → Size) (space : Disk Name → Space)
    (pathAddr pathLen oflags : I32) (rightsBase : UInt64) (fdflags retptr : I32)
    (w₀ w : World (Disk Name)) (reached : Reached b resolve stdout w₀.libos)
    (appending : fdflags &&& 1 = 1) (writing : (rightsBase >>> 6) &&& 1 = 1)
    (opened : pathOpen (diskHost b resolve stdout space) asUsize pathAddr pathLen oflags rightsBase
      fdflags retptr w₀ = some (.success, w)) :
    ∃ path name fd, readString (asUsize pathAddr) pathLen w₀.memory = some path ∧
      resolve path = some name ∧
      LittleEndian.decode (LinearMemory.load w.memory (asUsize retptr) 4) = fd.toNat ∧
      openFlags fdflags oflags &&& O_APPEND = O_APPEND ∧
        openMode rightsBase &&& OpenMode.WR = OpenMode.WR ∧
      (w₀.libos.volume.table.length < 2 ^ 32 → w₀.libos.fdTable.Room →
        openedBy w.libos fd = some ⟨name, 0⟩) ∧
      ∀ es w', Run (Where (GuestStep b resolve stdout fd) (Undisturbed name)) w es w' →
        (w'.libos.volume.content name = w₀.libos.volume.content name ++ written es ↔
          Run (Where (Where (GuestStep b resolve stdout fd) (Undisturbed name)) (AtEnd fd name)) w
            es w') := by
  obtain ⟨path, fd, named, _, returned, out, executed⟩ := pathOpen_cases opened
  obtain ⟨name, fd', resolved, same, content, start⟩ := open_cases executed
  obtain rfl : fd = fd' := Reply.fd.inj same
  have sound : Sound w.libos.volume := reached.sound.exec executed
  refine ⟨path, name, fd, named, resolved, returned, ?_, ?_, fun few room => (start few room).1,
    fun es w' run => ?_⟩
  · rw [openFlags, if_pos appending]
    split <;> decide
  · rw [openMode, if_pos writing]
    split <;> decide
  · rw [← content]
    constructor
    · intro appended
      refine (run_adds sound run).2 ?_
      rw [appended, List.length_append]
    · exact run_appends sound

/-- A guest with the path `log` at address 0 and a record for the byte at address 32, and a file of
three bytes. -/
def logWorld : World (Disk String) where
  memory :=
    [108, 111, 103, 0, 0, 0, 0, 0, 0, 0, 0, 0, 0, 0, 0, 0, 32, 0, 0, 0, 1, 0, 0, 0, 0, 0, 0, 0, 0,
      0, 0, 0, 88]
  args := none
  fd2path _ := none
  libos := ⟨[], .mounted (Function.update (fun _ => none) "log" (some [97, 98, 99]))⟩

/-- The guest opens `log` for appending, and writes one byte: it replaces the first one. -/
theorem append_overwrites :
    ∃ w es w',
    pathOpen (diskHost debug some (fun _ => 0) fun _ => ⟨true, 100⟩) asUsize 0 3 0 64 1 8 logWorld =
      some (.success, w) ∧
    Run (Where (GuestStep debug some (fun _ => 0) 3) (Undisturbed "log")) w es w' ∧
      written es = [88] ∧
    logWorld.libos.volume.content "log" = [97, 98, 99] ∧
      w'.libos.volume.content "log" = [88, 98, 99] :=
  ⟨_, _, _, rfl, .cons ⟨.fdWrite _ _ (fun _ => ⟨true, 100⟩) 16 1 8 [[88]] rfl rfl, trivial⟩
    (.nil _), rfl, rfl,
    rfl⟩

/-- The guest once `log` is open. -/
def logOpened : World (Disk String) :=
  ((pathOpen (diskHost debug some (fun _ => 0) fun _ => ⟨true, 100⟩) asUsize 0 3 0 64 1 8
    logWorld).map
    Prod.snd).getD logWorld

/-- After a seek to the end the byte is appended. -/
theorem append_mode_after_seek :
    ∃ es w',
    pathOpen (diskHost debug some (fun _ => 0) fun _ => ⟨true, 100⟩) asUsize 0 3 0 64 1 8 logWorld =
      some (.success, logOpened) ∧
    Run (Where (GuestStep debug some (fun _ => 0) 3) (Undisturbed "log")) logOpened es w' ∧
      written es = [88] ∧
    w'.libos.volume.content "log" = [97, 98, 99] ++ written es := by
  obtain ⟨path, name, fd, named, resolved, returned, -, -, -, runs⟩ :=
    append_mode_iff debug some (fun _ => 0) (fun _ => ⟨true, 100⟩)
    0 3 0 64 1 8 logWorld logOpened ⟨_, [], .nil _⟩ (by decide) (by decide) rfl
  obtain rfl : path = "log" := (Option.some.inj named).symm
  obtain rfl : "log" = name := Option.some.inj resolved
  obtain rfl : fd = 3 := UInt32.toNat_inj.mp returned.symm
  have sought : Where (Where (GuestStep debug some (fun _ => 0) 3) (Undisturbed "log"))
      (AtEnd 3 "log") logOpened
      (.other (.lseek 3 3)) _ :=
    ⟨⟨.other _ ⟨true, 100⟩ (.lseek 3 3) _ _ _ rfl, rfl⟩, trivial⟩
  have run := Run.cons sought
    (.cons ⟨⟨.fdWrite _ _ (fun _ => ⟨true, 100⟩) 16 1 8 [[88]] rfl rfl, trivial⟩,
      .inr ⟨⟨"log", 3⟩, rfl, rfl, rfl, by decide⟩⟩ (.nil _))
  exact ⟨_, _, rfl, run.unguarded, rfl, (runs _ _ run.unguarded).mpr run⟩

end AlloyStack.Wasi.Append
