import Mathlib.Order.Bounds.Basic
import AlloyStack.Fdtab.Apis
import AlloyStack.Library.Transition

/-! The fdtab service as a map from descriptors to open files. The map is determined by what
the callers saw: which operations returned which descriptors, and which were closed. -/
namespace AlloyStack.Fdtab
open Rust Transition SlotTable

abbrev Files := Nat → Option File

/-- The map that a table stands for. -/
def FdTable.files (t : FdTable) : Files := fun n => if n < 3 then none else slot t (n - 3)

/-- One operation as its caller and the backends see it. -/
structure Observation where
  op : Op
  ans : Answers
  result : Except FdtabError Reply
  calls : List Call

/-- The descriptor that an operation works on. -/
def Op.target : Op → Option Fd
  | .open .. | .connect _ | .bind _ => none
  | .accept fd | .read fd _ | .write fd _ | .lseek fd _ | .stat fd | .close fd => some fd

/-- The backend call that serves an operation on a file; some operations have none. -/
def Op.call : Op → DataSource → Option Call
  | .accept _, .net socket => some (.smolAccept socket)
  | .read _ len, .fatFS rawFd => some (.fatfsRead rawFd len)
  | .read _ len, .net socket => some (.recv socket len)
  | .write _ buf, .fatFS rawFd => some (.fatfsWrite rawFd buf)
  | .write _ buf, .net socket => some (.send socket buf)
  | .lseek _ pos, .fatFS rawFd => some (.fatfsSeek rawFd pos)
  | .stat _, .fatFS rawFd => some (.fatfsStat rawFd)
  | .close _, .fatFS rawFd => some (.fatfsClose rawFd)
  | .close _, .net socket => some (.smolClose socket)
  | _, _ => none

/-- The error for an operation that the mode of a file forbids. -/
def Op.forbidden : Op → File → Option FdtabError
  | .read fd _, file => if file.canRead then none else some (.noReadPerm fd)
  | .write fd _, file => if file.canWrite then none else some (.noWritePerm fd)
  | _, _ => none

/-- What the backend of a file answers to an operation, as the caller gets it; `new` is the
descriptor of an accepted connection. -/
def Op.answer (ans : Answers) (new : Fd) : Op → DataSource → Option (Except FdtabError Reply)
  | .accept _, .net _ => some ((ans.smolAccept.mapError .socketError).map fun _ => .fd new)
  | .read _ _, .fatFS _ => some ((ans.fatfsRead.mapError .fatfsError).map .size)
  | .read _ _, .net _ => some ((ans.recv.mapError .socketError).map .size)
  | .write _ _, .fatFS _ => some ((ans.fatfsWrite.mapError .fatfsError).map .size)
  | .write _ buf, .net _ =>
    some (((ans.send.map fun _ => buf.length).mapError .socketError).map .size)
  | .lseek _ _, .fatFS _ => some ((ans.fatfsSeek.mapError .fatfsError).map fun _ => .unit)
  | .stat _, .fatFS _ => some ((ans.fatfsStat.mapError .fatfsError).map .stat)
  | .close _, .fatFS _ => some ((ans.fatfsClose.mapError .fatfsError).map fun _ => .unit)
  | .close _, .net _ => some ((ans.smolClose.mapError .socketError).map fun _ => .unit)
  | _, _ => none

/-- The call that `open`, `connect` and `bind` make, and the handle that it answers. -/
def Op.creation (ans : Answers) : Op → Option (Call × Except FdtabError UInt32)
  | .open path flags _ => some (.fatfsOpen path flags, ans.fatfsOpen.mapError .fatfsError)
  | .connect addr => some (.smolConnect addr, ans.smolConnect.mapError .socketError)
  | .bind addr => some (.smolBind addr, ans.smolBind.mapError .socketError)
  | _ => none

/-- What an operation prints about a descriptor that is not open; `close` prints nothing. -/
def Op.prints (fd : Fd) : Op → List Call
  | .close _ => []
  | _ => [.stdout (absentText fd)]

/-- The effect of an operation on the map. A closed descriptor is free whatever the backend
answers; `accept` hands the old handle to the new descriptor. -/
def Observation.apply (o : Observation) (m : Files) : Files :=
  match o.op, o.result with
  | .open _ _ mode, .ok (.fd fd) =>
    match o.ans.fatfsOpen with
    | .ok rawFd => Function.update m fd.toNat (some { mode, src := .fatFS rawFd })
    | .error _ => m
  | .connect _, .ok (.fd fd) =>
    match o.ans.smolConnect with
    | .ok socket => Function.update m fd.toNat (some { mode := OpenMode.RDWR, src := .net socket })
    | .error _ => m
  | .bind _, .ok (.fd fd) =>
    match o.ans.smolBind with
    | .ok socket => Function.update m fd.toNat (some { mode := OpenMode.RD, src := .net socket })
    | .error _ => m
  | .accept listened, .ok (.fd fd) =>
    match m listened.toNat, o.ans.smolAccept with
    | some file, .ok handle =>
      Function.update (Function.update m listened.toNat (some { file with src := .net handle }))
        fd.toNat (some { mode := OpenMode.RDWR, src := file.src })
    | _, _ => m
  | .close fd, _ => Function.update m fd.toNat none
  | _, _ => m

/-- What the observations so far leave open. -/
def Files.after (os : List Observation) : Files := os.foldl (fun m o => o.apply m) fun _ => none

/-- An operation on a descriptor that is not open fails without a call of a file system or of the
network, except that writes to 1 and 2 go to stdout. -/
def Observation.Absent (o : Observation) (fd : Fd) : Prop :=
  o.calls = [] ∧ fd.toNat ≤ 2 ∧ (∃ expect, o.result = .error (.badInputFd expect fd)) ∨
  o.calls = o.op.prints fd ∧ 3 ≤ fd.toNat ∧ o.result = .error (.noExistFd fd) ∨
  ∃ buf, o.op = .write fd buf ∧ (fd = 1 ∨ fd = 2) ∧ o.calls = [.stdout buf] ∧
    o.result = .ok (.size o.ans.stdout)

/-- An operation on an open descriptor calls the backend of its file with the handle of the
file and returns what that answers, unless the mode forbids the operation or the backend does not
have it. -/
def Observation.Present (o : Observation) (fd : Fd) (file : File) : Prop :=
  match o.op.forbidden file, o.op.call file.src with
  | some e, _ => o.calls = [] ∧ o.result = .error e
  | none, some call => o.calls = [call] ∧ ∃ new, o.op.answer o.ans new file.src = some o.result
  | none, none => o.calls = [] ∧ ∃ op, o.result = .error (.undefinedOperation op fd "Net")

/-- The service behaves as the map `m` says. -/
structure Served (m : Files) (o : Observation) (after : Files) : Prop where
  returned : ∀ fd, o.result = .ok (.fd fd) → IsLeast {n | 3 ≤ n ∧ m n = none} fd.toNat
  created : ∀ call answer, o.op.creation o.ans = some (call, answer) →
    o.calls = [call] ∧ ∃ new, o.result = answer.map fun _ => .fd new
  absent : ∀ fd, o.op.target = some fd → m fd.toNat = none → o.Absent fd
  present : ∀ fd file, o.op.target = some fd → m fd.toNat = some file → o.Present fd file
  frame : ∀ n, after n ≠ m n → (∃ fd, o.op.target = some fd ∧ fd.toNat = n) ∨
    ∃ fd, o.result = .ok (.fd fd) ∧ fd.toNat = n
  history : after = o.apply m

/-- Fewer than `2^32 - 3` slots are in use. -/
def FdTable.Room (t : FdTable) : Prop := used t < 2 ^ 32 - 3

section Table
variable {b : Build} {t : FdTable} {fd : Fd}

theorem index_eq (valid : ¬ fd.toNat ≤ 2) : b.sub fd.toNat 3 = some (fd.toNat - 3) := by
  have small : fd.toNat < word := Nat.lt_of_lt_of_le fd.toNat_lt (by decide)
  exact b.sub_eq (by omega) small

theorem files_eq (valid : ¬ fd.toNat ≤ 2) : t.files fd.toNat = slot t (fd.toNat - 3) := by
  rw [FdTable.files, if_neg (by omega)]

theorem files_low (low : n ≤ 2) : t.files n = none := by
  rw [FdTable.files, if_pos (by omega)]

theorem valid_of_listed (listed : t.files fd.toNat = some file) : ¬ fd.toNat ≤ 2 := by
  intro low
  rw [files_low low] at listed
  cases listed

theorem withFile_eq {f : Option File → List Call → α} (valid : ¬ fd.toNat ≤ 2) :
    t.withFile b fd f = some (f (t.files fd.toNat) (printed fd (t.files fd.toNat))) := by
  rw [FdTable.withFile, index_eq valid, files_eq valid, Option.map_some]

/-- The map after a write to the slot of a descriptor. -/
theorem files_update {v : Option File} (changed : slot t' = Function.update (slot t) i v) :
    FdTable.files t' = Function.update t.files (i + 3) v := by
  funext n
  by_cases low : n < 3
  · rw [Function.update_of_ne (by omega), FdTable.files, FdTable.files, if_pos low, if_pos low]
  · by_cases same : n = i + 3
    · subst same
      simp [FdTable.files, changed]
    · rw [Function.update_of_ne same, FdTable.files, FdTable.files, if_neg low, if_neg low, changed,
        Function.update_of_ne (by omega)]

theorem removeFile_slot (valid : ¬ fd.toNat ≤ 2) : ∃ rest : FdTable,
    t.removeFile b fd = some (slot t (fd.toNat - 3), rest) ∧
      slot rest = Function.update (slot t) (fd.toNat - 3) none := by
  rw [FdTable.removeFile, index_eq valid, Option.map_some]
  split
  · rename_i beyond
    have free := slot_of_length_le beyond
    exact ⟨t, by rw [free], (Function.update_eq_self_iff.mpr free.symm).symm⟩
  · rename_i inside
    exact ⟨_, rfl, slot_set (Nat.lt_of_not_le inside) none⟩

theorem removeFile_eq (valid : ¬ fd.toNat ≤ 2) :
    ∃ rest : FdTable,
    t.removeFile b fd = some (t.files fd.toNat, rest) ∧
      rest.files = Function.update t.files fd.toNat none := by
  obtain ⟨rest, removed, changed⟩ := removeFile_slot (b := b) (t := t) valid
  have shifted : fd.toNat - 3 + 3 = fd.toNat := by omega
  exact ⟨rest, files_eq (t := t) valid ▸ removed, shifted ▸ files_update changed⟩

theorem removeFile_length (removed : t.removeFile b fd = some (entry, rest)) :
    rest.length = t.length := by
  rw [FdTable.removeFile, Option.map_eq_some_iff] at removed
  obtain ⟨idx, -, same⟩ := removed
  split at same
  · rw [← (Prod.mk.inj same).2]
  · rw [← (Prod.mk.inj same).2, List.length_set]

theorem withFileMut_eq {f : Option File → List Call → α × Option File} (valid : ¬ fd.toNat ≤ 2)
    (kept : ∀ file calls, (f file calls).2.isSome = file.isSome) :
    ∃ (answer : α × Option File) (t' : FdTable),
      answer = f (t.files fd.toNat) (printed fd (t.files fd.toNat)) ∧
      t.withFileMut b fd f = some (answer.1, t') ∧ used t' = used t ∧
      t'.files = Function.update t.files fd.toNat answer.2 := by
  rw [FdTable.withFileMut, index_eq valid, files_eq valid, Option.map_some]
  have shifted : fd.toNat - 3 + 3 = fd.toNat := by omega
  cases found : slot t (fd.toNat - 3) with
  | none =>
    refine ⟨_, t, rfl, rfl, rfl, ?_⟩
    have free : (f none (printed fd none)).2 = none :=
      Option.isSome_eq_false_iff.mp (kept none _) |> Option.isNone_iff_eq_none.mp
    rw [free, eq_comm, Function.update_eq_self_iff, files_eq valid, found]
  | some file =>
    have inside := lt_length_of_slot (found ▸ Option.some_ne_none file)
    refine ⟨_, _, rfl, rfl, used_set inside (found ▸ kept (some file) _), ?_⟩
    rw [files_update (slot_set inside _), shifted]

theorem addFile_fd (room : t.Room) (file : File) :
    (t.addFile file).1.toNat = (insert file t).1 + 3 := by
  have bound := insert_le_used file t
  unfold FdTable.Room at room
  rw [FdTable.addFile, UInt32.toNat_ofNat', Nat.mod_eq_of_lt (by omega)]

theorem room_of_length (short : t.length < 2 ^ 32 - 3) : t.Room :=
  Nat.lt_of_le_of_lt List.countP_le_length short

theorem addFile_least (room : t.Room) (file : File) :
    IsLeast {n | 3 ≤ n ∧ t.files n = none} (t.addFile file).1.toNat := by
  rw [addFile_fd room]
  obtain ⟨free, least⟩ := insert_least file t
  refine ⟨⟨Nat.le_add_left 3 _, ?_⟩, ?_⟩
  · rw [FdTable.files, if_neg (by omega), Nat.add_sub_cancel]
    exact free
  · rintro n ⟨above, unused⟩
    rw [FdTable.files, if_neg (by omega)] at unused
    have first := least unused
    omega

theorem addFile_files (room : t.Room) (file : File) :
    (t.addFile file).2.files = Function.update t.files (t.addFile file).1.toNat (some file) := by
  rw [addFile_fd room]
  exact files_update (slot_insert file t)

end Table

section Operations
variable {b : Build} {ans : Answers} {t : FdTable} {fd : Fd}

/-- The operation is served in a table that stands for the map. -/
def Serves (b : Build) (ans : Answers) (op : Op) (t : FdTable) : Prop :=
  ∃ done, exec b ans op t = some done ∧
    Served t.files ⟨op, ans, done.result, done.calls⟩ done.table.files

theorem creation_target (op : Op) (ans : Answers) (target : op.target = some fd) :
    op.creation ans = none := by
  cases op <;> first | rfl | cases target

theorem served_absent {o : Observation} {m : Files} (target : o.op.target = some fd)
    (free : m fd.toNat = none) (answer : o.Absent fd) (value : ∀ fd, o.result ≠ .ok (.fd fd))
    (same : o.apply m = m) : Served m o m where
  returned fd returned := absurd returned (value fd)
  created call answer creates := nomatch (creation_target o.op o.ans target).symm.trans creates
  absent fd' target' _ := by
    rw [target] at target'
    exact Option.some.inj target' ▸ answer
  present fd' file target' found := by
    rw [target] at target'
    rw [← Option.some.inj target', free] at found
    nomatch found
  frame _ changed := absurd rfl changed
  history := same.symm

theorem served_present {o : Observation} {m after : Files} (target : o.op.target = some fd)
    (found : m fd.toNat = some file) (answer : o.Present fd file)
    (value : ∀ fd, o.result ≠ .ok (.fd fd)) (effect : after = o.apply m)
    (frame : ∀ n, n ≠ fd.toNat → after n = m n) : Served m o after where
  returned fd returned := absurd returned (value fd)
  created call answer creates := nomatch (creation_target o.op o.ans target).symm.trans creates
  absent fd' target' free := by
    rw [target] at target'
    rw [← Option.some.inj target', found] at free
    nomatch free
  present fd' file' target' found' := by
    rw [target] at target'
    rw [← Option.some.inj target'] at found' ⊢
    rw [found] at found'
    exact Option.some.inj found' ▸ answer
  frame n changed := by
    refine .inl ⟨fd, target, ?_⟩
    by_contra other
    exact changed (frame n (Ne.symm other))
  history := effect

theorem read_serves (len : Size) : Serves b ans (.read fd len) t := by
  by_cases low : fd.toNat ≤ 2
  · simp only [Serves, exec, read, if_pos low]
    exact ⟨_, rfl, served_absent rfl (files_low low) (.inl ⟨rfl, low, ">2", rfl⟩) nofun rfl⟩
  · simp only [Serves, exec, read, if_neg low, withFile_eq low, Option.map_some]
    refine ⟨_, rfl, ?_⟩
    cases found : t.files fd.toNat with
    | none => exact served_absent rfl found (.inr (.inl ⟨rfl, by omega, rfl⟩)) nofun rfl
    | some file =>
      cases allowed : file.canRead with
      | false =>
        simp only [allowed, Bool.not_false, if_true]
        exact served_present rfl found
          (by simp [Observation.Present, Op.forbidden, allowed, Done.map,
          Except.map]) nofun rfl fun _ _ => rfl
      | true =>
        simp only [allowed, Bool.not_true, Bool.false_eq_true, if_false]
        cases source : file.src with
        | fatFS rawFd =>
          refine served_present rfl found ?_ ?_ rfl fun _ _ => rfl
          · simp [Observation.Present, Op.forbidden, Op.call, Op.answer, allowed, source, Done.map]
          · cases ans.fatfsRead <;> nofun
        | net socket =>
          refine served_present rfl found ?_ ?_ rfl fun _ _ => rfl
          · simp [Observation.Present, Op.forbidden, Op.call, Op.answer, allowed, source, Done.map]
          · cases ans.recv <;> nofun

theorem write_serves (buf : List UInt8) : Serves b ans (.write fd buf) t := by
  by_cases zero : fd.toNat = 0
  · simp only [Serves, exec, write, if_pos zero]
    exact ⟨_, rfl, served_absent rfl (files_low (by omega))
      (.inl ⟨rfl, by simp [zero], ">0", rfl⟩) nofun rfl⟩
  · by_cases low : fd.toNat ≤ 2
    · simp only [Serves, exec, write, if_neg zero, if_pos low]
      have standard : fd = 1 ∨ fd = 2 := by
        rw [← UInt32.toNat_inj, ← UInt32.toNat_inj]
        simp only [UInt32.reduceToNat]
        omega
      exact ⟨_, rfl, served_absent rfl (files_low low)
        (.inr (.inr ⟨buf, rfl, standard, rfl, rfl⟩)) nofun rfl⟩
    · simp only [Serves, exec, write, if_neg zero, if_neg low, withFile_eq low, Option.map_some]
      refine ⟨_, rfl, ?_⟩
      cases found : t.files fd.toNat with
      | none => exact served_absent rfl found (.inr (.inl ⟨rfl, by omega, rfl⟩)) nofun rfl
      | some file =>
        cases allowed : file.canWrite with
        | false =>
          simp only [allowed, Bool.not_false, if_true]
          exact served_present rfl found
            (by simp [Observation.Present, Op.forbidden, allowed, Done.map,
            Except.map]) nofun rfl fun _ _ => rfl
        | true =>
          simp only [allowed, Bool.not_true, Bool.false_eq_true, if_false]
          cases source : file.src with
          | fatFS rawFd =>
            refine served_present rfl found ?_ ?_ rfl fun _ _ => rfl
            · simp [Observation.Present, Op.forbidden, Op.call, Op.answer, allowed, source,
                Done.map]
            · cases ans.fatfsWrite <;> nofun
          | net socket =>
            refine served_present rfl found ?_ ?_ rfl fun _ _ => rfl
            · simp [Observation.Present, Op.forbidden, Op.call, Op.answer, allowed, source,
                Done.map]
            · cases ans.send <;> nofun

theorem lseek_serves (pos : UInt32) : Serves b ans (.lseek fd pos) t := by
  by_cases low : fd.toNat ≤ 2
  · simp only [Serves, exec, lseek, if_pos low]
    exact ⟨_, rfl, served_absent rfl (files_low low) (.inl ⟨rfl, low, ">2", rfl⟩) nofun rfl⟩
  · simp only [Serves, exec, lseek, if_neg low, withFile_eq low, Option.map_some]
    refine ⟨_, rfl, ?_⟩
    cases found : t.files fd.toNat with
    | none => exact served_absent rfl found (.inr (.inl ⟨rfl, by omega, rfl⟩)) nofun rfl
    | some file =>
      dsimp only
      cases source : file.src with
      | fatFS rawFd =>
        refine served_present rfl found ?_ ?_ rfl fun _ _ => rfl
        · simp [Observation.Present, Op.forbidden, Op.call, Op.answer, source, Done.map]
        · cases ans.fatfsSeek <;> nofun
      | net socket =>
        refine served_present rfl found ?_ nofun rfl fun _ _ => rfl
        simp [Observation.Present, Op.forbidden, Op.call, source, Done.map, Except.map]

theorem stat_serves : Serves b ans (.stat fd) t := by
  by_cases low : fd.toNat ≤ 2
  · simp only [Serves, exec, stat, if_pos low]
    exact ⟨_, rfl, served_absent rfl (files_low low) (.inl ⟨rfl, low, ">2", rfl⟩) nofun rfl⟩
  · simp only [Serves, exec, stat, if_neg low, withFile_eq low, Option.map_some]
    refine ⟨_, rfl, ?_⟩
    cases found : t.files fd.toNat with
    | none => exact served_absent rfl found (.inr (.inl ⟨rfl, by omega, rfl⟩)) nofun rfl
    | some file =>
      dsimp only
      cases source : file.src with
      | fatFS rawFd =>
        refine served_present rfl found ?_ ?_ rfl fun _ _ => rfl
        · simp [Observation.Present, Op.forbidden, Op.call, Op.answer, source, Done.map]
        · cases ans.fatfsStat <;> nofun
      | net socket =>
        refine served_present rfl found ?_ nofun rfl fun _ _ => rfl
        simp [Observation.Present, Op.forbidden, Op.call, source, Done.map, Except.map]

theorem close_serves : Serves b ans (.close fd) t := by
  by_cases low : fd.toNat ≤ 2
  · simp only [Serves, exec, close, if_pos low]
    have free := files_low (t := t) low
    exact ⟨_, rfl, served_absent rfl free (.inl ⟨rfl, low, ">2", rfl⟩) nofun
      (Function.update_eq_self_iff.mpr free.symm)⟩
  · obtain ⟨rest, removed, closed⟩ := removeFile_eq (b := b) (t := t) low
    simp only [Serves, exec, close, if_neg low, removed, Option.map_some]
    refine ⟨_, rfl, ?_⟩
    cases found : t.files fd.toNat with
    | none =>
      have same : Function.update t.files fd.toNat none = t.files :=
        Function.update_eq_self_iff.mpr found.symm
      simp only [Done.map, closed, same]
      exact served_absent rfl found (.inr (.inl ⟨rfl, by omega, rfl⟩)) nofun same
    | some file =>
      have frame (n : Nat) (other : n ≠ fd.toNat) : rest.files n = t.files n := by
        rw [closed, Function.update_of_ne other]
      dsimp only
      cases source : file.src with
      | fatFS rawFd =>
        refine served_present rfl found ?_ ?_ closed frame
        · simp [Observation.Present, Op.forbidden, Op.call, Op.answer, source, Done.map]
        · cases ans.fatfsClose <;> nofun
      | net socket =>
        refine served_present rfl found ?_ ?_ closed frame
        · simp [Observation.Present, Op.forbidden, Op.call, Op.answer, source, Done.map]
        · cases ans.smolClose <;> nofun

/-- A new descriptor is the least free one, and only its entry changes. -/
theorem created_serves {op : Op} {file : UInt32 → File} {answer : Except FdtabError UInt32}
    (room : t.Room) (creates : op.target = none) (made : op.creation ans = some (call, answer))
    (run : exec b ans op t = (created call answer file t).map (Done.map .fd))
    (effect : ∀ handle fd, answer = .ok handle →
      Observation.apply ⟨op, ans, .ok (.fd fd), [call]⟩ t.files =
      Function.update t.files fd.toNat (some (file handle)))
    (failure : ∀ e, Observation.apply ⟨op, ans, .error e, [call]⟩ t.files = t.files) :
    Serves b ans op t := by
  rw [Serves, run]
  cases answer with
  | error e =>
    refine ⟨_, rfl, nofun, ?_, ?_, ?_, fun _ changed => absurd rfl changed, ?_⟩
    · rintro _ _ made'
      cases made.symm.trans made'
      exact ⟨rfl, 0, rfl⟩
    · exact fun fd target => nomatch creates.symm.trans target
    · exact fun fd file target => nomatch creates.symm.trans target
    · exact (failure e).symm
  | ok handle =>
    have files := addFile_files room (file handle)
    refine ⟨_, rfl, ?_, ?_, ?_, ?_, ?_, ?_⟩
    · rintro fd ⟨⟩
      exact addFile_least room (file handle)
    · rintro _ _ made'
      cases made.symm.trans made'
      exact ⟨rfl, _, rfl⟩
    · exact fun fd target => nomatch creates.symm.trans target
    · exact fun fd file target => nomatch creates.symm.trans target
    · intro n changed
      refine .inr ⟨_, rfl, ?_⟩
      by_contra other
      exact changed (by simp only [Done.map, files, Function.update_of_ne (Ne.symm other)])
    · exact files.trans (effect handle _ rfl).symm

theorem open_serves (room : t.Room) (path : String) (flags mode : UInt32) :
    Serves b ans (.open path flags mode) t := by
  refine created_serves room rfl rfl rfl (fun handle fd answered => ?_) fun e => rfl
  cases answer : ans.fatfsOpen with
  | error e => simp [answer, Except.mapError] at answered
  | ok value => simp_all [Observation.apply, Except.mapError]

theorem connect_serves (room : t.Room) (addr : SocketAddr) : Serves b ans (.connect addr) t := by
  refine created_serves room rfl rfl rfl (fun handle fd answered => ?_) fun e => rfl
  cases answer : ans.smolConnect with
  | error e => simp [answer, Except.mapError] at answered
  | ok value => simp_all [Observation.apply, Except.mapError]

theorem bind_serves (room : t.Room) (addr : SocketAddr) : Serves b ans (.bind addr) t := by
  refine created_serves room rfl rfl rfl (fun handle fd answered => ?_) fun e => rfl
  cases answer : ans.smolBind with
  | error e => simp [answer, Except.mapError] at answered
  | ok value => simp_all [Observation.apply, Except.mapError]

theorem acceptOn_kept (ans : Answers) (fd : Fd) (file : Option File) (calls : List Call) :
    (acceptOn ans fd file calls).2.isSome = file.isSome := by
  cases file with
  | none => rfl
  | some file =>
    obtain ⟨mode, src⟩ := file
    cases src with
    | fatFS rawFd => rfl
    | net socket => cases answer : ans.smolAccept <;> simp [acceptOn, answer]

/-- An accepted connection: the listening descriptor keeps its mode and gets the new handle. -/
theorem accepted_serves (room : t.Room) (valid : ¬ fd.toNat ≤ 2)
    (found : t.files fd.toNat = some file) (source : file.src = .net socket)
    (answer : ans.smolAccept = .ok handle) : Serves b ans (.accept fd) t := by
  obtain ⟨_, rest, rfl, swapped, count, files⟩ :=
    withFileMut_eq (b := b) (t := t) valid (acceptOn_kept ans fd)
  have acted : acceptOn ans fd (some file) (printed fd (some file)) =
      ((.ok socket, [.smolAccept socket]), some { file with src := .net handle }) := by
    simp only [acceptOn, source, answer]
  rw [found, acted] at swapped files
  have room' : rest.Room := by rwa [FdTable.Room, count]
  let connected : File := { mode := OpenMode.RDWR, src := .net socket }
  have after := addFile_files room' connected
  simp only [Serves, exec, accept, if_neg valid, swapped, Option.map_some]
  refine ⟨_, rfl, ?_, nofun, ?_, ?_, ?_, ?_⟩
  · rintro fd' ⟨⟩
    have same (n : Nat) : rest.files n = none ↔ t.files n = none := by
      by_cases here : n = fd.toNat
      · simp [here, files, found]
      · rw [files, Function.update_of_ne here]
    simpa only [same] using addFile_least room' connected
  · intro fd' target free
    obtain rfl := Option.some.inj target
    rw [found] at free
    nomatch free
  · intro fd' file' target found'
    obtain rfl := Option.some.inj target
    obtain rfl := Option.some.inj (found.symm.trans found')
    simp [Observation.Present, Op.forbidden, Op.call, Op.answer, source, answer, Done.map,
      Except.map, Except.mapError]
  · intro n changed
    by_contra elsewhere
    rw [not_or] at elsewhere
    have old : n ≠ fd.toNat := fun here => elsewhere.1 ⟨fd, rfl, here.symm⟩
    have new : n ≠ (rest.addFile connected).1.toNat := fun here => elsewhere.2 ⟨_, rfl, here.symm⟩
    exact changed (by simp only [Done.map, connected, after, Function.update_of_ne new, files,
      Function.update_of_ne old])
  · simp only [Observation.apply, found, answer, Done.map, Except.map, source]
    rw [← files]
    exact after

theorem accept_serves (room : t.Room) : Serves b ans (.accept fd) t := by
  by_cases low : fd.toNat ≤ 2
  · simp only [Serves, exec, accept, if_pos low]
    exact ⟨_, rfl, served_absent rfl (files_low low) (.inl ⟨rfl, low, ">2", rfl⟩) nofun rfl⟩
  · obtain ⟨answer, rest, acts, swapped, count, files⟩ :=
      withFileMut_eq (b := b) (t := t) low (acceptOn_kept ans fd)
    have failing (e : FdtabError) (calls : List Call)
        (acted : acceptOn ans fd (t.files fd.toNat) (printed fd (t.files fd.toNat)) =
          ((.error e, calls), t.files fd.toNat))
        (served : Served t.files ⟨.accept fd, ans, .error e, calls⟩ t.files) : Serves b ans
          (.accept fd) t := by
      rw [acts, acted] at swapped files
      simp only [Serves, exec, accept, if_neg low, swapped, Option.map_some]
      refine ⟨_, rfl, ?_⟩
      simp only [Done.map, Except.map, files, Function.update_eq_self]
      exact served
    cases found : t.files fd.toNat with
    | none =>
      apply failing (.noExistFd fd) [.stdout (absentText fd)]
      · rw [found]
        rfl
      · exact served_absent rfl found (.inr (.inl ⟨rfl, by omega, rfl⟩)) nofun rfl
    | some file =>
      cases source : file.src with
      | fatFS rawFd =>
        apply failing (.undefinedOperation "accept" fd "Net") []
        · simp only [found, acceptOn, source]
        · refine served_present rfl found ?_ nofun rfl fun _ _ => rfl
          simp [Observation.Present, Op.forbidden, Op.call, source]
      | net socket =>
        cases answer : ans.smolAccept with
        | ok handle => exact accepted_serves room low found source answer
        | error e =>
          apply failing (.socketError e) [.smolAccept socket]
          · simp only [found, acceptOn, source, answer]
          · refine served_present rfl found ?_ nofun rfl fun _ _ => rfl
            simp [Observation.Present, Op.forbidden, Op.call, Op.answer, source, answer,
              Except.mapError, Except.map]

theorem exec_serves (room : t.Room) (op : Op) : Serves b ans op t := by
  cases op with
  | «open» path flags mode => exact open_serves room path flags mode
  | connect addr => exact connect_serves room addr
  | bind addr => exact bind_serves room addr
  | accept fd => exact accept_serves room
  | read fd len => exact read_serves len
  | write fd buf => exact write_serves buf
  | lseek fd pos => exact lseek_serves pos
  | stat fd => exact stat_serves
  | close fd => exact close_serves

end Operations

/-- One operation of a run, as its caller sees it. -/
def FdStep (b : Build) (t : FdTable) (o : Observation) (after : FdTable) : Prop :=
  exec b o.ans o.op t = some ⟨o.result, o.calls, after⟩

def RoomBefore (t : FdTable) (_ : Observation) (_ : FdTable) : Prop := t.Room

theorem step_served {b : Build} (room : FdTable.Room t) (stepped : FdStep b t o after) :
    Served t.files o (FdTable.files after) := by
  obtain ⟨done, run, served⟩ : Serves b o.ans o.op t := exec_serves room o.op
  obtain rfl := Option.some.inj (run.symm.trans stepped)
  exact served

theorem step_files {b : Build} (stepped : Where (FdStep b) RoomBefore t o after) :
    FdTable.files after = o.apply (FdTable.files t) :=
  (step_served stepped.2 stepped.1).history

/-- The backend calls of an operation on a descriptor are those of its file. -/
theorem Served.calls (served : Served m o after) (target : o.op.target = some fd) :
    ∀ call ∈ o.calls, m fd.toNat = none ∧ (∃ buf, call = .stdout buf) ∨
      ∃ file, m fd.toNat = some file ∧ o.op.call file.src = some call := by
  intro call member
  cases found : m fd.toNat with
  | none =>
    rcases served.absent fd target found with ⟨none, _⟩ | ⟨only, _⟩ | ⟨buf, _, _, only, _⟩
    · simp [none] at member
    · rw [only] at member
      unfold Op.prints at member
      split at member
      · cases member
      · exact .inl ⟨rfl, _, List.mem_singleton.mp member⟩
    · rw [only, List.mem_singleton] at member
      exact .inl ⟨rfl, buf, member⟩
  | some file =>
    have present := served.present fd file target found
    unfold Observation.Present at present
    split at present
    · simp [present.1] at member
    · rename_i only called
      rw [present.1, List.mem_singleton] at member
      exact .inr ⟨file, rfl, member ▸ called⟩
    · simp [present.1] at member

/-- The two ends of `open`, `connect` and `bind`. -/
theorem created_step {b : Build} {t after : FdTable} {o : Observation}
    {answer : Except FdtabError UInt32} (room : t.Room) (stepped : FdStep b t o after)
    (run : exec b o.ans o.op t = (created call answer file t).map (Done.map .fd)) :
    o.calls = [call] ∧ ((∃ e, answer = .error e ∧ o.result = .error e ∧ after = t) ∨
      ∃ handle fd, answer = .ok handle ∧ o.result = .ok (.fd fd) ∧ t.files fd.toNat = none ∧
        after.files = Function.update t.files fd.toNat (some (file handle))) := by
  obtain ⟨op, ans, result, calls⟩ := o
  rw [FdStep, run] at stepped
  cases answer with
  | error e =>
    cases stepped
    exact ⟨rfl, .inl ⟨e, rfl, rfl, rfl⟩⟩
  | ok handle =>
    cases stepped
    exact ⟨rfl, .inr ⟨handle, _, rfl, rfl, (addFile_least room _).1.2, addFile_files room _⟩⟩

/-- The two ends of `accept`. -/
theorem accept_step {b : Build} {t after : FdTable} {o : Observation} {fd : Fd} (room : t.Room)
    (stepped : FdStep b t o after) (op : o.op = .accept fd) :
    ((∃ e, o.result = .error e) ∧ after.files = t.files ∧
      ∀ file socket handle, t.files fd.toNat = some file →
      file.src = .net socket → o.ans.smolAccept ≠ .ok handle) ∨
    ∃ file socket handle new, t.files fd.toNat = some file ∧ file.src = .net socket ∧
      o.ans.smolAccept = .ok handle ∧
      o.calls = [.smolAccept socket] ∧ o.result = .ok (.fd new) ∧ t.files new.toNat = none ∧
      after.files = Function.update
        (Function.update t.files fd.toNat (some { file with src := .net handle }))
        new.toNat (some { mode := OpenMode.RDWR, src := .net socket }) := by
  have served := step_served room stepped
  have history := served.history
  obtain ⟨_, ans, result, calls⟩ := o
  dsimp only at op
  subst op
  by_cases low : fd.toNat ≤ 2
  · simp only [FdStep, exec, accept, if_pos low, Option.map_some, Option.some.injEq] at stepped
    cases stepped
    exact .inl ⟨⟨_, rfl⟩, history, by simp [files_low low]⟩
  obtain ⟨_, rest, rfl, swapped, _⟩ := withFileMut_eq (b := b) (t := t) low (acceptOn_kept ans fd)
  simp only [FdStep, exec, accept, if_neg low, swapped, Option.map_some,
    Option.some.injEq] at stepped
  cases found : t.files fd.toNat with
  | none =>
    simp only [found, acceptOn] at stepped
    cases stepped
    exact .inl ⟨⟨_, rfl⟩, history, nofun⟩
  | some file =>
    cases source : file.src with
    | fatFS rawFd =>
      simp only [found, acceptOn, source] at stepped
      cases stepped
      refine .inl ⟨⟨_, rfl⟩, history, ?_⟩
      rintro _ socket handle ⟨⟩ network
      nomatch source.symm.trans network
    | net socket =>
      cases answer : ans.smolAccept with
      | error e =>
        simp only [found, acceptOn, source, answer] at stepped
        cases stepped
        exact .inl ⟨⟨_, rfl⟩, history, nofun⟩
      | ok handle =>
        simp only [found, acceptOn, source, answer] at stepped
        cases stepped
        simp only [Observation.apply, found, answer, source, Except.map] at history
        exact .inr ⟨file, socket, handle, _, rfl, source, rfl, rfl, rfl,
          (served.returned _ rfl).1.2, history⟩

theorem run_files {b : Build} (run : Run (Where (FdStep b) RoomBefore) [] os t) :
    FdTable.files t = Files.after os := by
  have initial : FdTable.files [] = Files.after [] := by
    funext n
    simp [FdTable.files, Files.after]
  refine run.history (P := fun os t => FdTable.files t = Files.after os)
    (fun held stepped => ?_) initial
  rw [step_files stepped, held, Files.after, Files.after, List.foldl_append]
  rfl

/-- The service refines the map that its own history determines, and no operation panics. -/
theorem fdtab_refines_files (b : Build) (os : List Observation) (t : FdTable)
    (run : Run (Where (FdStep b) RoomBefore) [] os t) (room : t.Room) (op : Op) (ans : Answers) :
    ∃ done, exec b ans op t = some done ∧
      Served (Files.after os) ⟨op, ans, done.result, done.calls⟩ done.table.files := by
  rw [← run_files run]
  exact exec_serves room op

/-- Backends that open with handle 7 and succeed otherwise. -/
def sevenAnswers : Answers where
  fatfsOpen := .ok 7
  fatfsRead := .ok 16
  fatfsWrite := .ok 16
  fatfsSeek := .ok ()
  fatfsStat := .ok ⟨64⟩
  fatfsClose := .ok ()
  recv := .ok 16
  send := .ok ()
  smolConnect := .ok 7
  smolBind := .ok 7
  smolAccept := .ok 8
  smolClose := .ok ()
  stdout := 16

/-- After `open` has returned 3, a read of 3 is served by handle 7. -/
theorem fdtab_serves_opened :
    ∃ done, exec debug sevenAnswers (.read 3 16) [some ⟨1, .fatFS 7⟩] = some done ∧
    Served (Files.after [⟨.open "a.txt" 0 1, sevenAnswers, .ok (.fd 3), [.fatfsOpen "a.txt" 0]⟩])
      ⟨.read 3 16, sevenAnswers, done.result, done.calls⟩ done.table.files := by
  refine fdtab_refines_files debug _ _ (.cons ⟨?_, ?_⟩ (.nil _)) ?_ _ _
  · rfl
  · simp [RoomBefore, FdTable.Room, used]
  · simp [FdTable.Room, used]

/-- A write to descriptor 1, which is never open, reaches stdout. -/
theorem stdout_not_refused : ¬ ∀ (b : Build) (os : List Observation) (t : FdTable),
    Run (Where (FdStep b) RoomBefore) [] os t → t.Room → ∀ (op : Op) (ans : Answers) (fd : Fd),
    op.target = some fd → Files.after os fd.toNat = none → ∃ done, exec b ans op t = some done ∧
      done.calls = [] ∧ ((∃ expect, done.result = .error (.badInputFd expect fd)) ∨
        done.result = .error (.noExistFd fd)) := by
  intro all
  obtain ⟨done, run, quiet, _⟩ := all debug [] [] (.nil _) (by simp [FdTable.Room, used])
    (.write 1 [104]) sevenAnswers 1 rfl rfl
  obtain rfl := Option.some.inj run
  exact List.cons_ne_nil _ _ quiet

end AlloyStack.Fdtab
