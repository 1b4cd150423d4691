import Mathlib.Data.List.Basic
import AlloyStack.Library.CounterTable
import AlloyStack.Rcore.LockDiscipline
import AlloyStack.Ext4fdtab.Apis

/-! The descriptors that `rcore_sfsfdtab`, `rcorefdtab` and `ext4fdtab` hand out. All three draw
them from `NEXT_FD`, which only `alloc_fd` moves. -/
namespace AlloyStack.Rcore
open Rust LockProgram Transition CounterTable AlloyStack.Fdtab

section Calls
variable {I W E Stat Poll : Type} {v : Setup I W E Stat Poll} {held : List Lock}

/-- The statics before the first call. -/
def Service.initial (world : W) : Service I W := ⟨fun _ => none, 3, false, none, world⟩

def view (s : Service I W) : Keyed (FileWrapper I) := ⟨s.table, s.nextFd⟩

/-- A call of `open` or `close` that succeeds. -/
inductive Step (v : Setup I W E Stat Poll) : Service I W → Event → Service I W → Prop where
  | opened (s t : Service I W) (path : String) (flags mode : UInt32) (fd : Fd) :
    openFile v path flags mode [] s = .done (.ok fd) t → Step v s (.opened fd) t
  | closed (s t : Service I W) (fd : Fd) : close v fd [] s = .done (.ok ()) t →
    Step v s (.closed fd) t

/-- What the initialisation may do to the table: insert a standard stream. -/
def Prepared (s ready : Service I W) : Prop :=
  ready.nextFd = s.nextFd ∧ ∀ fd, ready.table fd ≠ none → fd.toNat < 3 ∨ s.table fd ≠ none

theorem Prepared.world (s : Service I W) (world : W) (globalFs : Option I) (initDone : Bool) :
    Prepared s { s with world, globalFs, initDone } := ⟨rfl, fun _ found => .inr found⟩

theorem Prepared.trans {first second third : Service I W} (before : Prepared first second)
    (after : Prepared second third) : Prepared first third := by
  refine ⟨after.1.trans before.1, fun fd found => ?_⟩
  rcases after.2 fd found with reserved | older
  · exact .inl reserved
  · exact before.2 fd older

theorem Prepared.insert (s : Service I W) {fd : Fd} (reserved : fd.toNat < 3)
    (file : FileWrapper I) :
    Prepared s { s with table := Function.update s.table fd (some file) } := by
  refine ⟨rfl, fun other found => ?_⟩
  by_cases same : other = fd
  · exact .inl (same ▸ reserved)
  · exact .inr (by simpa [Function.update_of_ne same] using found)

theorem standardStream_done (table : .fdTable ∉ held) (device : .device ∉ held) (root : I) (fd : Fd)
    (reserved : fd.toNat < 3) (path : String) (readable writable : Bool) (s : Service I W) :
    ∃ t, standardStream v root fd path readable writable held s = .done () t ∧ Prepared s t := by
  unfold standardStream
  rw [call_bind device, withLock_eq table]
  refine ⟨_, rfl, ?_⟩
  exact (Prepared.world s _ s.globalFs s.initDone).trans (Prepared.insert _ reserved _)

theorem init_done (table : .fdTable ∉ held) (device : .device ∉ held) (s : Service I W) :
    ∃ t, init v held s = .done () t ∧ Prepared s t := by
  have stream := fun root => standardStream_done (v := v) table device root
  unfold init
  rw [call_bind device]
  simp only [bind_eq, state, put]
  have mounted := Prepared.world s (v.vfs.mount s.world).2.2 (v.vfs.mount s.world).1 s.initDone
  generalize (v.vfs.mount s.world).1 = found at mounted ⊢
  generalize { s with globalFs := found, world := (v.vfs.mount s.world).2.2 } = start at mounted ⊢
  cases v.kind with
  | sfs => exact ⟨_, rfl, mounted⟩
  | ramfs =>
    cases found with
    | none => exact ⟨_, rfl, mounted⟩
    | some root =>
      obtain ⟨t₀, first, prepared₀⟩ := stream root 0 (by decide) "/dev/stdin" true false start
      obtain ⟨t₁, second, prepared₁⟩ := stream root 1 (by decide) "/dev/stdout" false true t₀
      obtain ⟨t₂, third, prepared₂⟩ := stream root 2 (by decide) "/dev/stderr" false true t₁
      refine ⟨t₂, ?_, ((mounted.trans prepared₀).trans prepared₁).trans prepared₂⟩
      dsimp only
      rw [bind_eq, first]
      dsimp only
      rw [bind_eq, second]
      exact third

theorem ensureInit_done (v : Setup I W E Stat Poll) (s : Service I W) :
    ∃ ready, ensureInit v [] s = .done () ready ∧ Prepared s ready := by
  unfold ensureInit
  simp only [bind_eq, state]
  split
  · exact ⟨s, rfl, rfl, fun _ found => .inr found⟩
  · have absent : Lock.fdTable ∉ [Lock.initDone] ∧ Lock.device ∉ [Lock.initDone] := by decide
    obtain ⟨t, ran, prepared⟩ := init_done (v := v) absent.1 absent.2 s
    rw [withLock_eq (by simp), bind_eq, ran]
    exact ⟨_, rfl, prepared.trans (Prepared.world t t.world t.globalFs true)⟩

/-- A new descriptor: the counter before the call, at the place of the table that it names. -/
def Allocated (ready t : Service I W) (fd : Fd) : Prop :=
  fd = ready.nextFd ∧ t.nextFd = ready.nextFd + 1 ∧
    ∃ file, t.table = Function.update ready.table fd (some file)

/-- `NEXT_FD` overflows in a checked build, or the next descriptor is handed out. -/
theorem allocFd_cases (v : Setup I W E Stat Poll) (outer : Outer held) (inode : I)
    (readable writable : Bool) (s : Service I W) :
    v.build.overflowChecks ∧ allocFd v inode readable writable held s = .panic ∨
      allocFd v inode readable writable held s = .done s.nextFd { s with
        table := Function.update s.table s.nextFd (some ⟨inode, 0, readable, writable⟩)
        nextFd := s.nextFd + 1 } := by
  unfold allocFd
  rw [withLock_eq (outer.absent (by decide)), withLock_eq (outer.inside (by decide) (by decide)),
    bind_eq]
  dsimp only [state]
  split
  · rename_i overflows
    exact .inl ⟨overflows.1, rfl⟩
  · exact .inr rfl

theorem allocFd_eq (outer : Outer held) (optimised : v.build = release) (inode : I)
    (readable writable : Bool) (s : Service I W) :
    allocFd v inode readable writable held s = .done s.nextFd { s with
      table := Function.update s.table s.nextFd (some ⟨inode, 0, readable, writable⟩)
      nextFd := s.nextFd + 1 } := by
  rcases allocFd_cases v outer inode readable writable s with ⟨checked, -⟩ | allocated
  · rw [optimised] at checked
    cases checked
  · exact allocated

theorem openMissing_allocates (outer : Outer held) (optimised : v.build = release)
    (opened : openMissing v root path flags mode held s = .done (.ok fd) t) : Allocated s t fd := by
  have device : Lock.device ∉ held := outer.absent (by decide)
  unfold openMissing at opened
  cases kind : v.kind with
  | ramfs =>
    rw [kind] at opened
    cases opened
  | sfs =>
    rw [kind] at opened
    dsimp only at opened
    split at opened
    · rw [call_bind device] at opened
      cases answer : (v.vfs.create root (trimStart path) .file 0o644 s.world).1 with
      | error e =>
        rw [answer] at opened
        cases opened
      | ok inode =>
        rw [answer] at opened
        simp only [bind_eq, allocFd_eq outer optimised] at opened
        cases opened
        exact ⟨rfl, rfl, _, rfl⟩
    · cases opened

/-- Both ways through `open` that succeed come to `alloc_fd`, and nothing before it touches the
table. -/
theorem openFile_allocates (optimised : v.build = release)
    (ran : ensureInit v [] s = .done () ready)
    (opened : openFile v path flags mode [] s = .done (.ok fd) t) : Allocated ready t fd := by
  have outer := outerHeld_outer v
  have device : Lock.device ∉ outerHeld v := outer.absent (by decide)
  unfold openFile at opened
  rw [exported_eq ran] at opened
  simp only [bind_eq, state] at opened
  cases mounted : ready.globalFs with
  | none =>
    rw [mounted] at opened
    cases opened
  | some root =>
    rw [mounted] at opened
    dsimp only at opened
    rw [call_bind device] at opened
    cases answer : (v.vfs.lookup root path ready.world).1 with
    | ok inode =>
      rw [answer] at opened
      simp only [bind_eq, call_eq device, allocFd_eq outer optimised] at opened
      cases opened
      exact ⟨rfl, rfl, _, rfl⟩
    | error e =>
      rw [answer] at opened
      dsimp only at opened
      have allocated := openMissing_allocates outer optimised opened
      exact allocated

theorem close_removes (ran : ensureInit v [] s = .done () ready)
    (closed : close v fd [] s = .done (.ok ()) t) :
    t = { ready with table := Function.update ready.table fd none } := by
  unfold close removeFd at closed
  rw [exported_eq ran, bind_eq, withLock_eq ((outerHeld_outer v).absent (by decide))] at closed
  cases closed
  rfl

theorem draws (optimised : v.build = release) : Draws (Step v) view where
  opened {s key t} step := by
    obtain ⟨ready, ran, next, older⟩ := ensureInit_done v s
    cases step with
    | opened _ path flags mode _ opened =>
      obtain ⟨rfl, counted, file, table⟩ := openFile_allocates optimised ran opened
      refine ⟨next, ?_, ?_⟩
      · rw [view, counted, next]
        rfl
      · rw [view, table]
        exact Keyed.within_update older _ _ _
  closed {s key t} step := by
    obtain ⟨ready, ran, next, older⟩ := ensureInit_done v s
    cases step with
    | closed _ _ closed =>
      cases close_removes ran closed
      exact ⟨next, Function.update_self _ _ _, Keyed.within_update older _ _ _⟩

end Calls
end AlloyStack.Rcore

namespace AlloyStack.Ext4fdtab
open Rust CounterTable AlloyStack.Fdtab
variable {F E Inode Stat : Type} {v : Setup F E Inode Stat}

def view (s : Service F Inode) : Keyed (FileWrapper Inode) := ⟨s.table, s.nextFd⟩

inductive Step (v : Setup F E Inode Stat) : Service F Inode → Event → Service F Inode → Prop where
  | opened (s t : Service F Inode) (path : String) (flags mode : UInt32) (fd : Fd) :
    openFile v path flags mode s = some (.ok fd, t) → Step v s (.opened fd) t
  | closed (s t : Service F Inode) (fd : Fd) : close v fd s = some (.ok (), t) →
    Step v s (.closed fd) t

theorem ensureInit_view (v : Setup F E Inode Stat) (s : Service F Inode) :
    view (ensureInit v s) = view s := by
  unfold ensureInit
  split <;> rfl

theorem openFile_allocates (optimised : v.build = release)
    (opened : openFile v path flags mode s = some (.ok fd, t)) :
    fd = s.nextFd ∧ ∃ file, view t = ⟨Function.update s.table fd (some file), s.nextFd + 1⟩ := by
  have same := ensureInit_view v s
  unfold openFile at opened
  generalize ensureInit v s = ready at opened same
  have next : ready.nextFd = s.nextFd := congrArg Keyed.next same
  have table : ready.table = s.table := congrArg Keyed.table same
  dsimp only at opened
  split at opened
  · cases opened
  · split at opened
    · cases opened
    · rw [allocFd, if_neg (by simp [optimised, release])] at opened
      cases opened
      rw [← next, ← table]
      exact ⟨rfl, _, rfl⟩

theorem draws (optimised : v.build = release) : Draws (Step v) view where
  opened {s key t} step := by
    cases step with
    | opened _ path flags mode _ opened =>
      obtain ⟨rfl, file, after⟩ := openFile_allocates optimised opened
      refine ⟨rfl, ?_, ?_⟩
      · rw [after]
        rfl
      · rw [after]
        exact Keyed.within_update (s := view s) (fun _ found => .inr found) _ _ _
  closed {s key t} step := by
    cases step with
    | closed _ _ closed =>
      cases closed
      have same := ensureInit_view v s
      have next : (ensureInit v s).nextFd = s.nextFd := congrArg Keyed.next same
      have table : (ensureInit v s).table = s.table := congrArg Keyed.table same
      refine ⟨next, Function.update_self _ _ _, ?_⟩
      rw [view, removeFd, table]
      exact Keyed.within_update (s := view s) (fun _ found => .inr found) _ _ _

end AlloyStack.Ext4fdtab

namespace AlloyStack.Rcore
open Rust LockProgram Transition CounterTable AlloyStack.Fdtab

/-- In each of the services the descriptors of a run are fresh exactly when no more opens succeed
than there are descriptors from 3 on. -/
theorem descriptors_fresh_iff {I W E Stat Poll F E' Inode Stat' : Type}
    (v : Setup I W E Stat Poll) (x : Ext4fdtab.Setup F E' Inode Stat')
    (optimised : v.build = release) (compiled : x.build = release) (world : W) (es : List Event) :
    (∀ t, Run (Step v) (.initial world) es t →
      (Run (Where (Step v) (Fresh view)) (.initial world) es t ↔ opens es ≤ 2 ^ 32 - 3)) ∧
    (∀ t, Run (Ext4fdtab.Step x) .initial es t →
      (Run (Where (Ext4fdtab.Step x) (Fresh Ext4fdtab.view)) .initial es t ↔
        opens es ≤ 2 ^ 32 - 3)) := by
  constructor
  · intro t run
    exact fresh_run_iff (draws optimised) run (.initial rfl fun _ => rfl)
  · intro t run
    exact fresh_run_iff (Ext4fdtab.draws compiled) run (.initial rfl fun _ => rfl)

/-- A release build of `rcore_sfsfdtab` over a file system where every name can be created. -/
def creating : Setup Unit Unit Unit Unit Unit := ⟨.sfs, release, false, rootOnly, List.length⟩

/-- A release build of `ext4fdtab` over a file system where every path is inode 12. -/
def twelve : Ext4fdtab.Setup Unit Unit Unit Unit where
  build := release
  ext4 :=
    { init := some ()
      fileOpen := fun _ _ fs => (.ok 12, fs)
      getInodeRef := fun inodeNum _ => ⟨inodeNum, ()⟩
      readAt := fun _ _ _ fs => (.ok [], fs)
      writeAt := fun _ _ buf fs => (.ok buf.length, fs)
      dirOpen := fun _ fs => (.error (), fs)
      dirGetEntries := fun _ _ => []
      fromInodeRef := fun _ => ()
      eacces := ()
      debug := fun _ => "EACCES" }
  stdout := List.length

/-- Opened, closed and opened again. -/
def reopened : List Event := [.opened 3, .closed 3, .opened 4]

theorem creating_reopened : ∃ t, Run (Step creating) (.initial ()) reopened t :=
  ⟨_, .cons (.opened _ _ "part" AlloyStack.Fatfs.O_CREAT 1 3 rfl) <| .cons (.closed _ _ 3 rfl) <|
    .cons (.opened _ _ "part" AlloyStack.Fatfs.O_CREAT 1 4 rfl) (.nil _)⟩

theorem twelve_reopened : ∃ t, Run (Ext4fdtab.Step twelve) .initial reopened t :=
  ⟨_, .cons (.opened _ _ "part" 0 1 3 rfl) <| .cons (.closed _ _ 3 rfl) <| .cons
    (.opened _ _ "part" 0 1 4 rfl) (.nil _)⟩

theorem descriptors_fresh_reopened :
    (∃ t, Run (Where (Step creating) (Fresh view)) (.initial ()) reopened t) ∧
    (∃ t, Run (Where (Ext4fdtab.Step twelve) (Fresh Ext4fdtab.view)) .initial reopened t) := by
  have fresh := descriptors_fresh_iff creating twelve rfl rfl () reopened
  have enough : opens reopened ≤ 2 ^ 32 - 3 := by decide
  obtain ⟨t, first⟩ := creating_reopened
  obtain ⟨u, second⟩ := twelve_reopened
  exact ⟨⟨t, (fresh.1 t first).mpr enough⟩, u, (fresh.2 u second).mpr enough⟩

theorem creating_opens (s : Service Unit Unit) (live : s.initDone = false ∨ s.globalFs = some ()) :
    ∃ fd t, Step creating s (.opened fd) t ∧ (t.initDone = false ∨ t.globalFs = some ()) := by
  obtain ⟨table, nextFd, initDone, globalFs, world⟩ := s
  refine ⟨nextFd, ⟨Function.update table nextFd (some ⟨(), 0, true, false⟩), nextFd + 1, true,
    some (), ()⟩, ?_, .inr rfl⟩
  refine .opened _ _ "part" AlloyStack.Fatfs.O_CREAT 1 nextFd ?_
  cases initDone with
  | false => rfl
  | true =>
    rcases live with never | rfl
    · cases never
    · rfl

theorem descriptors_reused : ¬ ∀ (v : Setup Unit Unit Unit Unit Unit), v.build = release → ∀ es t,
    Run (Step v) (.initial ()) es t → Run (Where (Step v) (Fresh view)) (.initial ()) es t := by
  intro always
  obtain ⟨es, t, run, count⟩ :=
    opens_reached creating_opens (2 ^ 32 - 2) (.inl rfl : (Service.initial ()).initDone = false ∨ _)
  have fresh := always creating rfl es t run
  -- one open more than there are descriptors from 3 on
  have bound := opens_of_fresh (draws rfl) fresh (.initial rfl fun _ => rfl)
  omega

end AlloyStack.Rcore
