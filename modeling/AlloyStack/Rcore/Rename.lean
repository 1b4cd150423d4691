import AlloyStack.Rcore.Descriptors

/-! What `rename` of `rcore_sfsfdtab` and `rcorefdtab` does to the tree. A descriptor has a node and
knows neither the directory nor the name of its entry, so `rename` looks in the new parent for an
entry whose name is the number of the node. -/
namespace AlloyStack.Rcore
open Rust LockProgram AlloyStack.Fdtab

/-- The directories of a file system: the node behind each name. -/
abbrev Entries (I : Type) := I → String → Option I

/-- An entry for `node` has become the entry `newName` of `target`, and nothing else is
different. -/
structure Entries.Moved (before : Entries I) (dir : I) (name : String) (target : I)
    (newName : String) (node : I) (after : Entries I) : Prop where
  denotes : after target newName = some node
  gone : (dir, name) ≠ (target, newName) → after dir name = none
  others : ∀ d n, (d, n) ≠ (dir, name) → (d, n) ≠ (target, newName) → after d n = before d n

/-- What is assumed of the file system: its directories and the numbers of its nodes, and that
`move_` moves the entry that it is told. -/
structure Directories {I W E Stat Poll : Type} (fs : Vfs I W E Stat Poll) where
  entries : W → Entries I
  number : I → Nat
  described : ∀ node w, entries (fs.metadata node w).2.2 = entries w
  numbered : ∀ node w described, (fs.metadata node w).1 = .ok described →
    described.inode = number node
  moved : ∀ dir name target newName w, (fs.move dir name target newName w).1 = .ok () → ∃ node,
    entries w dir name = some node ∧
      (entries w).Moved dir name target newName node
        (entries (fs.move dir name target newName w).2.2)

section
variable {I W E Stat Poll : Type} {v : Setup I W E Stat Poll} {x : Directories v.vfs}
  {s ready t : Service I W}

/-- The file system does not describe the node, or does not move an entry that has its number for a
name. -/
def Refuses (x : Directories v.vfs) (node parent : I) (newName : String) (w : W) : Prop :=
  (∃ e, (v.vfs.metadata node w).1 = .error e) ∨
    ∃ e, (v.vfs.move parent (toString (x.number node)) parent newName
      (v.vfs.metadata node w).2.2).1 = .error e

/-- A call that returns true has renamed the entry `name` of `dir`. -/
def Renames (x : Directories v.vfs) (oldFd newParentFd : Nat) (newName : String) (dir : I)
    (name : String) (node parent : I) (s ready : Service I W) : Prop :=
  ∀ t, rename v oldFd newParentFd newName [] s = .done true t →
    (x.entries ready.world).Moved dir name parent newName node (x.entries t.world)

/-- What a call on two open descriptors comes to. -/
theorem rename_true_iff (x : Directories v.vfs) (ran : ensureInit v [] s = .done () ready)
    (oldOpen : ready.table (.ofNat oldFd) = some old)
    (parentOpen : ready.table (.ofNat newParentFd) = some parent) :
    rename v oldFd newParentFd newName [] s = .done true t ↔
      ¬ Refuses x old.inode parent.inode newName ready.world ∧
        t = { ready with world :=
          (v.vfs.move parent.inode (toString (x.number old.inode)) parent.inode newName
          (v.vfs.metadata old.inode ready.world).2.2).2.2 } := by
  have outer := outerHeld_outer v
  have device : Lock.device ∉ Lock.fdTable :: outerHeld v := outer.inside (by decide) (by decide)
  rw [rename, exported_eq ran, onTable_eq outer, oldOpen, Option.map_some, Option.getD_some,
    bind_eq]
  dsimp only [state]
  rw [parentOpen]
  dsimp only
  rw [call_bind device]
  cases answer : (v.vfs.metadata old.inode ready.world).1 with
  | error e =>
    constructor
    · intro ended
      cases ended
    · rintro ⟨accepted, -⟩
      exact absurd (.inl ⟨e, answer⟩) accepted
  | ok described =>
    dsimp only
    rw [x.numbered _ _ _ answer, succeeds, call_bind device]
    cases moved : (v.vfs.move parent.inode (toString (x.number old.inode)) parent.inode newName
        (v.vfs.metadata old.inode ready.world).2.2).1 with
    | error e =>
      constructor
      · intro ended
        cases ended
      · rintro ⟨accepted, -⟩
        exact absurd (.inr ⟨e, moved⟩) accepted
    | ok done =>
      constructor
      · intro ended
        cases ended
        refine ⟨?_, rfl⟩
        rintro (⟨e, failed⟩ | ⟨e, failed⟩)
        · rw [answer] at failed
          cases failed
        · rw [moved] at failed
          cases failed
      · rintro ⟨-, rfl⟩
        rfl

/-- The entry that a successful call moves. -/
theorem rename_moves (x : Directories v.vfs) {node parent : I} {w : W}
    (accepted : ¬ Refuses x node parent newName w) :
    ∃ moved, x.entries w parent (toString (x.number node)) = some moved ∧
      (x.entries w).Moved parent (toString (x.number node)) parent newName moved
        (x.entries (v.vfs.move parent (toString (x.number node)) parent newName
          (v.vfs.metadata node w).2.2).2.2) := by
  have ok : (v.vfs.move parent (toString (x.number node)) parent newName
      (v.vfs.metadata node w).2.2).1 = .ok () := by
    cases answer : (v.vfs.move parent (toString (x.number node)) parent newName
      (v.vfs.metadata node w).2.2).1 with
    | error e => exact absurd (.inr ⟨e, answer⟩) accepted
    | ok done => rfl
  have moved := x.moved _ _ _ _ _ ok
  rwa [x.described] at moved

/-- One change of the directories that moves two entries to one place moves the same entry. -/
theorem Entries.Moved.unique {before after : Entries I}
    (first : before.Moved dir name target newName node after)
    (second : before.Moved dir' name' target newName node' after)
    (entered : before dir name = some node) (entered' : before dir' name' = some node') :
    (dir, name) = (dir', name') := by
  by_contra other
  by_cases stays : (dir', name') = (target, newName)
  · have lost := first.gone (fun same => other (same.trans stays.symm))
    have kept := second.others dir name other (fun same => other (same.trans stays.symm))
    rw [lost, entered] at kept
    cases kept
  · have lost := second.gone stays
    have kept := first.others dir' name' (Ne.symm other) stays
    rw [lost, entered'] at kept
    cases kept

/-- A `rename` of open descriptors keeps its promise exactly if the file system refuses it, or if
the entry that it looks for, the number of the node in the new parent, is the one that was meant. -/
theorem rename_iff (v : Setup I W E Stat Poll) (x : Directories v.vfs) (s ready : Service I W)
    (oldFd newParentFd : Nat) (newName : String) (old parent : FileWrapper I) (dir : I)
    (name : String) (ran : ensureInit v [] s = .done () ready)
    (oldOpen : ready.table (.ofNat oldFd) = some old)
    (parentOpen : ready.table (.ofNat newParentFd) = some parent)
    (entered : x.entries ready.world dir name = some old.inode) :
    Renames x oldFd newParentFd newName dir name old.inode parent.inode s ready ↔
      Refuses x old.inode parent.inode newName ready.world ∨
        dir = parent.inode ∧ name = toString (x.number old.inode) := by
  constructor
  · intro renames
    by_cases refused : Refuses x old.inode parent.inode newName ready.world
    · exact .inl refused
    · obtain ⟨node, entered', moved⟩ := rename_moves x refused
      have meant := renames _ ((rename_true_iff x ran oldOpen parentOpen).mpr ⟨refused, rfl⟩)
      exact .inr (Prod.mk.inj (meant.unique moved entered entered'))
  · rintro (refused | ⟨rfl, rfl⟩) t ended
    · exact absurd refused ((rename_true_iff x ran oldOpen parentOpen).mp ended).1
    · obtain ⟨accepted, rfl⟩ := (rename_true_iff x ran oldOpen parentOpen).mp ended
      obtain ⟨node, entered', moved⟩ := rename_moves x accepted
      obtain rfl := Option.some.inj (entered.symm.trans entered')
      exact moved

end

section OneDirectory

/-- `move_` on directories. -/
def Entries.move (t : Entries Nat) (dir : Nat) (name : String) (target : Nat) (newName : String) :
    Option (Entries Nat) :=
  (t dir name).map fun node d n =>
    if (d, n) = (target, newName) then some node else if (d, n) = (dir, name) then none else t d n

theorem Entries.move_moved {t t' : Entries Nat} (moved : t.move dir name target newName = some t') :
    ∃ node, t dir name = some node ∧ t.Moved dir name target newName node t' := by
  obtain ⟨node, entered, rfl⟩ := Option.map_eq_some_iff.mp moved
  refine ⟨node, entered, if_pos rfl, fun other => ?_, fun d n one other => ?_⟩
  · rw [if_neg other, if_pos rfl]
  · rw [if_neg other, if_neg one]

/-- A file system of directories, whose nodes are their numbers. -/
def directories : Vfs Nat (Entries Nat) Unit Unit Unit where
  mount w := (some 0, 0, w)
  readAt _ _ _ w := (.error (), 0, w)
  writeAt _ _ _ w := (.error (), 0, w)
  metadata node w := (.ok ⟨.file, node, ()⟩, 0, w)
  lookup _ _ w := (.error (), 0, w)
  find _ _ w := (.error (), 0, w)
  list _ w := (.error (), 0, w)
  create _ _ _ _ w := (.error (), 0, w)
  link _ _ _ w := (.error (), 0, w)
  unlink _ _ w := (.error (), 0, w)
  move dir name target newName w :=
    match Entries.move w dir name target newName with
    | some w' => (.ok (), 0, w')
    | none => (.error (), 0, w)
  setMetadata _ _ w := (.error (), 0, w)
  syncAll _ w := (.error (), 0, w)
  syncData _ w := (.error (), 0, w)
  poll _ w := (.error (), 0, w)
  invalidParam := ()
  debug _ := ""

theorem directories_numbered (node : Nat) (w : Entries Nat) (described : Metadata Unit)
    (answer : (directories.metadata node w).1 = .ok described) : described.inode = node := by
  cases answer
  rfl

theorem directories_moved (dir : Nat) (name : String) (target : Nat) (newName : String)
    (w : Entries Nat) (ok : (directories.move dir name target newName w).1 = .ok ()) :
    ∃ node, w dir name = some node ∧
      w.Moved dir name target newName node (directories.move dir name target newName w).2.2 := by
  dsimp only [directories] at ok ⊢
  cases answer : Entries.move w dir name target newName with
  | none => simp [answer] at ok
  | some w' => exact Entries.move_moved answer

def plainDirectories : Directories directories where
  entries w := w
  number node := node
  described _ _ := rfl
  numbered := directories_numbered
  moved := directories_moved

def twoFiles : Setup Nat (Entries Nat) Unit Unit Unit :=
  ⟨.sfs, release, false, directories, List.length⟩

/-- The root has the file 5 under the name `a`, and another file under the name `5`. -/
def root : Entries Nat := fun dir name =>
  if dir = 0 ∧ name = "a" then some 5 else if dir = 0 ∧ name = "5" then some 7 else none

/-- The files and the root are open. -/
def twoOpen : Service Nat (Entries Nat) where
  table :=
    Function.update (Function.update (Function.update (fun _ => none) 3 (some ⟨5, 0, true, true⟩))
    4 (some ⟨0, 0, true, true⟩)) 5 (some ⟨7, 0, true, true⟩)
  nextFd := 6
  initDone := true
  globalFs := some 0
  world := root

theorem twoOpen_ready : ensureInit twoFiles [] twoOpen = .done () twoOpen := rfl

/-- The file 7 under its own number. -/
def ownNumber : Entries Nat := fun dir name => if dir = 0 ∧ name = "7" then some 7 else none

/-- The root has no entry `7`, so the file 7 stays where it is, and the call says so. Where `7` is
the name of the file 7, it is renamed. -/
theorem seven_renamed :
    Renames (v := twoFiles) plainDirectories 5 4 "b" 0 "5" 7 0 twoOpen twoOpen ∧
    Renames (v := twoFiles) plainDirectories 5 4 "b" 0 "7" 7 0 { twoOpen with world := ownNumber }
      { twoOpen with world := ownNumber } := by
  constructor
  · exact (rename_iff twoFiles plainDirectories twoOpen twoOpen 5 4 "b" ⟨7, 0, true, true⟩
      ⟨0, 0, true, true⟩ 0 "5" twoOpen_ready rfl rfl rfl).mpr (.inl (.inr ⟨(), rfl⟩))
  · exact (rename_iff twoFiles plainDirectories _ { twoOpen with world := ownNumber } 5 4 "b"
      ⟨7, 0, true, true⟩ ⟨0, 0, true, true⟩ 0 "7" rfl rfl rfl rfl).mpr (.inr ⟨rfl, by decide⟩)

/-- `rename` of the file `a` to `b` renames the other file. -/
theorem rename_other_file :
    ¬ ∀ (s ready : Service Nat (Entries Nat)) (oldFd newParentFd : Nat) (newName : String)
    (old parent : FileWrapper Nat) (dir : Nat) (name : String),
      ensureInit twoFiles [] s = .done () ready →
    ready.table (.ofNat oldFd) = some old → ready.table (.ofNat newParentFd) = some parent →
    plainDirectories.entries ready.world dir name = some old.inode →
    Renames (v := twoFiles) plainDirectories oldFd newParentFd newName dir name old.inode
      parent.inode s ready := by
  intro renames
  have meant :=
    renames twoOpen twoOpen 3 4 "b" ⟨5, 0, true, true⟩
      ⟨0, 0, true, true⟩ 0 "a" twoOpen_ready rfl rfl rfl _ rfl
  have gone := meant.gone (by decide)
  revert gone
  decide

end OneDirectory
end AlloyStack.Rcore
