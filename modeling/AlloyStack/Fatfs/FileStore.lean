import Mathlib.Order.Bounds.Basic
import AlloyStack.Library.Transition
import AlloyStack.AsStd.File

/-! What the fdtab and fatfs services are for: files with contents, and descriptors with a file, a
mode and a position each. The services have two tables for this, with handles of their own. -/
namespace AlloyStack.Fatfs
open Rust SlotTable Transition AlloyStack.Fdtab

structure Descriptor (Name : Type) where
  mode : UInt32
  name : Name
  cursor : Nat

structure Store (Name : Type) where
  descriptors : Nat → Option (Descriptor Name)
  files : Name → Option (List UInt8)

/-- An operation with what the volume has left for it, its result and the bytes that it reads. -/
structure FileEvent where
  space : Space
  op : Op
  result : Except FdtabError Reply
  data : List UInt8

namespace Store
variable {Name : Type}

def initial (files : Name → Option (List UInt8)) : Store Name := ⟨fun _ => none, files⟩

def content (s : Store Name) (name : Name) : List UInt8 := (s.files name).getD []

def put (s : Store Name) (n : Nat) (d : Option (Descriptor Name)) : Store Name :=
  { s with descriptors := Function.update s.descriptors n d }

/-- What is wrong with an operation on a descriptor. -/
def denial (s : Store Name) (fd : Fd) (check : Descriptor Name → Option FdtabError) :
    Option FdtabError :=
  match s.descriptors fd.toNat with
  | none => some (.noExistFd fd)
  | some d => check d

def refusal (s : Store Name) : Op → Option FdtabError
  | .read fd _ =>
    if fd.toNat ≤ 2 then some (.badInputFd ">2" fd)
    else
      s.denial fd fun d => if d.mode &&& OpenMode.RD == OpenMode.RD then none
        else some (.noReadPerm fd)
  | .write fd _ =>
    if fd.toNat = 0 then some (.badInputFd ">0" fd)
    else if fd.toNat ≤ 2 then none
    else
      s.denial fd fun d => if d.mode &&& OpenMode.WR == OpenMode.WR then none
        else some (.noWritePerm fd)
  | .lseek fd _ | .stat fd | .close fd =>
    if fd.toNat ≤ 2 then some (.badInputFd ">2" fd) else s.denial fd fun _ => none
  | _ => none

/-- The file is there, or it can be created. -/
def Available (s : Store Name) (flags : UInt32) (space : Space) (name : Name) : Prop :=
  (s.files name).isSome = true ∨ (flags &&& O_CREAT == O_CREAT && space.entry) = true

def write [DecidableEq Name] (s : Store Name) (name : Name) (content : List UInt8) : Store Name :=
  { s with files := Function.update s.files name (some content) }

end Store

section Steps
variable {Name : Type} [DecidableEq Name] (resolve : String → Option Name)
  (stdout : List UInt8 → Size)

/-- A new descriptor is the least that is not in use, and starts at the beginning of its file. A
read stops at the end of the file, and a write goes over what is there. -/
inductive StoreStep : Store Name → FileEvent → Store Name → Prop where
  | opened (located : resolve path = some name) (available : s.Available flags space name)
    (least : IsLeast {n | 3 ≤ n ∧ s.descriptors n = none} fd.toNat) :
    StoreStep s ⟨space, .open path flags mode, .ok (.fd fd), []⟩
      ((s.write name (s.content name)).put fd.toNat (some ⟨mode, name, 0⟩))
  | unopened (absent : ∀ name, resolve path = some name → ¬ s.Available flags space name) :
    StoreStep s ⟨space, .open path flags mode, .error (.fatfsError .unknown), []⟩ s
  | read (allowed : s.refusal (.read fd len) = none) (found : s.descriptors fd.toNat = some d)
    (bytes : data = ((s.content d.name).drop d.cursor).take len) :
    StoreStep s ⟨space, .read fd len, .ok (.size data.length), data⟩
      (s.put fd.toNat (some { d with cursor := d.cursor + data.length }))
  | wrote (allowed : s.refusal (.write fd buf) = none) (found : s.descriptors fd.toNat = some d) :
    StoreStep s ⟨space, .write fd buf, .ok (.size buf.length), []⟩
      ((s.write d.name (writeAt (s.content d.name) d.cursor buf)).put fd.toNat
        (some { d with cursor := d.cursor + buf.length }))
  | printed (standard : fd = 1 ∨ fd = 2) :
    StoreStep s ⟨space, .write fd buf, .ok (.size (stdout buf)), []⟩ s
  | sought (allowed : s.refusal (.lseek fd pos) = none) (found : s.descriptors fd.toNat = some d) :
    StoreStep s ⟨space, .lseek fd pos, .ok .unit, []⟩
      (s.put fd.toNat (some { d with cursor := min pos.toNat (s.content d.name).length }))
  | measured (allowed : s.refusal (.stat fd) = none) (found : s.descriptors fd.toNat = some d) :
    StoreStep s ⟨space, .stat fd, .ok (.stat ⟨(s.content d.name).length⟩), []⟩ s
  | closed (allowed : s.refusal (.close fd) = none) (found : s.descriptors fd.toNat = some d) :
    StoreStep s ⟨space, .close fd, .ok .unit, []⟩ (s.put fd.toNat none)
  | refused (refusal : s.refusal op = some e) : StoreStep s ⟨space, op, .error e, []⟩ s

/-- No file is open through two handles. -/
def Volume.Single (v : Volume Name) : Prop :=
  ∀ i j first second, slot v.table i = some first → slot v.table j = some second →
    first.name = second.name → i = j

/-- The two services do one operation. A handle of the crate has its own copy of the size and the
place of its file, so it is left open what they do where a file has two handles. -/
def DiskStep (b : Build) (s : Disk Name) (e : FileEvent) (t : Disk Name) : Prop :=
  s.volume.Single → s.exec b resolve stdout e.space e.op = some (e.result, e.data, t)

/-- An operation on files, for which the volume has room. -/
def Fitting (space : Space) : Op → Prop
  | .write _ buf => buf.length ≤ space.bytes
  | .connect _ | .bind _ | .accept _ => False
  | _ => True

/-- No file is opened that is open already. -/
def Sole (s : Disk Name) : Op → Prop
  | .open path _ _ => ∀ name, resolve path = some name →
    ∀ i opened, slot s.volume.table i = some opened → opened.name ≠ name
  | _ => True

/-- What the program keeps to. -/
def Proper (s : Disk Name) (e : FileEvent) (_ : Disk Name) : Prop :=
  Fitting e.space e.op ∧ Sole resolve s e.op

def opens : Op → Bool
  | .open .. => true
  | _ => false

end Steps

namespace Disk
variable {Name : Type} {s t : Disk Name} {space : Space} {fd rawFd : Fd}
  {file : File} {mode : UInt32} {opened : Opened Name}

/-- The store that the two tables and the volume stand for. -/
def store (s : Disk Name) : Store Name where
  descriptors n :=
    (s.fdTable.files n).bind fun file =>
    match file.src with
    | .fatFS rawFd =>
      (slot s.volume.table rawFd.toNat).map fun opened => ⟨file.mode, opened.name, opened.cursor⟩
    | .net _ => none
  files := s.volume.files

/-- Every entry of fdtab has a file of its own in the table of fatfs. -/
structure Joined (s : Disk Name) : Prop where
  opened : ∀ n file, s.fdTable.files n = some file →
    ∃ rawFd opened, file.src = .fatFS rawFd ∧ slot s.volume.table rawFd.toNat = some opened
  apart : ∀ n m file other rawFd, s.fdTable.files n = some file → s.fdTable.files m = some other →
    file.src = .fatFS rawFd → other.src = .fatFS rawFd → n = m
  counted : s.fdTable.length ≤ s.volume.table.length
  single : s.volume.Single

theorem store_descriptors (listed : s.fdTable.files n = some ⟨mode, .fatFS rawFd⟩)
    (found : slot s.volume.table rawFd.toNat = some opened) :
    s.store.descriptors n = some ⟨mode, opened.name, opened.cursor⟩ := by
  simp only [store, listed, found, Option.bind_some, Option.map_some]

/-- A descriptor of the store is an entry of fdtab with its file. -/
theorem Joined.descriptor_cases (joined : s.Joined) (n : Nat) :
    s.fdTable.files n = none ∧ s.store.descriptors n = none ∨
    ∃ mode rawFd opened, s.fdTable.files n = some ⟨mode, .fatFS rawFd⟩ ∧
      slot s.volume.table rawFd.toNat = some opened ∧
      s.store.descriptors n = some ⟨mode, opened.name, opened.cursor⟩ := by
  cases listed : s.fdTable.files n with
  | none =>
    refine .inl ⟨rfl, ?_⟩
    simp only [store, listed, Option.bind_none]
  | some file =>
    obtain ⟨rawFd, opened, source, found⟩ := joined.opened n file listed
    obtain ⟨mode, src⟩ := file
    obtain rfl : src = .fatFS rawFd := source
    exact .inr ⟨mode, rawFd, opened, rfl, found, store_descriptors listed found⟩

theorem Joined.free_iff (joined : s.Joined) (n : Nat) :
    s.store.descriptors n = none ↔ s.fdTable.files n = none := by
  rcases joined.descriptor_cases n with ⟨free, absent⟩ | ⟨mode, rawFd, opened, listed, -, present⟩
  · exact iff_of_true absent free
  · exact iff_of_false (by simp [present]) (by simp [listed])

/-- The handles of other descriptors are other handles. -/
theorem Joined.handle_ne (joined : s.Joined)
    (listed : s.fdTable.files n = some ⟨mode, .fatFS rawFd⟩)
    (listed' : s.fdTable.files m = some ⟨mode', .fatFS rawFd'⟩) (other : m ≠ n) :
    rawFd'.toNat ≠ rawFd.toNat := by
  intro same
  obtain rfl := UInt32.toNat_inj.mp same
  exact other (joined.apart m n _ _ rawFd' listed' listed rfl rfl)

/-- A step that leaves the other entries and their files alone changes one descriptor. -/
theorem Joined.store_eq_put (joined : s.Joined) {n : Nat} {d : Option (Descriptor Name)}
    (own : t.store.descriptors n = d)
    (entries : ∀ m ≠ n, t.fdTable.files m = s.fdTable.files m)
    (handles : ∀ m ≠ n, ∀ mode rawFd, s.fdTable.files m = some ⟨mode, .fatFS rawFd⟩ →
      slot t.volume.table rawFd.toNat = slot s.volume.table rawFd.toNat) :
    t.store = ({ s.store with files := t.volume.files } : Store Name).put n d := by
  refine congrArg (Store.mk · t.volume.files) (funext fun m => ?_)
  by_cases same : m = n
  · rw [same, Function.update_self]
    exact own
  · rw [Function.update_of_ne same]
    rcases joined.descriptor_cases m with ⟨free, -⟩ | ⟨mode, rawFd, opened, listed, found, -⟩
    · simp only [store, entries m same, free, Option.bind_none]
    · simp only [store, entries m same, listed, Option.bind_some, handles m same mode rawFd listed]

section Change
variable (files : Name → Option (List UInt8)) (changed : Opened Name)

/-- The services after a change to an open file. -/
def change (s : Disk Name) (rawFd : Fd) (changed : Opened Name)
    (files : Name → Option (List UInt8)) : Disk Name :=
  ⟨s.fdTable, ⟨s.volume.table.set rawFd.toNat (some changed), files⟩⟩

theorem slot_change (found : slot s.volume.table rawFd.toNat = some opened) :
    slot (s.change rawFd changed files).volume.table =
      Function.update (slot s.volume.table) rawFd.toNat (some changed) :=
  slot_set (lt_length_of_slot (found ▸ Option.some_ne_none opened)) _

theorem Joined.change (joined : s.Joined) (found : slot s.volume.table rawFd.toNat = some opened)
    (same : changed.name = opened.name) : (s.change rawFd changed files).Joined where
  opened n file listed := by
    obtain ⟨rawFd', opened', source, found'⟩ := joined.opened n file listed
    rw [slot_change files changed found]
    by_cases same : rawFd'.toNat = rawFd.toNat
    · exact ⟨rawFd', changed, source, by rw [same, Function.update_self]⟩
    · exact ⟨rawFd', opened', source, by rw [Function.update_of_ne same, found']⟩
  apart := joined.apart
  counted := by
    rw [Disk.change, List.length_set]
    exact joined.counted
  single i j first second left right alike := by
    have before {k : Nat} {o : Opened Name}
        (here : slot (s.change rawFd changed files).volume.table k = some o) :
        ∃ old, slot s.volume.table k = some old ∧ old.name = o.name := by
      rw [slot_change files changed found] at here
      by_cases own : k = rawFd.toNat
      · rw [own, Function.update_self] at here
        exact ⟨opened, by rw [own, found], by rw [← same, Option.some.inj here]⟩
      · rw [Function.update_of_ne own] at here
        exact ⟨o, here, rfl⟩
    obtain ⟨first', left, named⟩ := before left
    obtain ⟨second', right, named'⟩ := before right
    exact joined.single i j _ _ left right (named.trans (alike.trans named'.symm))

/-- Only the descriptor of the file changes. -/
theorem Joined.store_change (joined : s.Joined)
    (listed : s.fdTable.files n = some ⟨mode, .fatFS rawFd⟩)
    (found : slot s.volume.table rawFd.toNat = some opened) :
    (s.change rawFd changed files).store =
      ({ s.store with files := files } : Store Name).put n
        (some ⟨mode, changed.name, changed.cursor⟩) := by
  refine joined.store_eq_put (store_descriptors listed ?_) (fun _ _ => rfl) ?_
  · rw [slot_change files changed found, Function.update_self]
  · intro m other mode' rawFd' listed'
    rw [slot_change files changed found,
      Function.update_of_ne (joined.handle_ne listed listed' other)]

end Change

/-- The removal of an entry that is not there changes nothing. -/
theorem removeFile_absent {b : Build} {table : FdTable} (low : ¬ fd.toNat ≤ 2)
    (free : table.files fd.toNat = none) : table.removeFile b fd = some (none, table) := by
  rw [files_eq low] at free
  rw [FdTable.removeFile, index_eq low, Option.map_some]
  split
  · rfl
  next inside =>
    have entry : table[fd.toNat - 3] = none := by
      rwa [slot, List.getElem?_eq_getElem (by omega), Option.join_some] at free
    rw [free, ← entry, List.set_getElem_self]

theorem Joined.remove (joined : s.Joined)
    (listed : s.fdTable.files n = some ⟨mode, .fatFS rawFd⟩)
    (found : slot s.volume.table rawFd.toNat = some opened)
    (files : t.fdTable.files = Function.update s.fdTable.files n none)
    (length : t.fdTable.length = s.fdTable.length)
    (volume : t.volume = { s.volume with table := s.volume.table.set rawFd.toNat none }) :
    t.Joined ∧ t.store = s.store.put n none := by
  have slots : slot t.volume.table = Function.update (slot s.volume.table) rawFd.toNat none := by
    rw [volume]
    exact slot_set (lt_length_of_slot (found ▸ Option.some_ne_none opened)) _
  have same : t.volume.files = s.volume.files := by rw [volume]
  have left {m : Nat} {file : File} (listed' : t.fdTable.files m = some file) :
      m ≠ n ∧ s.fdTable.files m = some file := by
    rw [files] at listed'
    by_cases own : m = n
    · rw [own, Function.update_self] at listed'
      cases listed'
    · rw [Function.update_of_ne own] at listed'
      exact ⟨own, listed'⟩
  refine ⟨⟨?_, ?_, ?_, ?_⟩, (joined.store_eq_put ?_ ?_ ?_).trans (by rw [same]; rfl)⟩
  · intro m file listed'
    obtain ⟨other, before⟩ := left listed'
    obtain ⟨rawFd', opened', source, found'⟩ := joined.opened m file before
    obtain ⟨mode', src⟩ := file
    obtain rfl : src = .fatFS rawFd' := source
    refine ⟨rawFd', opened', rfl, ?_⟩
    rw [slots, Function.update_of_ne (joined.handle_ne listed before other), found']
  · intro m k file other rawFd' listed' listed''
    exact joined.apart m k file other rawFd' (left listed').2 (left listed'').2
  · rw [length, volume, List.length_set]
    exact joined.counted
  · have before {k : Nat} {o : Opened Name} (here : slot t.volume.table k = some o) :
        slot s.volume.table k = some o := by
      rw [slots] at here
      by_cases own : k = rawFd.toNat
      · rw [own, Function.update_self] at here
        cases here
      · rwa [Function.update_of_ne own] at here
    exact fun i j first second left right => joined.single i j _ _ (before left) (before right)
  · simp only [store, files, Function.update_self, Option.bind_none]
  · intro m other
    rw [files, Function.update_of_ne other]
  · intro m other mode' rawFd' listed'
    rw [slots, Function.update_of_ne (joined.handle_ne listed listed' other)]

/-- The handle of a new file is beyond those of the others. -/
theorem Joined.add (joined : s.Joined) {n : Nat} {name : Name}
    (handle : rawFd.toNat = s.volume.table.length)
    (entries : t.fdTable.files = Function.update s.fdTable.files n (some ⟨mode, .fatFS rawFd⟩))
    (length : t.fdTable.length ≤ s.fdTable.length + 1)
    (table : t.volume.table = s.volume.table ++ [some ⟨name, 0⟩])
    (sole : ∀ i opened, slot s.volume.table i = some opened → opened.name ≠ name) :
    t.Joined ∧ t.store =
      ({ s.store with files := t.volume.files } : Store Name).put n (some ⟨mode, name, 0⟩) := by
  have slots : slot t.volume.table =
      Function.update (slot s.volume.table) s.volume.table.length (some ⟨name, 0⟩) := by
    rw [table, slot_snoc]
  have old {m : Nat} {file : File} {rawFd' : Fd} (listed' : s.fdTable.files m = some file)
      (source : file.src = .fatFS rawFd') : rawFd'.toNat ≠ s.volume.table.length := by
    obtain ⟨rawFd'', opened', source', found'⟩ := joined.opened m file listed'
    obtain rfl : rawFd' = rawFd'' := by simpa [source] using source'
    exact (lt_length_of_slot (found' ▸ Option.some_ne_none opened')).ne
  refine ⟨⟨?_, ?_, ?_, ?_⟩, joined.store_eq_put ?_ ?_ ?_⟩
  · intro m file listed'
    rw [entries] at listed'
    by_cases own : m = n
    · rw [own, Function.update_self] at listed'
      obtain rfl := Option.some.inj listed'
      exact ⟨rawFd, ⟨name, 0⟩, rfl, by rw [slots, handle, Function.update_self]⟩
    · rw [Function.update_of_ne own] at listed'
      obtain ⟨rawFd', opened', source, found'⟩ := joined.opened m file listed'
      exact ⟨rawFd', opened', source,
        by rw [slots, Function.update_of_ne (old listed' source), found']⟩
  · intro m k file other rawFd' listed' listed'' source source'
    rw [entries] at listed' listed''
    by_cases first : m = n <;> by_cases second : k = n
    · rw [first, second]
    · rw [first, Function.update_self] at listed'
      rw [Function.update_of_ne second] at listed''
      obtain rfl := Option.some.inj listed'
      obtain rfl : rawFd = rawFd' := by simpa using source
      exact absurd handle (old listed'' source')
    · rw [second, Function.update_self] at listed''
      rw [Function.update_of_ne first] at listed'
      obtain rfl := Option.some.inj listed''
      obtain rfl : rawFd = rawFd' := by simpa using source'
      exact absurd handle (old listed' source)
    · rw [Function.update_of_ne first] at listed'
      rw [Function.update_of_ne second] at listed''
      exact joined.apart m k file other rawFd' listed' listed'' source source'
  · have counted := joined.counted
    rw [table, List.length_append, List.length_singleton]
    omega
  · intro i j first second left right alike
    rw [slots] at left right
    by_cases new : i = s.volume.table.length <;> by_cases new' : j = s.volume.table.length
    · rw [new, new']
    · rw [new, Function.update_self] at left
      rw [Function.update_of_ne new'] at right
      obtain rfl := Option.some.inj left
      exact absurd alike.symm (sole j second right)
    · rw [new', Function.update_self] at right
      rw [Function.update_of_ne new] at left
      obtain rfl := Option.some.inj right
      exact absurd alike (sole i first left)
    · rw [Function.update_of_ne new] at left
      rw [Function.update_of_ne new'] at right
      exact joined.single i j _ _ left right alike
  · exact store_descriptors (by rw [entries, Function.update_self])
      (by rw [slots, handle, Function.update_self])
  · intro m other
    rw [entries, Function.update_of_ne other]
  · intro m other mode' rawFd' listed'
    rw [slots, Function.update_of_ne (old listed' rfl)]

section Operations
variable [DecidableEq Name] {b : Build} {resolve : String → Option Name}
  {stdout : List UInt8 → Size} {op : Op} {e : FdtabError}

/-- The operation ends as the store has it, and leaves joined tables. -/
def Explained (b : Build) (resolve : String → Option Name) (stdout : List UInt8 → Size)
    (space : Space) (op : Op) (s : Disk Name) : Prop :=
  ∃ result data t, s.exec b resolve stdout space op = some (result, data, t) ∧ t.Joined ∧
    StoreStep resolve stdout s.store ⟨space, op, result, data⟩ t.store ∧
    t.volume.table.length = s.volume.table.length + if opens op ∧ result.isOk then 1 else 0

theorem guard_eq_none {α : Type} {c : Prop} [Decidable c] {refusal : α} {rest : Option α} :
    (if c then some refusal else rest) = none ↔ ¬ c ∧ rest = none := by
  split <;> simp [*]

/-- A failing operation calls no file system; it prints at most. -/
theorem exec_failed {calls : List Call} (quiet : calls = [] ∨ ∃ text, calls = [.stdout text])
    (fails : ∀ ans, Fdtab.exec b ans op s.fdTable = some ⟨.error e, calls, s.fdTable⟩) :
    s.exec b resolve stdout space op = some (.error e, [], s) := by
  rcases quiet with rfl | ⟨text, rfl⟩ <;>
    simp only [exec, fails, Option.bind_some, Option.map_some, Volume.serve]

omit [DecidableEq Name] in
/-- A descriptor that is denied has no entry, or one that the check does not let pass. -/
theorem Joined.denied (joined : s.Joined) {check : Descriptor Name → Option FdtabError}
    (denial : s.store.denial fd check = some e) :
    s.fdTable.files fd.toNat = none ∧ e = .noExistFd fd ∨
    ∃ mode rawFd, ∃ opened : Opened Name, s.fdTable.files fd.toNat = some ⟨mode, .fatFS rawFd⟩ ∧
      check ⟨mode, opened.name, opened.cursor⟩ = some e := by
  rcases joined.descriptor_cases fd.toNat with ⟨free, absent⟩ |
    ⟨mode, rawFd, opened, listed, -, present⟩
  · simp only [Store.denial, absent, Option.some.injEq] at denial
    exact .inl ⟨free, denial.symm⟩
  · simp only [Store.denial, present] at denial
    exact .inr ⟨mode, rawFd, opened, listed, denial⟩

omit [DecidableEq Name] in
/-- An operation that the store refuses is refused by fdtab. -/
theorem Joined.refused_exec (joined : s.Joined) (refusal : s.store.refusal op = some e) :
    ∃ calls, (calls = [] ∨ ∃ text, calls = [.stdout text]) ∧
      ∀ ans, Fdtab.exec b ans op s.fdTable = some ⟨.error e, calls, s.fdTable⟩ := by
  cases op with
  | read fd len =>
    by_cases low : fd.toNat ≤ 2
    · exact ⟨[], .inl rfl, by
        simp_all [Store.refusal, Fdtab.exec, Fdtab.read, Done.map, Except.map]⟩
    rw [Store.refusal, if_neg low] at refusal
    rcases joined.denied refusal with ⟨free, rfl⟩ | ⟨mode, rawFd, opened, listed, denied⟩
    · refine ⟨_, .inr ⟨absentText fd, rfl⟩, fun ans => ?_⟩
      simp only [Fdtab.exec, Fdtab.read, low, if_false, withFile_eq low, free]
      rfl
    · split at denied
      · cases denied
      next unreadable =>
        obtain rfl := Option.some.inj denied
        refine ⟨_, .inl rfl, fun ans => ?_⟩
        simp only [Fdtab.exec, Fdtab.read, low, if_false, withFile_eq low, listed, File.canRead,
          unreadable]
        rfl
  | write fd buf =>
    by_cases zero : fd.toNat = 0
    · exact ⟨[], .inl rfl, by
        simp_all [Store.refusal, Fdtab.exec, Fdtab.write, Done.map, Except.map]⟩
    by_cases low : fd.toNat ≤ 2
    · simp [Store.refusal, zero, low] at refusal
    rw [Store.refusal, if_neg zero, if_neg low] at refusal
    rcases joined.denied refusal with ⟨free, rfl⟩ | ⟨mode, rawFd, opened, listed, denied⟩
    · refine ⟨_, .inr ⟨absentText fd, rfl⟩, fun ans => ?_⟩
      simp only [Fdtab.exec, Fdtab.write, zero, low, if_false, withFile_eq low, free]
      rfl
    · split at denied
      · cases denied
      next unwritable =>
        obtain rfl := Option.some.inj denied
        refine ⟨_, .inl rfl, fun ans => ?_⟩
        simp only [Fdtab.exec, Fdtab.write, zero, low, if_false, withFile_eq low, listed,
          File.canWrite, unwritable]
        rfl
  | lseek fd pos =>
    by_cases low : fd.toNat ≤ 2
    · exact ⟨[], .inl rfl, by
        simp_all [Store.refusal, Fdtab.exec, Fdtab.lseek, Done.map, Except.map]⟩
    rw [Store.refusal, if_neg low] at refusal
    rcases joined.denied refusal with ⟨free, rfl⟩ | ⟨_, _, _, -, ⟨⟩⟩
    refine ⟨_, .inr ⟨absentText fd, rfl⟩, fun ans => ?_⟩
    simp only [Fdtab.exec, Fdtab.lseek, low, if_false, withFile_eq low, free]
    rfl
  | stat fd =>
    by_cases low : fd.toNat ≤ 2
    · exact ⟨[], .inl rfl, by
        simp_all [Store.refusal, Fdtab.exec, Fdtab.stat, Done.map, Except.map]⟩
    rw [Store.refusal, if_neg low] at refusal
    rcases joined.denied refusal with ⟨free, rfl⟩ | ⟨_, _, _, -, ⟨⟩⟩
    refine ⟨_, .inr ⟨absentText fd, rfl⟩, fun ans => ?_⟩
    simp only [Fdtab.exec, Fdtab.stat, low, if_false, withFile_eq low, free]
    rfl
  | close fd =>
    by_cases low : fd.toNat ≤ 2
    · exact ⟨[], .inl rfl, by
        simp_all [Store.refusal, Fdtab.exec, Fdtab.close, Done.map, Except.map]⟩
    rw [Store.refusal, if_neg low] at refusal
    rcases joined.denied refusal with ⟨free, rfl⟩ | ⟨_, _, _, -, ⟨⟩⟩
    refine ⟨_, .inl rfl, fun ans => ?_⟩
    simp only [Fdtab.exec, Fdtab.close, low, if_false, removeFile_absent low free]
    rfl
  | «open» | connect | bind | accept => simp [Store.refusal] at refusal

omit [DecidableEq Name] in
/-- The entry of a descriptor that is not denied. -/
theorem Joined.entry (joined : s.Joined) {check : Descriptor Name → Option FdtabError}
    (allowed : s.store.denial fd check = none) :
    ∃ mode rawFd opened, s.fdTable.files fd.toNat = some ⟨mode, .fatFS rawFd⟩ ∧
      slot s.volume.table rawFd.toNat = some opened ∧
      s.store.descriptors fd.toNat = some ⟨mode, opened.name, opened.cursor⟩ ∧
      check ⟨mode, opened.name, opened.cursor⟩ = none := by
  rcases joined.descriptor_cases fd.toNat with ⟨-, absent⟩ |
    ⟨mode, rawFd, opened, listed, found, present⟩
  · simp [Store.denial, absent] at allowed
  · refine ⟨mode, rawFd, opened, listed, found, present, ?_⟩
    simpa only [Store.denial, present] using allowed

theorem Joined.explained_refused (joined : s.Joined) (refusal : s.store.refusal op = some e) :
    Explained b resolve stdout space op s := by
  obtain ⟨calls, quiet, fails⟩ := joined.refused_exec (b := b) refusal
  refine ⟨_, _, s, exec_failed quiet fails, joined, .refused refusal, ?_⟩
  simp [Except.isOk, Except.toBool]

/-- A change to an open file, which is not an `open`. -/
theorem Joined.explained_change (joined : s.Joined)
    (found : slot s.volume.table rawFd.toNat = some opened) {changed : Opened Name}
    {files : Name → Option (List UInt8)} {result : Except FdtabError Reply} {data : List UInt8}
    (ran : s.exec b resolve stdout space op = some (result, data, s.change rawFd changed files))
    (step : StoreStep resolve stdout s.store ⟨space, op, result, data⟩
      (s.change rawFd changed files).store) (same : changed.name = opened.name)
    (other : opens op = false) : Explained b resolve stdout space op s := by
  refine ⟨result, data, _, ran, joined.change files changed found same, step, ?_⟩
  rw [if_neg (by simp [other]), Disk.change, List.length_set, Nat.add_zero]

theorem Joined.read_explained (joined : s.Joined) (fd : Fd) (len : Size) :
    Explained b resolve stdout space (.read fd len) s := by
  cases allowed : s.store.refusal (.read fd len) with
  | some e => exact joined.explained_refused allowed
  | none =>
    obtain ⟨low, check⟩ := guard_eq_none.mp allowed
    obtain ⟨mode, rawFd, opened, listed, found, present, granted⟩ := joined.entry check
    have readable : (⟨mode, .fatFS rawFd⟩ : File).canRead = true := by
      simpa [File.canRead] using granted
    have ran : s.exec b resolve stdout space (.read fd len) = _ :=
      exec_read low listed rfl readable len
    simp only [Volume.fatfsRead, found] at ran
    refine joined.explained_change found ran ?_ rfl rfl
    rw [joined.store_change _ _ listed found]
    exact .read allowed present rfl

/-- The standard output and error take any text. -/
theorem Joined.print_explained (joined : s.Joined) (standard : fd = 1 ∨ fd = 2)
    (buf : List UInt8) : Explained b resolve stdout space (.write fd buf) s := by
  refine ⟨_, _, s, exec_write_stdout standard buf, joined, .printed standard, ?_⟩
  simp [opens]

theorem Joined.write_explained (joined : s.Joined) (fd : Fd) (buf : List UInt8)
    (fits : buf.length ≤ space.bytes) : Explained b resolve stdout space (.write fd buf) s := by
  cases allowed : s.store.refusal (.write fd buf) with
  | some e => exact joined.explained_refused allowed
  | none =>
    obtain ⟨positive, rest⟩ := guard_eq_none.mp allowed
    split at rest
    next low =>
      refine joined.print_explained ?_ buf
      rw [← UInt32.toNat_inj, ← UInt32.toNat_inj]
      simp only [UInt32.reduceToNat]
      omega
    next low =>
      obtain ⟨mode, rawFd, opened, listed, found, present, granted⟩ := joined.entry rest
      have writable : (⟨mode, .fatFS rawFd⟩ : File).canWrite = true := by
        simpa [File.canWrite] using granted
      have ran : s.exec b resolve stdout space (.write fd buf) = _ :=
        exec_write low listed rfl writable buf
      simp only [Volume.fatfsWrite, found, List.take_of_length_le fits] at ran
      refine joined.explained_change found ran ?_ rfl rfl
      rw [joined.store_change _ _ listed found]
      exact .wrote allowed present

theorem Joined.lseek_explained (joined : s.Joined) (fd : Fd) (pos : UInt32) :
    Explained b resolve stdout space (.lseek fd pos) s := by
  cases allowed : s.store.refusal (.lseek fd pos) with
  | some e => exact joined.explained_refused allowed
  | none =>
    obtain ⟨low, check⟩ := guard_eq_none.mp allowed
    obtain ⟨mode, rawFd, opened, listed, found, present, -⟩ := joined.entry check
    have ran : s.exec b resolve stdout space (.lseek fd pos) = _ := exec_lseek low listed rfl pos
    simp only [Volume.fatfsSeek, found] at ran
    refine joined.explained_change found ran ?_ rfl rfl
    rw [joined.store_change _ _ listed found]
    exact .sought allowed present

theorem exec_stat (valid : ¬ fd.toNat ≤ 2)
    (listed : s.fdTable.files fd.toNat = some ⟨mode, .fatFS rawFd⟩) :
    s.exec b resolve stdout space (.stat fd) =
      some (((s.volume.fatfsStat rawFd).mapError .fatfsError).map .stat, [], s) := by
  simp only [exec, Fdtab.exec, Fdtab.stat, if_neg valid, withFile_eq valid, listed, Option.map_some,
    Option.bind_some, Done.map, Volume.serve]

theorem Joined.stat_explained (joined : s.Joined) (fd : Fd) :
    Explained b resolve stdout space (.stat fd) s := by
  cases allowed : s.store.refusal (.stat fd) with
  | some e => exact joined.explained_refused allowed
  | none =>
    obtain ⟨low, check⟩ := guard_eq_none.mp allowed
    obtain ⟨mode, rawFd, opened, listed, found, present, -⟩ := joined.entry check
    have ran : s.exec b resolve stdout space (.stat fd) = _ := exec_stat low listed
    simp only [Volume.fatfsStat, found] at ran
    exact ⟨_, _, s, ran, joined, .measured allowed present, by simp [opens]⟩

theorem Joined.close_explained (joined : s.Joined) (fd : Fd) :
    Explained b resolve stdout space (.close fd) s := by
  cases allowed : s.store.refusal (.close fd) with
  | some e => exact joined.explained_refused allowed
  | none =>
    obtain ⟨low, check⟩ := guard_eq_none.mp allowed
    obtain ⟨mode, rawFd, opened, listed, found, present, -⟩ := joined.entry check
    obtain ⟨rest, files, length, ran⟩ := exec_close b resolve stdout space low listed rfl
    simp only [Volume.fatfsClose, found] at ran
    obtain ⟨kept, stored⟩ := joined.remove (t := ⟨rest, _⟩) listed found files length rfl
    refine ⟨_, _, _, ran, kept, ?_, by simp [opens]⟩
    rw [stored]
    exact .closed allowed present

theorem Joined.open_explained (joined : s.Joined) (path : String) (flags mode : UInt32)
    (sole : Sole resolve s (.open path flags mode))
    (short : s.volume.table.length < 2 ^ 32 - 3) :
    Explained b resolve stdout space (.open path flags mode) s := by
  have ran : s.exec b resolve stdout space (.open path flags mode) = _ := exec_open path flags mode
  by_cases available : ∃ name, resolve path = some name ∧ s.store.Available flags space name
  · obtain ⟨name, located, available⟩ := available
    have room : s.fdTable.Room := room_of_length (Nat.lt_of_le_of_lt joined.counted short)
    have handle : (UInt32.ofNat s.volume.table.length).toNat = s.volume.table.length := by
      rw [UInt32.toNat_ofNat', Nat.mod_eq_of_lt (by omega)]
    rw [AsStd.fatfsOpen_available located available] at ran
    have least := addFile_least room ⟨mode, .fatFS (UInt32.ofNat s.volume.table.length)⟩
    simp only [← joined.free_iff] at least
    obtain ⟨kept, stored⟩ :=
      joined.add (t := ⟨_, ⟨_, _⟩⟩) handle (addFile_files room _) (length_insert_le _ _) rfl
        (sole name located)
    refine ⟨_, _, _, ran, kept, ?_, ?_⟩
    · rw [stored]
      exact .opened located available least
    · simp [opens, Except.isOk, Except.toBool]
  · rw [AsStd.fatfsOpen_unavailable fun name located there =>
      available ⟨name, located, there⟩] at ran
    refine ⟨_, _, s, ran, joined,
      .unopened fun name located there => available ⟨name, located, there⟩, ?_⟩
    simp [Except.isOk, Except.toBool]

/-- Every operation on files that has room in the volume and in the tables. -/
theorem Joined.explained (joined : s.Joined) (stdout : List UInt8 → Size) (op : Op)
    (fitting : Fitting space op) (sole : Sole resolve s op)
    (short : opens op = true → s.volume.table.length < 2 ^ 32 - 3) :
    Explained b resolve stdout space op s := by
  cases op with
  | «open» path flags mode => exact joined.open_explained path flags mode sole (short rfl)
  | read fd len => exact joined.read_explained fd len
  | write fd buf => exact joined.write_explained fd buf fitting
  | lseek fd pos => exact joined.lseek_explained fd pos
  | stat fd => exact joined.stat_explained fd
  | close fd => exact joined.close_explained fd
  | connect | bind | accept => exact fitting.elim

/-- From joined tables any operations end as the store has it. -/
theorem Joined.run (joined : s.Joined) {es : List FileEvent}
    (path : Run (Where (DiskStep resolve stdout b) (Proper resolve)) s es t)
    (few : s.volume.table.length + es.countP (fun e => opens e.op) ≤ 2 ^ 32 - 3) :
    Run (StoreStep resolve stdout) s.store es t.store ∧ t.Joined ∧
      t.volume.table.length ≤ s.volume.table.length + es.countP (fun e => opens e.op) := by
  induction path with
  | nil => exact ⟨.nil _, joined, Nat.le_add_right _ _⟩
  | @cons s e m es t stepped _ ih =>
    obtain ⟨stepped, fitting, sole⟩ := stepped
    rw [List.countP_cons] at few ⊢
    obtain ⟨result, data, m', ran, kept, step, length⟩ :=
      joined.explained (b := b) stdout e.op fitting sole fun more => by
        simp only [more, if_true] at few
        omega
    obtain ⟨rfl, rfl, rfl⟩ : result = e.result ∧ data = e.data ∧ m' = m := by
      simpa using ran.symm.trans (stepped joined.single)
    have most : m'.volume.table.length ≤
        s.volume.table.length + if opens e.op = true then 1 else 0 := by
      rw [length]
      split <;> split <;> simp_all
    obtain ⟨rest, last, bound⟩ := ih kept (by omega)
    exact ⟨.cons step rest, last, by omega⟩

end Operations

end Disk

namespace Store
variable {Name : Type} [DecidableEq Name] {resolve : String → Option Name}
  {stdout : List UInt8 → Size} {s t : Store Name} {e : FileEvent}

/-- Every descriptor has an existing file, and its position is not beyond the end. -/
def Placed (s : Store Name) : Prop :=
  ∀ n d, s.descriptors n = some d → ∃ content, s.files d.name = some content ∧
    d.cursor ≤ content.length

omit [DecidableEq Name] in
theorem Placed.put (placed : s.Placed) (n : Nat) {d : Option (Descriptor Name)}
    (inside : ∀ d', d = some d' → ∃ content, s.files d'.name = some content ∧
      d'.cursor ≤ content.length) : (s.put n d).Placed := by
  intro m d' found
  by_cases own : m = n
  · exact inside d' (by simpa [Store.put, own] using found)
  · exact placed m d' (by simpa [Store.put, own] using found)

omit [DecidableEq Name] in
theorem Placed.put_some (placed : s.Placed) (n : Nat) {d : Descriptor Name} {content : List UInt8}
    (there : s.files d.name = some content) (inside : d.cursor ≤ content.length) :
    (s.put n (some d)).Placed := by
  apply placed.put n
  rintro d' ⟨⟩
  exact ⟨content, there, inside⟩

/-- A file that does not shrink. -/
theorem Placed.write (placed : s.Placed) (name : Name) {content : List UInt8}
    (longer : (s.content name).length ≤ content.length) : (s.write name content).Placed := by
  intro n d found
  obtain ⟨old, there, inside⟩ := placed n d found
  by_cases own : d.name = name
  · rw [Store.content, ← own, there, Option.getD_some] at longer
    exact ⟨content, by simp [Store.write, own], inside.trans longer⟩
  · exact ⟨old, by simp [Store.write, own, there], inside⟩

theorem Placed.step (placed : s.Placed) (stepped : StoreStep resolve stdout s e t) : t.Placed := by
  cases stepped with
  | @opened _ name =>
    have there : (s.write name (s.content name)).files name = some (s.content name) := by
      simp [Store.write]
    exact (placed.write name (le_refl _)).put_some _ there (Nat.zero_le _)
  | read allowed found bytes =>
    obtain ⟨content, there, inside⟩ := placed _ _ found
    refine placed.put_some _ there ?_
    rw [bytes, Store.content, there, Option.getD_some, List.length_take, List.length_drop]
    dsimp only
    omega
  | @wrote d _ _ fd buf allowed found =>
    obtain ⟨content, there, inside⟩ := placed _ _ found
    have whole : s.content d.name = content := by rw [Store.content, there, Option.getD_some]
    have length : (writeAt content d.cursor buf).length =
        max content.length (d.cursor + buf.length) := by
      simp only [writeAt, List.length_append, List.length_take, List.length_drop]
      omega
    have grown : (s.write d.name (writeAt content d.cursor buf)).Placed := by
      apply placed.write
      rw [whole, length]
      exact Nat.le_max_left _ _
    have stored : (s.write d.name (writeAt content d.cursor buf)).files d.name =
        some (writeAt content d.cursor buf) := by
      simp [Store.write]
    rw [whole]
    exact grown.put_some _ stored (length.symm ▸ Nat.le_max_right _ _)
  | sought allowed found =>
    obtain ⟨content, there, inside⟩ := placed _ _ found
    refine placed.put_some _ there ?_
    rw [Store.content, there, Option.getD_some]
    exact Nat.min_le_right _ _
  | closed => exact placed.put _ (by simp)
  | unopened | printed | measured | refused => exact placed

end Store

end AlloyStack.Fatfs
