import AlloyStack.AsStd.FileBuffer
import AlloyStack.Library.Blocks

/-! The two implementations of data buffers side by side. The reference-passing one hands a block of
the buffer heap from a producer to one consumer; the file-based one keeps a file for each slot. -/
namespace AlloyStack.AsStd
open Rust Blocks AlloyStack.Fdtab AlloyStack.Fatfs

/-- `Layout::new::<T>()` and `T::__fingerprint()`. -/
structure Layout (T : Type) where
  size : Nat
  fingerprint : UInt64

/-- The buffer heap: `BUFFER_ALLOCATOR`, `BUFFER_REGISTER`, and the value that the memory at an
address holds when it is read at the type of the buffers. -/
structure Heap (T : Type) where
  pool : Pool
  register : String → Option (Nat × UInt64)
  memory : Nat → T

/-- `allocate_first_fit`, of which only the contract of an allocator is used. -/
abbrev Allocator (size : Nat) := (p : Pool) → Option {b : Block // p.Admits b ∧ size ≤ b.size}

namespace ReferBased
variable {T : Type} (ty : Layout T) (allocate : Allocator ty.size)

def bufferAlloc (slot : String) (h : Heap T) : Option (Nat × Heap T) :=
  (allocate h.pool).map fun b => (b.1.start,
    { pool := h.pool.give b.1 b.2.1
      register := Function.update h.register slot (some (b.1.start, ty.fingerprint))
      memory := h.memory })

def accessBuffer (slot : String) (h : Heap T) : Option (Nat × UInt64) × Heap T :=
  (h.register slot, { h with register := Function.update h.register slot none })

/-- `with_slot`, a change of the value, and a drop, which does nothing. A type without size gets a
block of its own that is not registered. -/
def produce (slot : String) (f : T → T) (h : Heap T) : Option (Heap T) :=
  if ty.size = 0 then some h
  else (bufferAlloc ty allocate slot h).map fun (ptr, h) =>
    { h with memory := Function.update h.memory ptr (f (h.memory ptr)) }

/-- `from_buffer_slot`, a read of the value, and a drop, which does nothing. -/
def consume (slot : String) (h : Heap T) : Option (Option T × Heap T) :=
  match accessBuffer slot h with
  | (none, h) => some (none, h)
  | (some (ptr, fingerprint), h) =>
    if fingerprint ≠ ty.fingerprint then none else some (some (h.memory ptr), h)

end ReferBased

namespace FileBased
variable {Name : Type} [DecidableEq Name] {T : Type}
variable (b : Build) (resolve : String → Option Name) (stdout : List UInt8 → Size) (codec : Codec T)

def produce [Inhabited T] (space : Space) (slot : String) (f : T → T) (s : Disk Name) :
    Option (Disk Name) :=
  let d : DataBuffer T := .withSlot slot
  DataBuffer.drop b resolve stdout codec space { d with inner := f d.inner } s

def consume (fuel : Nat) (space : Space) (slot : String) (s : Disk Name) :
    Option (Option T × Disk Name) :=
  (fromBufferSlot b resolve stdout codec fuel space slot s).bind fun
    | (none, s) => some (none, s)
    | (some d, s) =>
      (DataBuffer.drop b resolve stdout codec space d s).map fun s => (some d.inner, s)

end FileBased

/-- One use of a buffer, with what the volume has left at that time. -/
inductive BufferCall (T : Type) where
  | produce (slot : String) (f : T → T) (space : Space)
  | consume (slot : String) (space : Space)

section Runs
variable {Name : Type} [DecidableEq Name] {T : Type} [Inhabited T]
variable (ty : Layout T) (allocate : Allocator ty.size)
variable (b : Build) (resolve : String → Option Name) (stdout : List UInt8 → Size) (codec : Codec T)

/-- What the consumers get; `none` if a call panics. -/
def referRun : List (BufferCall T) → Heap T → Option (List (Option T))
  | [], _ => some []
  | .produce slot f _ :: rest, h => (ReferBased.produce ty allocate slot f h).bind (referRun rest)
  | .consume slot _ :: rest, h =>
    (ReferBased.consume ty slot h).bind fun (r, h) => (referRun rest h).map (r :: ·)

def fileRun (fuel : Nat) : List (BufferCall T) → Disk Name → Option (List (Option T))
  | [], _ => some []
  | .produce slot f space :: rest, s =>
    (FileBased.produce b resolve stdout codec space slot f s).bind (fileRun fuel rest)
  | .consume slot space :: rest, s =>
    (FileBased.consume b resolve stdout codec fuel space slot s).bind fun (r, s) =>
      (fileRun fuel rest s).map (r :: ·)

/-- Neither implementation panics, and the consumers get the same from both. -/
def Equivalent (calls : List (BufferCall T)) (h : Heap T) (s : Disk Name) : Prop :=
  ∃ results, referRun ty allocate calls h = some results ∧
    ∃ enough, ∀ fuel, enough ≤ fuel → fileRun b resolve stdout codec fuel calls s = some results

/-- The latest producer of a file: its slot and its change of the value, the value that it found in
its block, the file that it found, how many bytes of its text were stored, and whether the buffer
was consumed since. -/
structure Latest (T : Type) where
  slot : String
  f : T → T
  memory : T
  old : List UInt8
  bytes : Nat
  consumed : Bool

/-- The value that the memory of the next block holds. -/
def uninitialised (h : Heap T) : T :=
  match allocate h.pool with
  | some b => h.memory b.1.start
  | none => default

/-- A consumer of the slot gets the producer's value from both implementations: the type has a
size, the producer used this slot, nobody consumed its buffer yet, its value does not depend on
what it found in its buffer, its text was stored, and only blanks are left of the older text. -/
structure Latest.Delivers (l : Latest T) (slot : String) : Prop where
  sized : ty.size ≠ 0
  own : l.slot = slot
  fresh : l.consumed = false
  overwrites : l.f l.memory = l.f default
  stored : (codec.toString (l.f default)).length ≤ l.bytes
  blank : (l.old.drop (codec.toString (l.f default)).length).all isBlank = true

def markConsumed (slot : String) (latest : Name → Option (Latest T)) : Name → Option (Latest T) :=
  match resolve (imd slot) with
  | none => latest
  | some name =>
    Function.update latest name ((latest name).map fun l => { l with consumed := true })

/-- The condition on each call and the state before it. A producer gets a block and a file with a
handle below `2^32`, and a consumer finds a file only of a producer that delivers to it. -/
def Compatible : List (BufferCall T) → (Name → Option (Latest T)) → Heap T → Disk Name → Prop
  | [], _, _, _ => True
  | .produce slot f space :: rest, latest, h, s =>
    (ty.size ≠ 0 → (allocate h.pool).isSome = true) ∧ ∃ name, resolve (imd slot) = some name ∧
      Available s O_CREAT space name ∧ s.volume.table.length < 2 ^ 32 ∧
      ∀ h' s', ReferBased.produce ty allocate slot f h = some h' →
        FileBased.produce b resolve stdout codec space slot f s = some s' →
        Compatible rest (Function.update latest name (some ⟨slot, f, uninitialised ty allocate h,
          s.volume.content name, space.bytes, false⟩)) h' s'
  | .consume slot space :: rest, latest, h, s =>
    (∀ name l, resolve (imd slot) = some name → latest name = some l →
      l.Delivers ty codec slot ∧ s.volume.table.length < 2 ^ 32) ∧
      ∀ fuel r r' h' s', ReferBased.consume ty slot h = some (r, h') →
        FileBased.consume b resolve stdout codec fuel space slot s = some (r', s') →
        Compatible rest (markConsumed resolve slot latest) h' s'

end Runs

section Agreement
variable {Name : Type} [DecidableEq Name] {T : Type} [Inhabited T]
variable {ty : Layout T} {allocate : Allocator ty.size}
variable {b : Build} {resolve : String → Option Name} {stdout : List UInt8 → Size} {codec : Codec T}
variable {latest : Name → Option (Latest T)} {h : Heap T} {s : Disk Name} {slot : String}
  {name : Name} {space : Space}

/-- The files are those of the latest producers. -/
structure Filed (resolve : String → Option Name) (codec : Codec T)
    (latest : Name → Option (Latest T)) (s : Disk Name) :
    Prop where
  idle : Idle s
  missing : ∀ slot name, resolve (imd slot) = some name → latest name = none →
    s.volume.files name = none
  written : ∀ name l, latest name = some l →
    s.volume.files name = some (writeAt l.old 0 ((codec.toString (l.f default)).take l.bytes))

/-- The register has the blocks of the latest producers that were not consumed yet. -/
structure Registered (ty : Layout T) (resolve : String → Option Name)
    (latest : Name → Option (Latest T)) (h : Heap T) :
    Prop where
  owner : ∀ name l, latest name = some l → resolve (imd l.slot) = some name
  live : ∀ slot ptr fingerprint, h.register slot = some (ptr, fingerprint) →
    ∃ block ∈ h.pool.live, block.start = ptr
  recorded : ∀ slot entry, h.register slot = some entry → ∃ name l, resolve (imd slot) = some name ∧
    latest name = some l
  held : ∀ name l, latest name = some l → l.consumed = false → ty.size ≠ 0 →
    ∃ ptr, h.register l.slot = some (ptr, ty.fingerprint) ∧ h.memory ptr = l.f l.memory

variable (b stdout) in
theorem produce_filed (filed : Filed resolve codec latest s)
    (named : resolve (imd slot) = some name) (available : Available s O_CREAT space name)
    (small : s.volume.table.length < 2 ^ 32) (f : T → T) (memory : T) :
    ∃ s', FileBased.produce b resolve stdout codec space slot f s = some s' ∧
      Filed resolve codec (Function.update latest name
        (some ⟨slot, f, memory, s.volume.content name, space.bytes, false⟩)) s' := by
  obtain ⟨s', dropped, idle, _, files⟩ :=
    writeImd_available b stdout (codec.toString (f default)) filed.idle named available small
  refine ⟨s', dropped, idle, fun slot' name' named' none => ?_,
    fun name' l found => ?_⟩ <;> by_cases same : name' = name
  · subst same
    simp at none
  · rw [Function.update_of_ne same] at none
    rw [files, Function.update_of_ne same]
    exact filed.missing slot' name' named' none
  · subst same
    rw [Function.update_self] at found
    cases found
    rw [files, Function.update_self]
  · rw [Function.update_of_ne same] at found
    rw [files, Function.update_of_ne same]
    exact filed.written name' l found

omit [Inhabited T] in
theorem produce_eq (sized : ty.size ≠ 0) (answer : allocate h.pool = some block) (f : T → T) :
    ReferBased.produce ty allocate slot f h = some
      { pool := h.pool.give block.1 block.2.1
        register := Function.update h.register slot (some (block.1.start, ty.fingerprint))
        memory := Function.update h.memory block.1.start (f (h.memory block.1.start)) } := by
  rw [ReferBased.produce, if_neg sized, ReferBased.bufferAlloc, answer]
  rfl

namespace Registered

omit [Inhabited T] in
theorem owner_update (registered : Registered ty resolve latest h)
    (own : resolve (imd l.slot) = some name) (name' : Name) (l' : Latest T)
    (found : Function.update latest name (some l) name' = some l') :
    resolve (imd l'.slot) = some name' := by
  by_cases same : name' = name
  · subst same
    rw [Function.update_self] at found
    cases found
    exact own
  · rw [Function.update_of_ne same] at found
    exact registered.owner name' l' found

omit [Inhabited T] in
theorem recorded_update (registered : Registered ty resolve latest h)
    (found : h.register slot = some entry) (name : Name) (l : Latest T) :
    ∃ name' l', resolve (imd slot) = some name' ∧
      Function.update latest name (some l) name' = some l' := by
  obtain ⟨name', l', named, known⟩ := registered.recorded slot entry found
  by_cases same : name' = name
  · subst same
    exact ⟨name', l, named, Function.update_self ..⟩
  · exact ⟨name', l', named, by rw [Function.update_of_ne same, known]⟩

omit [DecidableEq Name] [Inhabited T] in
/-- Producers of different files have different slots. -/
theorem slot_ne (registered : Registered ty resolve latest h)
    (named : resolve (imd slot) = some name) (found : latest name' = some l)
    (other : name' ≠ name) : l.slot ≠ slot := by
  intro same
  have own := registered.owner name' l found
  rw [same, named] at own
  exact other (Option.some.inj own).symm

end Registered

/-- The new block meets none of the registered ones, so the values of other producers stay. -/
theorem produce_registered (registered : Registered ty resolve latest h)
    (named : resolve (imd slot) = some name)
    (allocated : ty.size ≠ 0 → (allocate h.pool).isSome = true) (f : T → T) (old : List UInt8)
    (bytes : Nat) :
    ∃ h', ReferBased.produce ty allocate slot f h = some h' ∧
      Registered ty resolve
        (Function.update latest name
        (some ⟨slot, f, uninitialised ty allocate h, old, bytes, false⟩)) h' := by
  by_cases sized : ty.size = 0
  · refine ⟨h, by simp [ReferBased.produce, sized], registered.owner_update named, registered.live,
      fun slot' entry found => ?_,
      fun _ _ _ _ nonzero => absurd sized nonzero⟩
    exact registered.recorded_update found name _
  · obtain ⟨block, answer⟩ := Option.isSome_iff_exists.mp (allocated sized)
    have apart (slot' : String) (ptr : Nat) (fingerprint : UInt64)
        (found : h.register slot' = some (ptr, fingerprint)) :
        ptr ≠ block.1.start := by
      obtain ⟨other, member, rfl⟩ := registered.live slot' ptr fingerprint found
      exact (block.2.1.apart other member).start_ne.symm
    refine ⟨_, produce_eq sized answer f, registered.owner_update named, ?_, ?_, ?_⟩
    · intro slot' ptr fingerprint found
      dsimp only at found
      by_cases same : slot' = slot
      · subst same
        simp only [Function.update_self, Option.some.injEq, Prod.mk.injEq] at found
        exact ⟨block.1, List.mem_cons_self .., found.1⟩
      · rw [Function.update_of_ne same] at found
        obtain ⟨other, member, start⟩ := registered.live slot' ptr fingerprint found
        exact ⟨other, List.mem_cons_of_mem _ member, start⟩
    · intro slot' entry found
      dsimp only at found
      by_cases same : slot' = slot
      · subst same
        exact ⟨name, _, named, Function.update_self ..⟩
      · rw [Function.update_of_ne same] at found
        exact registered.recorded_update found name _
    · intro name' l found fresh _
      by_cases same : name' = name
      · subst same
        rw [Function.update_self] at found
        cases found
        exact ⟨block.1.start, Function.update_self .., by simp [uninitialised, answer]⟩
      · rw [Function.update_of_ne same] at found
        obtain ⟨ptr, entry, value⟩ := registered.held name' l found fresh sized
        have other := registered.slot_ne named found same
        exact ⟨ptr, (Function.update_of_ne other ..).trans entry,
          (Function.update_of_ne (apart _ _ _ entry) ..).trans value⟩

omit [DecidableEq Name] [Inhabited T] in
theorem register_free (registered : Registered ty resolve latest h)
    (free : ∀ name, resolve (imd slot) = some name → latest name = none) :
    h.register slot = none := by
  cases found : h.register slot with
  | none => rfl
  | some entry =>
    obtain ⟨name, l, named, recorded⟩ := registered.recorded slot entry found
    nomatch (free name named).symm.trans recorded

variable (b stdout space) in
/-- A consumer that finds no file finds no block either. -/
theorem consume_missing (fuel : Nat) (registered : Registered ty resolve latest h)
    (filed : Filed resolve codec latest s)
    (free : ∀ name, resolve (imd slot) = some name → latest name = none) :
    ReferBased.consume ty slot h = some (none, h) ∧
      FileBased.consume b resolve stdout codec fuel space slot s = some (none, s) := by
  have none := register_free registered free
  have missing (name : Name) (named : resolve (imd slot) = some name) : s.volume.files name =
      Option.none :=
    filed.missing slot name named (free name named)
  constructor
  · simp only [ReferBased.consume, ReferBased.accessBuffer, none]
    rw [Function.update_eq_self_iff.mpr none.symm]
  · simp only [FileBased.consume, fromBufferSlot_missing missing, Option.bind_some]

omit [Inhabited T] in
theorem markConsumed_missing (free : ∀ name, resolve (imd slot) = some name → latest name = none) :
    markConsumed resolve slot latest = latest := by
  unfold markConsumed
  split
  · rfl
  · rename_i name named
    rw [Function.update_eq_self_iff, free name named, Option.map_none]

omit [Inhabited T] in
theorem consumed_registered (registered : Registered ty resolve latest h)
    (named : resolve (imd slot) = some name) (found : latest name = some l) :
    Registered ty resolve (Function.update latest name (some { l with consumed := true }))
      { h with register := Function.update h.register slot none } := by
  have kept {slot' : String} {entry : Nat × UInt64}
      (still : Function.update h.register slot none slot' = some entry) : h.register slot' =
        some entry := by
    by_cases same : slot' = slot
    · subst same
      simp at still
    · rwa [Function.update_of_ne same] at still
  refine ⟨registered.owner_update (registered.owner name l found),
    fun slot' ptr fingerprint still => ?_,
    fun slot' entry still => ?_, fun name' l' found' fresh sized => ?_⟩
  · exact registered.live slot' ptr fingerprint (kept still)
  · exact registered.recorded_update (kept still) name _
  · by_cases same : name' = name
    · subst same
      rw [Function.update_self] at found'
      cases found'
      nomatch fresh
    · rw [Function.update_of_ne same] at found'
      obtain ⟨ptr, entry, value⟩ := registered.held name' l' found' fresh sized
      have other := registered.slot_ne named found' same
      exact ⟨ptr, (Function.update_of_ne other ..).trans entry, value⟩

theorem consumed_filed (filed : Filed resolve codec latest s) (found : latest name = some l)
    (idle : Idle t) (files : t.volume.files = s.volume.files) :
    Filed resolve codec (Function.update latest name (some { l with consumed := true })) t := by
  refine ⟨idle, fun slot' name' named' none => ?_,
    fun name' l' found' => ?_⟩ <;> rw [files] <;> by_cases same : name' = name
  · subst same
    simp at none
  · rw [Function.update_of_ne same] at none
    exact filed.missing slot' name' named' none
  · subst same
    rw [Function.update_self] at found'
    cases found'
    exact filed.written name' l found
  · rw [Function.update_of_ne same] at found'
    exact filed.written name' l' found'

variable (b stdout space) in
/-- A consumer to which the latest producer delivers. -/
theorem consume_delivered (registered : Registered ty resolve latest h)
    (filed : Filed resolve codec latest s) (named : resolve (imd slot) = some name)
    (found : latest name = some l) (delivers : l.Delivers ty codec slot)
    (small : s.volume.table.length < 2 ^ 32) :
    ∃ h' s' enough, ReferBased.consume ty slot h = some (some (l.f default), h') ∧
      (∀ fuel, enough ≤ fuel →
        FileBased.consume b resolve stdout codec fuel space slot s =
        some (some (l.f default), s')) ∧
      Registered ty resolve (markConsumed resolve slot latest) h' ∧
        Filed resolve codec (markConsumed resolve slot latest) s' := by
  have written := filed.written name l found
  set text := codec.toString (l.f default)
  rw [List.take_of_length_le delivers.stored, writeAt_zero] at written
  obtain ⟨s', idle, _, files, read⟩ :=
    fromBufferSlot_found b stdout space codec filed.idle named written small
  rw [codec.accepts _ _ delivers.blank] at read
  obtain ⟨ptr, entry, value⟩ := registered.held name l found delivers.fresh delivers.sized
  rw [delivers.own] at entry
  have marked : markConsumed resolve slot latest =
      Function.update latest name (some { l with consumed := true }) := by
    simp [markConsumed, named, found]
  refine ⟨{ h with register := Function.update h.register slot none }, s',
    (text ++ l.old.drop text.length).length + 1, ?_,
    fun fuel enough => ?_, ?_, ?_⟩
  · simp only [ReferBased.consume, ReferBased.accessBuffer, entry, ne_eq, not_true_eq_false,
      if_false, value, delivers.overwrites]
  · rw [FileBased.consume, read fuel (Nat.lt_of_succ_le enough)]
    simp [DataBuffer.drop]
  · exact marked ▸ consumed_registered registered named found
  · exact marked ▸ consumed_filed filed found idle files

/-- Compatible calls keep the two implementations in agreement, and their results are the same. -/
theorem equivalent_of_agrees (calls : List (BufferCall T))
    (registered : Registered ty resolve latest h) (filed : Filed resolve codec latest s)
    (compatible : Compatible ty allocate b resolve stdout codec calls latest h s) :
    Equivalent ty allocate b resolve stdout codec calls h s := by
  induction calls generalizing latest h s with
  | nil => exact ⟨[], rfl, 0, fun _ _ => rfl⟩
  | cons call rest ih =>
    cases call with
    | produce slot f space =>
      obtain ⟨allocated, name, named, available, small, later⟩ := compatible
      obtain ⟨h', first, registered'⟩ :=
        produce_registered registered named allocated f (s.volume.content name) space.bytes
      obtain ⟨s', second, filed'⟩ :=
        produce_filed b stdout filed named available small f (uninitialised ty allocate h)
      obtain ⟨results, refer, enough, file⟩ := ih registered' filed' (later h' s' first second)
      refine ⟨results, by simp [referRun, first, refer], enough, fun fuel ample => ?_⟩
      simp [fileRun, second, file fuel ample]
    | consume slot space =>
      obtain ⟨delivers, later⟩ := compatible
      by_cases free : ∀ name, resolve (imd slot) = some name → latest name = none
      · have missing (fuel : Nat) := consume_missing b stdout space fuel registered filed free
        have same := later 0 _ _ h s (missing 0).1 (missing 0).2
        rw [markConsumed_missing free] at same
        obtain ⟨results, refer, enough, file⟩ := ih registered filed same
        refine ⟨none :: results, by simp [referRun, (missing 0).1, refer], enough,
          fun fuel ample => ?_⟩
        simp [fileRun, (missing fuel).2, file fuel ample]
      · simp only [not_forall] at free
        obtain ⟨name, named, recorded⟩ := free
        obtain ⟨l, found⟩ := Option.ne_none_iff_exists'.mp recorded
        obtain ⟨delivered, small⟩ := delivers name l named found
        obtain ⟨h', s', bound, first, second, registered', filed'⟩ :=
          consume_delivered b stdout space registered filed named found delivered small
        obtain ⟨results, refer, enough, file⟩ :=
          ih registered' filed' (later bound _ _ h' s' first (second bound le_rfl))
        refine ⟨some (l.f default) :: results, by simp [referRun, first, refer], max bound enough,
          fun fuel ample => ?_⟩
        simp [fileRun, second fuel (le_trans (le_max_left ..) ample),
          file fuel (le_trans (le_max_right ..) ample)]

end Agreement

/-- The buffer heap before the first buffer, with whatever its memory holds. -/
def Heap.fresh {T : Type} (start size : Nat) (memory : Nat → T) : Heap T :=
  ⟨.fresh start size, fun _ => none, memory⟩

theorem registered_fresh {Name T : Type} (ty : Layout T) (resolve : String → Option Name)
    (start size : Nat) (memory : Nat → T) :
    Registered ty resolve (fun _ => none) (.fresh start size memory) :=
  ⟨by simp, by simp [Heap.fresh], by simp [Heap.fresh], by simp⟩

theorem filed_mounted {Name T : Type} [Inhabited T] {resolve : String → Option Name}
    (codec : Codec T) {files : Name → Option (List UInt8)}
    (unused : ∀ slot name, resolve (imd slot) = some name → files name = none) :
    Filed resolve codec (fun _ => none) ⟨[], .mounted files⟩ :=
  ⟨idle_mounted files, fun slot name named _ => unused slot name named, by simp⟩

/-- From an empty register and a volume without files of slots, the two implementations give the
same results and do not panic, as long as every call meets the condition. -/
theorem buffers_equivalent_when {Name : Type} [DecidableEq Name] {T : Type} [Inhabited T]
    (ty : Layout T) (allocate : Allocator ty.size) (b : Build) (resolve : String → Option Name)
    (stdout : List UInt8 → Size) (codec : Codec T) (start size : Nat) (memory : Nat → T)
    (files : Name → Option (List UInt8))
    (unused : ∀ slot name, resolve (imd slot) = some name → files name = none)
    (calls : List (BufferCall T))
    (compatible : Compatible ty allocate b resolve stdout codec calls (fun _ => none)
      (.fresh start size memory) ⟨[], .mounted files⟩) :
    Equivalent ty allocate b resolve stdout codec calls (.fresh start size memory)
      ⟨[], .mounted files⟩ :=
  equivalent_of_agrees calls (registered_fresh ty resolve start size memory)
    (filed_mounted codec unused) compatible

def flagLayout : Layout Flag := ⟨1, 7⟩

/-- An allocator with one block to give. -/
def oneBlock : Allocator flagLayout.size := fun p =>
  if fits : p.live = [] ∧ 8 ≤ p.size then
    some ⟨⟨p.start, 8, by decide⟩,
      ⟨⟨Nat.le_refl _, Nat.add_le_add_left fits.2 _⟩, by simp [fits.1]⟩, show 1 ≤ 8 by decide⟩
  else none

def handedOver (f : Flag → Flag) : List (BufferCall Flag) :=
  [.produce "out" f roomy, .consume "out" roomy]

theorem handedOver_compatible (memory : Nat → Flag) (f : Flag → Flag)
    (overwrites : f (memory 4096) = f ⟨false⟩) :
    Compatible flagLayout oneBlock debug some (fun _ => 0) flagCodec (handedOver f) (fun _ => none)
      (.fresh 4096 65536 memory)
      emptyDisk := by
  refine ⟨fun _ => rfl, "out.imd", rfl, available_roomy .., by decide,
    fun h' s' _ dropped => ⟨?_, fun _ _ _ _ _ _ _ => trivial⟩⟩
  intro name l named found
  obtain rfl : name = "out.imd" := (Option.some.inj named).symm
  rw [Function.update_self] at found
  cases found
  obtain ⟨s, run, _, length, _⟩ :=
    writeImd_available (s := emptyDisk) debug (fun _ => 0) (flagCodec.toString (f ⟨false⟩))
    (idle_mounted _) (show some (imd "out") = some "out.imd" from rfl) (available_roomy ..)
      (show 0 < 2 ^ 32 by decide)
  obtain rfl := Option.some.inj (dropped.symm.trans run)
  have stored (v : Flag) : (flagCodec.toString v).length ≤ roomy.bytes := by
    obtain ⟨ok⟩ := v
    cases ok <;> decide
  refine ⟨⟨by decide, rfl, rfl, overwrites, stored _, ?_⟩, by rw [length]; decide⟩
  simp [Volume.content, emptyDisk, Volume.mounted]

/-- A producer that overwrites what it finds in its buffer. -/
theorem overwritten_equivalent :
    Equivalent flagLayout oneBlock debug some (fun _ => 0) flagCodec (handedOver fun _ => ⟨true⟩)
    (.fresh 4096 65536 fun _ => ⟨true⟩) emptyDisk :=
  buffers_equivalent_when flagLayout oneBlock debug some _ flagCodec 4096 65536 _ _
    (fun _ _ _ => rfl) _
    (handedOver_compatible _ _ rfl)

/-- A producer that leaves its value as it is hands over the old content of a block in one
implementation and the default value in the other. -/
theorem initial_values_differ :
    ¬ ∀ (memory : Nat → Flag) (calls : List (BufferCall Flag)),
    Equivalent flagLayout oneBlock debug some (fun _ => 0) flagCodec calls
      (.fresh 4096 65536 memory) emptyDisk := by
  intro all
  obtain ⟨results, refer, enough, file⟩ := all (fun _ => ⟨true⟩) (handedOver id)
  have compatible := handedOver_compatible (fun _ => ⟨false⟩) id rfl
  obtain ⟨results', refer', enough', file'⟩ := equivalent_of_agrees (handedOver id)
    (registered_fresh ..) (filed_mounted flagCodec fun _ _ _ => rfl) compatible
  have same := (file (max enough enough') (le_max_left ..)).symm.trans (file' _ (le_max_right ..))
  obtain rfl : results = [some ⟨true⟩] := Option.some.inj (refer.symm.trans rfl)
  obtain rfl : results' = [some ⟨false⟩] := Option.some.inj (refer'.symm.trans rfl)
  simp at same

end AlloyStack.AsStd
