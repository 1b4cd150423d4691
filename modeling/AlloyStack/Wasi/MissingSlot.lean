import AlloyStack.Mm.FaasBuffer
import AlloyStack.Wasi.DataBuffer

/-! Access to a slot that nobody registered. A slot is an entry of the register of the mm service
with the address of a `WasmDataBuffer`, and the stand-in for a missing slot is made by the
constructor that also registers it. -/
namespace AlloyStack.Wasi.MissingSlot
open Rust LinearMemory Transition Blocks

/-- `allocate_first_fit` of the buffer allocator, with what it promises of a block. -/
def FirstFit := (p : Pool) → (size : Nat) → Option { b : Block // p.Admits b ∧ size ≤ b.size }

theorem wasmDataBuffer_nonzero : 0 < 16 := by decide

/-- `WasmDataBuffer(*mut u8, usize)` -/
def wasmDataBuffer (fingerprint : UInt64) : Mm.Ty := ⟨16, fingerprint, wasmDataBuffer_nonzero⟩

/-- The instances, the mm service, and the `WasmDataBuffer` that each buffer of the service
holds. -/
structure Shared where
  service : Mm.Buffers
  cells : Nat → Pointer × Nat
  memories : Nat → Bytes
  generations : Nat → Nat

/-- What the slots stand for. -/
def Shared.process (h : Shared) : Process where
  memories := h.memories
  generations := h.generations
  slots name := (h.service.register name).map fun entry => h.cells entry.1

/-- `buffer_alloc`, and the buffer that `DataBuffer::with_slot` makes of the address. -/
def withSlot (fit : FirstFit) (slot : String) (ty : Mm.Ty) (s : Mm.Buffers) :
    Option (Nat × Mm.Buffers) := do
  let b ← fit s.allocator ty.size
  some (b.1.start, { s with
    allocator := s.allocator.give b.1 b.2.1
    register := Function.update s.register slot (some (b.1.start, ty.fingerprint))
    buffers := ⟨b.1.start, false⟩ :: s.buffers })

/-- `DataBuffer::new` -/
def new (fit : FirstFit) (ty : Mm.Ty) (s : Mm.Buffers) : Option (Nat × Mm.Buffers) :=
  withSlot fit "" ty s

/-- `DataBuffer::from_buffer_slot` -/
def fromBufferSlot (slot : String) (ty : Mm.Ty) (s : Mm.Buffers) :
    Option (Option Nat × Mm.Buffers) :=
  match s.register slot with
  | none => some (none, s)
  | some (addr, fingerprint) =>
    if fingerprint ≠ ty.fingerprint then none
    else some (some addr, { s with
      register := Function.update s.register slot none
      buffers := ⟨addr, false⟩ :: s.buffers })

section Imports
variable (fit : FirstFit) (fingerprint : UInt64) (r : Remains)

/-- The closure for a missing slot: its vector of zeros is freed at the end, with the pointer to it
in the stand-in. -/
def standIn (bufferSize : I32) (h : Shared) : Option (Nat × Shared) := do
  let len ← capacity bufferSize
  let (addr, service) ← new fit (wasmDataBuffer fingerprint) h.service
  some (addr, { h with service, cells := Function.update h.cells addr (.freed, len) })

def accessBuffer (i : Nat) (slotNameBase slotNameSize bufferOffset bufferSize : I32) (h : Shared) :
    Option Shared := do
  let slotName ← readString (asUsize slotNameBase) slotNameSize (h.memories i)
  let (found, service) ← fromBufferSlot slotName (wasmDataBuffer fingerprint) h.service
  let (addr, h) ← match found with
    | some addr => some (addr, { h with service })
    | none => standIn fit fingerprint bufferSize { h with service }
  let (pointer, len) := h.cells addr
  if asUsize bufferSize ≠ len then none
  else do
    let memory ← write (h.memories i) (asUsize bufferOffset) (h.process.bytesAt r pointer len)
    some { h with
      memories := Function.update h.memories i memory, service := h.service.drop ⟨addr, false⟩ }

/-- An access that gives the guest zeros and leaves the register alone. -/
def ReadsZeros (i : Nat) (slotNameBase slotNameSize bufferOffset bufferSize : I32) (h : Shared) :
    Prop :=
  ∃ h', accessBuffer fit fingerprint r i slotNameBase slotNameSize bufferOffset bufferSize h =
    some h' ∧
    load (h'.memories i) (asUsize bufferOffset) (asUsize bufferSize) =
      List.replicate (asUsize bufferSize) 0 ∧
    h'.service.register = h.service.register

end Imports

section Registration
variable {fit : FirstFit} {ty : Mm.Ty} {s t : Mm.Buffers} {i addr : Nat} {slot : String}

/-- A thread that is back has changed the register and the buffers only. -/
theorem enter_back (idle : s.phases i = .idle) (phase : Mm.Phase)
    (register : String → Option (Nat × UInt64)) (buffers : List Mm.DataBuffer) :
    { s.enter i phase with register, buffers }.enter i .idle = { s with register, buffers } := by
  simp only [Mm.Buffers.enter, Function.update_idem, ← idle, Function.update_eq_self]

/-- The constructor is an allocation and then a registration by the thread that calls it. -/
theorem withSlot_run (idle : s.phases i = .idle) (made : withSlot fit slot ty s = some (addr, t)) :
    ∃ b, Run Mm.BufferStep s [.alloc i slot ty b, .register i slot addr ty.fingerprint] t ∧
      ⟨addr, false⟩ ∈ t.buffers := by
  simp only [withSlot, Option.bind_eq_bind, Option.bind_eq_some_iff, Option.some.injEq,
    Prod.mk.injEq] at made
  obtain ⟨b, -, rfl, rfl⟩ := made
  have back := enter_back (s := { s with allocator := s.allocator.give b.1 b.2.1 }) idle
    (.registering slot b.1.start ty.fingerprint)
      (Function.update s.register slot (some (b.1.start, ty.fingerprint)))
    (⟨b.1.start, false⟩ :: s.buffers)
  refine ⟨b.1, .cons (.alloc b.2.1 idle b.2.2) (.cons ?_ (.nil _)), List.mem_cons_self ..⟩
  rw [← back]
  exact .register (Mm.enter_self ..)

/-- An access that does not panic takes the entry out and returns its address. -/
theorem fromBufferSlot_run (idle : s.phases i = .idle)
    (taken : fromBufferSlot slot ty s = some (found, t)) :
    Run Mm.BufferStep s [.access i slot ty, .returned i slot ty found] t ∧ t.phases i = .idle ∧
      ∀ addr, found = some addr → ⟨addr, false⟩ ∈ t.buffers := by
  unfold fromBufferSlot at taken
  split at taken
  next missing =>
    obtain ⟨rfl, rfl⟩ := Prod.mk.inj (Option.some.inj taken)
    have same : Function.update s.register slot none = s.register :=
      Function.update_eq_self_iff.mpr missing.symm
    have checked := Mm.BufferStep.empty (Mm.enter_self s i (.checking slot ty none))
    refine ⟨.cons (.access idle) (.cons ?_ (.nil _)), idle, by simp⟩
    rw [missing, same]
    have back : (s.enter i (.checking slot ty none)).enter i .idle = s :=
      enter_back idle _ s.register s.buffers
    rwa [back] at checked
  next addr fingerprint registered =>
    split at taken
    next => cases taken
    next same =>
      obtain ⟨rfl, rfl⟩ := Prod.mk.inj (Option.some.inj taken)
      have back :=
        enter_back idle (.checking slot ty (some (addr, fingerprint)))
          (Function.update s.register slot none)
        (⟨addr, false⟩ :: s.buffers)
      refine ⟨.cons (.access idle) (.cons ?_ (.nil _)), idle, fun found same => ?_⟩
      · rw [registered, ← back]
        exact .returned (Mm.enter_self ..) (not_not.mp same)
      · simp [← Option.some.inj same]

end Registration

section Access
variable {fit : FirstFit} {fingerprint : UInt64} {r : Remains} {h h' : Shared} {i : Nat}
  {slot : String}
  {base nameSize dst bufferSize : I32}

/-- No slot has the address of a block that the allocator hands out. -/
theorem unregistered (held : Mm.Held es s) (admitted : s.allocator.Admits b) (name : String)
    (entry : Nat × UInt64) (found : s.register name = some entry) : entry.1 ≠ b.start := by
  intro same
  have holds : Mm.holds es s (.slot name) = some b.start := by simp [Mm.holds, found, same]
  obtain ⟨c, live, start⟩ := held.allocated _ _ holds
  exact (admitted.apart c live).start_ne start.symm

theorem capacity_eq_some : capacity len = some n ↔ len.toNat < 2 ^ 31 ∧ n = len.toNat := by
  simp only [capacity, Option.ite_none_right_eq_some, Option.some.injEq, @eq_comm _ n]

/-- What an access to a missing slot does: the guest gets what is left of the vector, and the
stand-in is in the slot without a name. -/
theorem access_missing (named : readString (asUsize base) nameSize (h.memories i) = some slot)
    (missing : h.service.register slot = none)
    (accessed : accessBuffer fit fingerprint r i base nameSize dst bufferSize h = some h') :
    ∃ b, fit h.service.allocator 16 = some b ∧ bufferSize.toNat < 2 ^ 31 ∧
      asUsize dst + bufferSize.toNat ≤ (h.memories i).length ∧
      h'.memories = Function.update h.memories i
        (store (h.memories i) (asUsize dst) (r.bytes .freed bufferSize.toNat)) ∧
      h'.generations = h.generations ∧
      h'.cells = Function.update h.cells b.1.start (.freed, bufferSize.toNat) ∧
      h'.service.register =
        Function.update h.service.register "" (some (b.1.start, fingerprint)) := by
  have taken : fromBufferSlot slot (wasmDataBuffer fingerprint) h.service =
      some (none, h.service) := by
    rw [fromBufferSlot, missing]
  simp only [accessBuffer, named, taken, standIn, new, withSlot, Option.bind_eq_bind,
    Option.bind_some, Option.bind_eq_some_iff, Option.some.injEq, Prod.exists,
    Prod.mk.injEq] at accessed
  obtain ⟨_, _, ⟨len, sized, _, _, ⟨b, given, rfl, rfl⟩, rfl, rfl⟩, accessed⟩ := accessed
  simp only [Function.update_self, Process.bytesAt] at accessed
  obtain ⟨-, accessed⟩ := Option.ite_none_left_eq_some.mp accessed
  obtain ⟨memory, written, rfl⟩ := by
    simpa only [Option.bind_eq_some_iff, Option.some.injEq] using accessed
  obtain ⟨low, rfl⟩ := capacity_eq_some.mp sized
  obtain ⟨room, rfl⟩ := write_eq_some.mp written
  rw [r.length] at room
  exact ⟨b, given, low, room, rfl, rfl, rfl, rfl⟩

/-- What an access to a registered slot does. -/
theorem access_found (named : readString (asUsize base) nameSize (h.memories i) = some slot)
    (registered : h.service.register slot = some (addr, found))
    (accessed : accessBuffer fit fingerprint r i base nameSize dst bufferSize h = some h') :
    asUsize bufferSize = (h.cells addr).2 ∧
      (∃ memory, write (h.memories i) (asUsize dst)
        (h.process.bytesAt r (h.cells addr).1 (h.cells addr).2) = some memory ∧
        h'.memories = Function.update h.memories i memory) ∧
      h'.generations = h.generations ∧ h'.cells = h.cells ∧
      h'.service.register = Function.update h.service.register slot none := by
  simp only [accessBuffer, named, fromBufferSlot, registered, Option.bind_eq_bind, Option.bind_some,
    Option.bind_eq_some_iff, Prod.exists] at accessed
  obtain ⟨_, _, taken, accessed⟩ := accessed
  obtain ⟨-, taken⟩ := Option.ite_none_left_eq_some.mp taken
  obtain ⟨rfl, rfl⟩ := Prod.mk.inj (Option.some.inj taken)
  simp only [Option.ite_none_left_eq_some, not_not, Option.bind_eq_some_iff,
    Option.some.injEq] at accessed
  obtain ⟨fits, memory, written, rfl⟩ := accessed
  exact ⟨fits, ⟨memory, written, rfl⟩, rfl, rfl, rfl⟩

/-- The slots behave as those of `Wasi.DataBuffer`, whatever else the service has handed out. -/
theorem accessBuffer_refines (held : Mm.Held es h.service)
    (accessed : accessBuffer fit fingerprint r i base nameSize dst bufferSize h = some h') :
    Wasi.accessBuffer r asUsize i base nameSize dst bufferSize h.process = some h'.process := by
  obtain ⟨slot, named, -⟩ := Option.bind_eq_some_iff.mp accessed
  cases found : h.service.register slot with
  | none =>
    obtain ⟨b, given, low, room, memories, generations, cells, register⟩ :=
      access_missing named found accessed
    have slots : h'.process.slots =
        Function.update h.process.slots "" (some (.freed, bufferSize.toNat)) := by
      funext name
      by_cases same : name = ""
      · simp [Shared.process, register, cells, same]
      · simp only [Shared.process, register, Function.update_of_ne same, cells]
        refine Option.map_congr fun entry member => Function.update_of_ne ?_ ..
        exact unregistered held b.2.1 name entry member
    have result : h'.process = ⟨h'.memories, h'.generations, h'.process.slots⟩ := rfl
    have taken : takeSlot slot bufferSize h.process = some ((.freed, bufferSize.toNat),
        { h.process with
          slots := Function.update h.process.slots "" (some (.freed, bufferSize.toNat)) }) := by
      simp only [takeSlot, Shared.process, found, Option.map_none,
        capacity_eq_some.mpr ⟨low, rfl⟩, Option.bind_eq_bind,
        Option.bind_some]
    have written := write_eq_some.mpr ⟨(r.length .freed bufferSize.toNat).symm ▸ room, rfl⟩
    rw [result, memories, generations, slots, Wasi.accessBuffer]
    simp only [Shared.process] at named taken ⊢
    simp only [named, taken, asUsize_low low, Process.bytesAt, written, Option.bind_eq_bind,
      Option.bind_some, ne_eq,
      not_true_eq_false, if_false]
  | some entry =>
    obtain ⟨fits, ⟨memory, written, memories⟩, generations, cells, register⟩ :=
      access_found named found accessed
    have slots : h'.process.slots = Function.update h.process.slots slot none := by
      funext name
      by_cases same : name = slot <;> simp [Shared.process, register, cells, same]
    have result : h'.process = ⟨h'.memories, h'.generations, h'.process.slots⟩ := rfl
    have taken : takeSlot slot bufferSize h.process = some (h.cells entry.1,
        { h.process with slots := Function.update h.process.slots slot none }) := by
      simp only [takeSlot, Shared.process, found, Option.map_some]
    rw [result, memories, generations, slots, Wasi.accessBuffer]
    simp only [Shared.process] at named taken written ⊢
    simp only [named, taken, fits, Option.bind_eq_bind, Option.bind_some, ne_eq,
      not_true_eq_false, if_false]
    exact congrArg (Option.bind · _) written

/-- To the mm service an access is some of its steps, so that the states it can be called in are
those of the runs of the service. -/
theorem accessBuffer_run (idle : h.service.phases j = .idle)
    (accessed : accessBuffer fit fingerprint r i base nameSize dst bufferSize h = some h') :
    ∃ fs, Run Mm.BufferStep h.service fs h'.service := by
  simp only [accessBuffer, Option.bind_eq_bind, Option.bind_eq_some_iff, Prod.exists] at accessed
  obtain ⟨slot, -, found, service, taken, accessed⟩ := accessed
  obtain ⟨first, idle, present⟩ := fromBufferSlot_run idle taken
  cases found with
  | some addr =>
    simp only [Option.bind_some, Option.ite_none_left_eq_some, Option.bind_eq_some_iff,
      Option.some.injEq] at accessed
    obtain ⟨-, memory, -, rfl⟩ := accessed
    exact ⟨_, first.snoc (.drop (present addr rfl))⟩
  | none =>
    simp only [standIn, new, Option.bind_eq_bind, Option.bind_eq_some_iff, Prod.exists,
      Option.some.injEq, Prod.mk.injEq,
      Option.ite_none_left_eq_some] at accessed
    obtain ⟨_, _, ⟨len, -, addr, service', made, rfl, rfl⟩, -, memory, -, rfl⟩ := accessed
    obtain ⟨b, second, present⟩ := withSlot_run idle made
    exact ⟨_, (first.append second).snoc (.drop present)⟩

/-- Whatever the slot without a name held, the next access to it finds the stand-in. -/
theorem unnamed_access_after_missing
    (named : readString (asUsize base) nameSize (h.memories i) = some slot)
    (missing : h.service.register slot = none)
    (accessed : accessBuffer fit fingerprint r i base nameSize dst bufferSize h = some h')
    (unnamed : readString (asUsize base') nameSize' (h'.memories j) = some "")
    (later : accessBuffer fit fingerprint r j base' nameSize' dst' bufferSize' h' = some h'') :
    asUsize bufferSize' = bufferSize.toNat ∧ h''.memories = Function.update h'.memories j
      (store (h'.memories j) (asUsize dst') (r.bytes .freed bufferSize.toNat)) := by
  obtain ⟨b, -, -, -, -, -, cells, register⟩ := access_missing named missing accessed
  have registered : h'.service.register "" = some (b.1.start, fingerprint) := by
    rw [register, Function.update_self]
  obtain ⟨fits, ⟨memory, written, memories⟩, -, -, -⟩ := access_found unnamed registered later
  rw [cells, Function.update_self] at fits written
  rw [memories, (write_eq_some.mp written).2]
  exact ⟨fits, rfl⟩

/-- The register is never as it was: the stand-in has an address of its own. -/
theorem missing_slot_never_reads_zeros (ran : Run Mm.BufferStep (.empty start size) es h.service)
    (named : readString (asUsize base) nameSize (h.memories i) = some slot)
    (missing : h.service.register slot = none) :
    ¬ ReadsZeros fit fingerprint r i base nameSize dst bufferSize h := by
  rintro ⟨h', accessed, -, same⟩
  have held : Mm.Held es h.service := ran.history (P := Mm.Held) Mm.Held.step (.initial start size)
  obtain ⟨b, -, -, -, -, -, -, register⟩ := access_missing named missing accessed
  have entry : h.service.register "" = some (b.1.start, fingerprint) := by
    rw [← same, register, Function.update_self]
  exact unregistered held b.2.1 "" _ entry rfl

end Access

section OneGuest

theorem emptyFit_admits {p : Pool} (fits : 0 < size ∧ size ≤ p.size ∧ p.live = []) :
    p.Admits ⟨p.start, size, fits.1⟩ where
  inside := ⟨le_rfl, Nat.add_le_add_left fits.2.1 p.start⟩
  apart := by simp [fits.2.2]

/-- The first allocation, at the start of the region. -/
def emptyFit : FirstFit := fun p size =>
  if fits : 0 < size ∧ size ≤ p.size ∧ p.live = [] then
    some ⟨⟨p.start, size, fits.1⟩, emptyFit_admits fits, Nat.le_refl size⟩
  else none

/-- A guest with the name `a` and one byte for the buffer. -/
def oneGuest : Shared := ⟨.empty 4096 65536, fun _ => (.freed, 0), fun _ => [97, 1], fun _ => 0⟩

theorem oneGuest_named : readString (asUsize 0) 1 (oneGuest.memories 0) = some "a" := by decide

theorem oneGuest_never_reads_zeros :
    (accessBuffer emptyFit 7 zeroed 0 0 1 1 1 oneGuest).isSome = true ∧
    ¬ ReadsZeros emptyFit 7 zeroed 0 0 1 1 1 oneGuest :=
  ⟨rfl, missing_slot_never_reads_zeros (.nil _) oneGuest_named rfl⟩

theorem missing_slot_registers :
    ¬ ∀ (fit : FirstFit) (fingerprint : UInt64) (r : Remains) (start size : Nat)
    (es : List Mm.BufferEvent) (h : Shared) (i : Nat) (base nameSize dst bufferSize : I32)
      (slot : String),
    Run Mm.BufferStep (.empty start size) es h.service →
    readString (asUsize base) nameSize (h.memories i) = some slot → h.service.register slot = none →
    ReadsZeros fit fingerprint r i base nameSize dst bufferSize h := by
  intro always
  obtain ⟨h', accessed, -, same⟩ :=
    always emptyFit 7 zeroed 4096 65536 [] oneGuest 0 0 1 1 1 "a" (.nil _) oneGuest_named rfl
  obtain ⟨b, -, -, -, -, -, -, register⟩ := access_missing oneGuest_named rfl accessed
  have entry : oneGuest.service.register "" = some (b.1.start, 7) := by
    rw [← same, register, Function.update_self]
  cases entry

end OneGuest
end AlloyStack.Wasi.MissingSlot
