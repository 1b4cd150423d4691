import AlloyStack.Library.Transition
import AlloyStack.Wasi.Imports

/-! Handing a buffer from one wasm instance to another one. A slot holds the address and the size of
the registered memory, and the bytes are read when the slot is accessed. -/
namespace AlloyStack.Wasi
open Rust LinearMemory Transition

/-- Where a registered buffer is: in the memory that an instance had at that time, or in a vector
that was freed before it is read. -/
inductive Pointer where
  | guest (owner generation offset : Nat)
  | freed
  deriving DecidableEq

/-- The slots and the linear memories of the instances. The memory of an instance is of a new
generation when it has been moved, or when the instance has ended and another one has its place. -/
structure Process where
  memories : Nat → Bytes
  generations : Nat → Nat
  slots : String → Option (Pointer × Nat)

/-- The bytes that are found behind an address that is not in use any more. -/
structure Remains where
  bytes : Pointer → (len : Nat) → Bytes
  length : ∀ p len, (bytes p len).length = len

section Imports
variable (r : Remains) (addr : I32 → Nat)

/-- `slice::from_raw_parts` -/
def Process.bytesAt (s : Process) (p : Pointer) (len : Nat) : Bytes :=
  match p with
  | .guest owner generation offset =>
    if generation = s.generations owner then load (s.memories owner) offset len else r.bytes p len
  | .freed => r.bytes p len

def bufferRegister (i : Nat) (slotNameBase slotNameSize bufferOffset bufferSize : I32)
    (s : Process) : Option Process := do
  let slotName ← readString (addr slotNameBase) slotNameSize (s.memories i)
  let _ ← read (s.memories i) (addr bufferOffset) (asUsize bufferSize)
  let pointer := .guest i (s.generations i) (addr bufferOffset)
  some { s with slots := Function.update s.slots slotName (some (pointer, asUsize bufferSize)) }

/-- `DataBuffer::from_buffer_slot`, or for a slot that is empty a buffer of zeros that is freed at
once, in the slot without a name. -/
def takeSlot (slotName : String) (bufferSize : I32) (s : Process) :
    Option ((Pointer × Nat) × Process) :=
  match s.slots slotName with
  | some buffer => some (buffer, { s with slots := Function.update s.slots slotName none })
  | none => do
    let len ← capacity bufferSize
    some ((.freed, len), { s with slots := Function.update s.slots "" (some (.freed, len)) })

def accessBuffer (i : Nat) (slotNameBase slotNameSize bufferOffset bufferSize : I32) (s : Process) :
    Option Process := do
  let slotName ← readString (addr slotNameBase) slotNameSize (s.memories i)
  let ((pointer, len), s) ← takeSlot slotName bufferSize s
  if asUsize bufferSize ≠ len then none
  else do
    let memory ← write (s.memories i) (addr bufferOffset) (s.bytesAt r pointer len)
    some { s with memories := Function.update s.memories i memory }

end Imports

/-- What an instance does: it stores to its memory, itself or through an import, its memory grows in
place or is replaced, or it calls one of the two imports. -/
inductive Event where
  | store (i offset : Nat) (data : Bytes)
  | grow (i more : Nat)
  | renew (i : Nat) (memory : Bytes)
  | register (i : Nat) (slotNameBase slotNameSize bufferOffset bufferSize : I32)
  | access (i : Nat) (slotNameBase slotNameSize bufferOffset bufferSize : I32)

section Runs
variable (r : Remains)

def step (s : Process) : Event → Option Process
  | .store i offset data => do
    let memory ← write (s.memories i) offset data
    some { s with memories := Function.update s.memories i memory }
  | .grow i more =>
    some { s with memories := Function.update s.memories i (s.memories i ++ List.replicate more 0) }
  | .renew i memory => some { s with
      memories := Function.update s.memories i memory
      generations := Function.update s.generations i (s.generations i + 1) }
  | .register i base size offset len => bufferRegister asUsize i base size offset len s
  | .access i base size offset len => accessBuffer r asUsize i base size offset len s

def Step (s : Process) (e : Event) (t : Process) : Prop := step r s e = some t

/-- The slot that a call names, as its guest has the name in the memory. -/
def Event.names (s : Process) : Event → Option String
  | .register i base size _ _ => readString (asUsize base) size (s.memories i)
  | .access i base size _ _ => readString (asUsize base) size (s.memories i)
  | _ => none

/-- A step after a registration of `len` bytes at `offset` by `owner`: it changes none of these
bytes and does not replace their memory, no call names the slot, and if the slot has no name then no
access is to an empty slot. -/
structure Quiet (slot : String) (owner offset len : Nat) (s : Process) (e : Event) (t : Process) :
    Prop where
  bytes : load (t.memories owner) offset len = load (s.memories owner) offset len
  stays : ∀ memory, e ≠ .renew owner memory
  unnamed : e.names s ≠ some slot
  filled : slot = "" → ∀ i base size dst n, e = .access i base size dst n →
    ∀ name, e.names s = some name → s.slots name ≠ none

end Runs

section HandOver
variable {r : Remains} {slot : String} {owner offset len : Nat}

/-- The slot is where the registration left it, and the bytes are there. -/
structure Waiting (slot : String) (owner generation offset len : Nat) (c : Bytes) (s : Process) :
    Prop where
  slots : s.slots slot = some (.guest owner generation offset, len)
  current : s.generations owner = generation
  bytes : load (s.memories owner) offset len = c

theorem register_waits
    (registered : bufferRegister asUsize owner base nameSize bufferOffset bufferSize s = some t)
    (named : readString (asUsize base) nameSize (s.memories owner) = some slot) :
    Waiting slot owner (s.generations owner) (asUsize bufferOffset) (asUsize bufferSize)
      (load (s.memories owner) (asUsize bufferOffset) (asUsize bufferSize)) t := by
  simp only [bufferRegister, named, Option.bind_eq_bind, Option.bind_some, Option.bind_eq_some_iff,
    Option.some.injEq] at registered
  obtain ⟨-, -, rfl⟩ := registered
  exact ⟨Function.update_self .., rfl, rfl⟩

/-- Taking a slot leaves the others as they are, except for the one without a name. -/
theorem takeSlot_frame (taken : takeSlot name bufferSize s = some (buffer, t)) :
    t.memories = s.memories ∧ t.generations = s.generations ∧
      ∀ slot, slot ≠ name → (slot = "" → s.slots name ≠ none) → t.slots slot = s.slots slot := by
  unfold takeSlot at taken
  split at taken
  next found =>
    obtain ⟨-, rfl⟩ := Prod.mk.inj (Option.some.inj taken)
    exact ⟨rfl, rfl, fun slot other _ => Function.update_of_ne other ..⟩
  next missing =>
    simp only [Option.bind_eq_bind, Option.bind_eq_some_iff, Option.some.injEq,
      Prod.mk.injEq] at taken
    obtain ⟨len, -, -, rfl⟩ := taken
    refine ⟨rfl, rfl, fun slot _ filled => Function.update_of_ne ?_ ..⟩
    intro same
    exact filled same missing

/-- A quiet step leaves the slot as it is. -/
theorem step_slots (took : Step r s e t) (quiet : Quiet slot owner offset len s e t) :
    t.slots slot = s.slots slot ∧ t.generations owner = s.generations owner := by
  cases e with
  | store i at' data =>
    simp only [Step, step, Option.bind_eq_bind, Option.bind_eq_some_iff, Option.some.injEq] at took
    obtain ⟨memory, -, rfl⟩ := took
    exact ⟨rfl, rfl⟩
  | grow i more =>
    obtain rfl := Option.some.inj took
    exact ⟨rfl, rfl⟩
  | renew i memory =>
    obtain rfl := Option.some.inj took
    refine ⟨rfl, Function.update_of_ne ?_ ..⟩
    intro same
    exact quiet.stays memory (by rw [same])
  | register i base size at' n =>
    simp only [Step, step, bufferRegister, Option.bind_eq_bind, Option.bind_eq_some_iff,
      Option.some.injEq] at took
    obtain ⟨name, named, -, -, rfl⟩ := took
    refine ⟨Function.update_of_ne ?_ .., rfl⟩
    intro same
    exact quiet.unnamed (by rw [same]; exact named)
  | access i base size at' n =>
    simp only [Step, step, accessBuffer, Option.bind_eq_bind, Option.bind_eq_some_iff,
      Prod.exists] at took
    obtain ⟨name, named, pointer, found, s', taken, took⟩ := took
    split at took
    · cases took
    simp only [Option.bind_eq_some_iff, Option.some.injEq] at took
    obtain ⟨memory, -, rfl⟩ := took
    have other : slot ≠ name := fun same => quiet.unnamed (by rw [same]; exact named)
    obtain ⟨-, generations, slots⟩ := takeSlot_frame taken
    exact ⟨slots slot other fun empty => quiet.filled empty i base size at' n rfl name named,
      congrFun generations owner⟩

theorem waiting_step (waiting : Waiting slot owner generation offset len c s) (took : Step r s e t)
    (quiet : Quiet slot owner offset len s e t) : Waiting slot owner generation offset len c t := by
  obtain ⟨slots, current⟩ := step_slots took quiet
  exact ⟨slots.trans waiting.slots, current.trans waiting.current, quiet.bytes.trans waiting.bytes⟩

/-- An access to a slot whose bytes wait delivers them. -/
theorem access_delivers (waiting : Waiting slot owner generation offset (asUsize bufferSize) c s)
    (named : readString (asUsize base) nameSize (s.memories i) = some slot)
    (low : dst.toNat < 2 ^ 31) (room : dst.toNat + c.length ≤ (s.memories i).length) :
    ∃ t, accessBuffer r asUsize i base nameSize dst bufferSize s = some t ∧
      t.memories = Function.update s.memories i (store (s.memories i) dst.toNat c) := by
  have taken : takeSlot slot bufferSize s =
      some ((.guest owner generation offset, asUsize bufferSize),
      { s with slots := Function.update s.slots slot none }) := by
    rw [takeSlot, waiting.slots]
  have found : Process.bytesAt r { s with slots := Function.update s.slots slot none }
      (.guest owner generation offset)
      (asUsize bufferSize) = c := by
    rw [Process.bytesAt, if_pos waiting.current.symm]
    exact waiting.bytes
  have written : write (s.memories i) dst.toNat c = some (store (s.memories i) dst.toNat c) :=
    write_eq_some.mpr ⟨room, rfl⟩
  refine ⟨{ s with
    memories := Function.update s.memories i (store (s.memories i) dst.toNat c)
    slots := Function.update s.slots slot none }, ?_, rfl⟩
  simp only [accessBuffer, named, taken, found, asUsize_low low, written, Option.bind_eq_bind,
    Option.bind_some, ne_eq, not_true_eq_false, if_false]

/-- In every run that leaves the registered bytes and the slot alone, the access writes the bytes of
the registration, and nothing else, to the memory of its instance. -/
theorem handed_over
    (registered : bufferRegister asUsize owner base nameSize bufferOffset bufferSize s₀ = some s₁)
    (named : readString (asUsize base) nameSize (s₀.memories owner) = some slot)
    (run : Run (Where (Step r) (Quiet slot owner (asUsize bufferOffset) (asUsize bufferSize))) s₁ es
      s₂)
    (named' : readString (asUsize base') nameSize' (s₂.memories i) = some slot)
    (low : dst.toNat < 2 ^ 31) (room : dst.toNat + asUsize bufferSize ≤ (s₂.memories i).length) :
    ∃ s₃, accessBuffer r asUsize i base' nameSize' dst bufferSize s₂ = some s₃ ∧
      s₃.memories = Function.update s₂.memories i (store (s₂.memories i) dst.toNat
        (load (s₀.memories owner) (asUsize bufferOffset) (asUsize bufferSize))) := by
  have waiting : Waiting slot owner (s₀.generations owner) (asUsize bufferOffset)
      (asUsize bufferSize)
      (load (s₀.memories owner) (asUsize bufferOffset) (asUsize bufferSize)) s₂ :=
    run.stable (P := Waiting slot owner _ _ _ _)
      (fun holds took => waiting_step holds took.1 took.2)
      (register_waits registered named)
  have inside : asUsize bufferOffset + asUsize bufferSize ≤ (s₀.memories owner).length := by
    simp only [bufferRegister, named, Option.bind_eq_bind, Option.bind_some,
      Option.bind_eq_some_iff] at registered
    obtain ⟨bytes, sliced, -⟩ := registered
    exact (read_eq_some.mp sliced).1
  exact access_delivers waiting named' low (by rwa [load_length inside])

end HandOver

section Reuse

/-- Freed memory reads as zeros here. -/
def zeroed : Remains := ⟨fun _ len => List.replicate len 0, by simp⟩

/-- Two instances, each with the name `a` and one byte for the buffer. -/
def twoInstances : Process :=
  ⟨fun i => if i = 0 then [97, 1] else [97, 0], fun _ => 0, fun _ => none⟩

/-- The producer may write to the rest of its memory. -/
theorem byte_handed_over : ∃ s₁ s₂ s₃, bufferRegister asUsize 0 0 1 1 1 twoInstances = some s₁ ∧
    step zeroed s₁ (.store 0 0 [98]) = some s₂ ∧
    accessBuffer zeroed asUsize 1 0 1 1 1 s₂ = some s₃ ∧ s₃.memories 1 = [97, 1] := by
  have registered : bufferRegister asUsize 0 0 1 1 1 twoInstances =
      some { twoInstances with
        slots := Function.update twoInstances.slots "a" (some (.guest 0 0 1, 1)) } := rfl
  generalize first : ({ twoInstances with
    slots := Function.update twoInstances.slots "a" (some (.guest 0 0 1, 1)) } : Process) = s₁
    at registered
  have stored : step zeroed s₁ (.store 0 0 [98]) =
      some { s₁ with memories := Function.update s₁.memories 0 [98, 1] } := by
    rw [← first]
    rfl
  generalize second :
    ({ s₁ with memories := Function.update s₁.memories 0 [98, 1] } : Process) = s₂ at stored
  have quiet : Quiet "a" 0 1 1 s₁ (.store 0 0 [98]) s₂ := by
    refine ⟨?_, fun memory => ?_, ?_, fun empty => ?_⟩
    · rw [← second, ← first]
      rfl
    · simp
    · simp [Event.names]
    · exact absurd empty (by decide)
  have memories : s₂.memories 1 = [97, 0] := by
    rw [← second, ← first]
    rfl
  have named : readString (asUsize 0) 1 (twoInstances.memories 0) = some "a" := by decide
  have named' : readString (asUsize 0) 1 (s₂.memories 1) = some "a" := by rw [memories]; decide
  have low : (1 : I32).toNat < 2 ^ 31 := by decide
  obtain ⟨s₃, accessed, delivered⟩ :=
    handed_over registered named (.cons ⟨stored, quiet⟩ (.nil _)) named' low
    (by rw [memories]; decide)
  refine ⟨s₁, s₂, s₃, registered, stored, accessed, ?_⟩
  rw [delivered, Function.update_self, memories]
  decide

/-- A producer that frees the buffer and uses the memory again hands over the new byte. -/
theorem reused_byte_handed_over :
    ∃ s₁ s₂ s₃, bufferRegister asUsize 0 0 1 1 1 twoInstances = some s₁ ∧
    step zeroed s₁ (.store 0 1 [2]) = some s₂ ∧
    accessBuffer zeroed asUsize 1 0 1 1 1 s₂ = some s₃ ∧ load (twoInstances.memories 0) 1 1 = [1] ∧
    s₃.memories 1 ≠ store (s₂.memories 1) 1 [1] := by
  refine ⟨_, _, _, rfl, rfl, rfl, rfl, ?_⟩
  decide

end Reuse
end AlloyStack.Wasi
