import AlloyStack.Library.Rust
import AlloyStack.Mm.BufferReclamation

/-! `from_buffer_slot` at a type that the buffer was not registered for. `access_buffer` has taken
the entry out of the register when the fingerprints are compared, and the panic that follows is
caught by `rust_main`, which puts nothing back. -/
namespace AlloyStack.Mm
open Rust Transition

/-- `access_buffer`. -/
def Buffers.accessBuffer (s : Buffers) (slot : String) : Buffers × Option (Nat × UInt64) :=
  ({ s with register := Function.update s.register slot none }, s.register slot)

/-- `from_buffer_slot::<T>` between two steps of other threads, with `T::__fingerprint()`. -/
def Buffers.fromBufferSlot (s : Buffers) (slot : String) (fingerprint : UInt64) :
    Buffers × Outcome (Option Nat) :=
  match s.accessBuffer slot with
  | (s, none) => (s, .ok none)
  | (s, some (rawPtr, found)) =>
    if found ≠ fingerprint then (s, .panic)
    else ({ s with buffers := ⟨rawPtr, false⟩ :: s.buffers }, .ok (some rawPtr))

/-- `rust_main` with feature `unwinding`, around a `main` that works on the buffers. -/
def rustMain (main : Buffers → Buffers × Outcome Unit) (s : Buffers) :
    Buffers × Except String Unit :=
  match main s with
  | (s, .ok ()) => (s, .ok ())
  | (s, .err msg) => (s, .error s!"function exec error: user function error: {msg}")
  | (s, .panic) => (s, .error "catch user function panic.")

/-- A `main` that first asks for a buffer. -/
def accessing (slot : String) (fingerprint : UInt64)
    (rest : Option Nat → Buffers → Buffers × Outcome Unit) (s : Buffers) : Buffers × Outcome Unit :=
  match s.fromBufferSlot slot fingerprint with
  | (s, .ok found) => rest found s
  | (s, .err msg) => (s, .err msg)
  | (s, .panic) => (s, .panic)

/-- The access fails and the register is as before. -/
def Harmless (s : Buffers) (slot : String) (fingerprint : UInt64) : Prop :=
  (s.fromBufferSlot slot fingerprint).2 = .panic ∧
    (s.fromBufferSlot slot fingerprint).1.register = s.register

/-- A live block that neither the register nor a call in progress refers to. -/
structure Buffers.Forgotten (s : Buffers) (addr : Nat) : Prop where
  unused : ∀ d ∈ s.buffers, d.used = false
  live : s.Live addr
  unregistered : ¬ s.Registered addr
  idle : ¬ s.Pending addr

section Mismatch
variable {s t : Buffers}

theorem fromBufferSlot_mismatch (registered : s.register slot = some (addr, found))
    (differs : found ≠ fingerprint) :
    s.fromBufferSlot slot fingerprint =
      ({ s with register := Function.update s.register slot none }, .panic) := by
  simp only [Buffers.fromBufferSlot, Buffers.accessBuffer, registered, if_pos differs]

theorem fromBufferSlot_empty (empty : s.register slot = none) (fingerprint : UInt64) :
    (s.fromBufferSlot slot fingerprint).2 = .ok none := by
  simp only [Buffers.fromBufferSlot, Buffers.accessBuffer, empty]

/-- The two steps of a thread whose access fails. -/
theorem mismatch_run (ready : s.phases i = .idle)
    (registered : s.register slot = some (addr, found)) (differs : found ≠ ty.fingerprint) :
    Run BufferStep s [.access i slot ty, .mismatch i]
      { s with register := Function.update s.register slot none } := by
  let checking :=
    { s with register := Function.update s.register slot none }.enter i
      (.checking slot ty (some (addr, found)))
  have access : BufferStep s (.access i slot ty) checking := by
    have taken : BufferStep s (.access i slot ty) _ := .access ready
    rwa [registered] at taken
  have mismatch : BufferStep checking (.mismatch i) (checking.enter i .idle) :=
    .mismatch (enter_self ..) differs
  have back : checking.enter i .idle =
      { s with register := Function.update s.register slot none } := by
    simp only [checking, Buffers.enter, Function.update_idem, ← ready, Function.update_eq_self]
  exact .cons access (.cons (back ▸ mismatch) (.nil _))

/-- The slot was the only holder of the address besides `DataBuffer`s that may still be alive. -/
theorem forgotten_of_mismatch {es : List BufferEvent} (held : Held es s)
    (registered : s.register slot = some (addr, found)) :
    Buffers.Forgotten { s with register := Function.update s.register slot none } addr := by
  have own : holds es s (.slot slot) = some addr := by simp [holds, registered]
  refine ⟨held.unused, held.allocated _ _ own, ?_, ?_⟩
  · rintro ⟨name, f, entry⟩
    by_cases same : name = slot
    · subst same
      simp at entry
    · have kept : s.register name = some (addr, f) :=
        (Function.update_of_ne same ..).symm.trans entry
      have other : holds es s (.slot name) = some addr := by simp [holds, kept]
      exact same (Holder.slot.inj (held.sole _ _ addr other own))
  · rintro ⟨i, writes | reads⟩
    · exact absurd (held.sole (.writer i) _ addr writes own) (by simp)
    · exact absurd (held.sole (.reader i) _ addr reads own) (by simp)

theorem Buffers.Forgotten.drop (forgotten : s.Forgotten addr) (member : d ∈ s.buffers) :
    (s.drop d).Forgotten addr := by
  have kept : (s.drop d).allocator = s.allocator := by
    simp [Buffers.drop, forgotten.unused d member]
  refine ⟨fun d' old => forgotten.unused d' (List.mem_of_mem_erase old), ?_, forgotten.unregistered,
    forgotten.idle⟩
  obtain ⟨b, live, start⟩ := forgotten.live
  exact ⟨b, kept.symm ▸ live, start⟩

/-- A forgotten block is not allocated again, and nobody can register it or take it out again. -/
theorem Buffers.Forgotten.step (forgotten : s.Forgotten addr) (stepped : BufferStep s e t) :
    t.Forgotten addr := by
  obtain ⟨unused, live, unregistered, idle⟩ := forgotten
  have others {i : Nat} {phase : Phase} (writes : phase.writes ≠ some addr)
      (reads : phase.reads ≠ some addr) :
      ¬ (s.enter i phase).Pending addr := by
    intro pending
    rcases pending_enter.mp pending with (own | own) | ⟨j, _, holds⟩
    · exact writes own
    · exact reads own
    · exact idle ⟨j, holds⟩
  have rest {i : Nat} : ¬ (s.enter i .idle).Pending addr :=
    others (by simp [Phase.writes]) (by simp [Phase.reads])
  cases stepped with
  | @alloc _ i slot ty b admitted ready fits =>
    obtain ⟨c, member, rfl⟩ := live
    refine ⟨unused, ⟨c, List.mem_cons_of_mem _ member, rfl⟩, unregistered,
      others (i := i) ?_ (by simp [Phase.reads])⟩
    exact fun same => (admitted.apart c member).start_ne (Option.some.inj same)
  | allocFailed ready => exact ⟨unused, live, unregistered, idle⟩
  | @register _ i slot addr' f writing =>
    have fresh : addr' ≠ addr := by
      rintro rfl
      exact idle ⟨i, .inl (by simp [writing, Phase.writes])⟩
    refine ⟨List.forall_mem_cons.mpr ⟨rfl, unused⟩, live, ?_, rest⟩
    rintro ⟨name, g, entry⟩
    by_cases same : name = slot
    · subst same
      obtain ⟨rfl, rfl⟩ : addr' = addr ∧ f = g := by simpa [Buffers.enter] using entry
      exact fresh rfl
    · exact unregistered ⟨name, g, (Function.update_of_ne same ..).symm.trans entry⟩
  | @access _ i slot ty ready =>
    refine ⟨unused, live, ?_, others (i := i) (by simp [Phase.writes]) ?_⟩
    · rintro ⟨name, g, entry⟩
      by_cases same : name = slot
      · subst same
        cases (Function.update_self ..).symm.trans entry
      · exact unregistered ⟨name, g, (Function.update_of_ne same ..).symm.trans entry⟩
    · intro reads
      obtain ⟨g, entry⟩ : ∃ g, s.register slot = some (addr, g) := by
        simpa [Phase.reads] using reads
      exact unregistered ⟨slot, g, entry⟩
  | empty checking => exact ⟨unused, live, unregistered, rest⟩
  | returned checking same =>
    exact ⟨List.forall_mem_cons.mpr ⟨rfl, unused⟩, live, unregistered, rest⟩
  | mismatch checking other => exact ⟨unused, live, unregistered, rest⟩
  | drop member => exact Buffers.Forgotten.drop ⟨unused, live, unregistered, idle⟩ member

/-- Nobody is handed a forgotten block. -/
theorem Buffers.Forgotten.handed (forgotten : s.Forgotten addr) (stepped : BufferStep s e t) :
    e.handed ≠ some addr := by
  cases stepped with
  | @returned _ f i slot ty addr' checking same =>
    intro own
    obtain rfl : addr' = addr := Option.some.inj own
    exact forgotten.idle ⟨i, .inr (by simp [checking, Phase.reads])⟩
  | _ => simp [BufferEvent.handed]

theorem Buffers.Forgotten.run (forgotten : s.Forgotten addr) (run : Run BufferStep s es t) :
    ∀ e ∈ es, e.handed ≠ some addr := by
  induction run with
  | nil => simp
  | cons first _ ih =>
    exact List.forall_mem_cons.mpr ⟨forgotten.handed first, ih (forgotten.step first)⟩

end Mismatch

/-- A mismatched access is never harmless: the caught panic leaves the slot empty, so that an
access with the type of the buffer gets nothing; and in a state that the service can be in,
nobody is handed the buffer in any run from then on. -/
theorem mismatched_access_loses (s : Buffers) (slot : String) (addr : Nat)
    (found fingerprint : UInt64) (registered : s.register slot = some (addr, found))
    (differs : found ≠ fingerprint) :
    ¬ Harmless s slot fingerprint ∧
    (∀ rest, ∃ after, rustMain (accessing slot fingerprint rest) s =
      (after, .error "catch user function panic.") ∧
      (∀ i ty, s.phases i = .idle → ty.fingerprint = fingerprint →
        Run BufferStep s [.access i slot ty, .mismatch i] after) ∧
      (after.fromBufferSlot slot found).2 = .ok none ∧
      ∀ start size past, Run BufferStep (.empty start size) past s →
        ∀ es t, Run BufferStep after es t → ∀ e ∈ es, e.handed ≠ some addr) := by
  have lost := fromBufferSlot_mismatch registered differs
  refine ⟨fun harmless => ?_,
    fun rest => ⟨{ s with register := Function.update s.register slot none }, ?_,
    fun i ty ready same => mismatch_run ready registered (same ▸ differs),
      fromBufferSlot_empty (by simp) found, ?_⟩⟩
  · have same := congrFun harmless.2 slot
    simp [lost, registered] at same
  · simp only [rustMain, accessing, lost]
  · intro start size past reached es t run
    have held : Held past s := by simpa using reached.history Held.step (Held.initial start size)
    exact (forgotten_of_mismatch held registered).run run

theorem eight_pos : 0 < 8 := by decide

def sorted : Ty := ⟨8, 7, eight_pos⟩
def counted : Ty := ⟨8, 9, eight_pos⟩

theorem eight_admitted : (Blocks.Pool.fresh 0 64).Admits ⟨0, 8, eight_pos⟩ :=
  Blocks.Pool.fresh_admits (by decide)

/-- A thread has registered a buffer of type `sorted` under "conn". -/
def Buffers.published : Buffers where
  allocator := (Blocks.Pool.fresh 0 64).give ⟨0, 8, eight_pos⟩ eight_admitted
  register := Function.update (fun _ => none) "conn" (some (0, 7))
  buffers := [⟨0, false⟩]
  phases := fun _ => .idle

theorem published_run : Run BufferStep (.empty 0 64)
    [.alloc 0 "conn" sorted ⟨0, 8, eight_pos⟩, .register 0 "conn" 0 7] .published := by
  refine .cons (.alloc eight_admitted rfl (by decide)) ?_
  have idle : (fun _ : Nat => Phase.idle) =
      Function.update (Function.update (fun _ => Phase.idle) 0 (.registering "conn" 0 7)) 0
        .idle := by
    rw [Function.update_idem]
    exact (Function.update_eq_self 0 _).symm
  rw [Buffers.published, idle]
  exact .cons (.register (enter_self ..)) (.nil _)

theorem mismatched_access_loses_published : ¬ Harmless .published "conn" counted.fingerprint :=
  (mismatched_access_loses .published "conn" 0 7 counted.fingerprint rfl (by decide)).1

/-- The buffer that was published at one type is gone after an access with another type. -/
theorem published_lost :
    ∃ es, Run BufferStep (.empty 0 64) es .published ∧
    Buffers.published.register "conn" = some (0, sorted.fingerprint) ∧
      sorted.fingerprint ≠ counted.fingerprint ∧
    ¬ Harmless .published "conn" counted.fingerprint ∧
    ((Buffers.published.fromBufferSlot "conn" counted.fingerprint).1.fromBufferSlot "conn"
      sorted.fingerprint).2 =
      .ok none := by
  refine ⟨_, published_run, rfl, by decide, fun harmless => ?_, rfl⟩
  have same := congrFun harmless.2 "conn"
  cases same

end AlloyStack.Mm
