import AlloyStack.Mm.FaasBuffer

/-! When a data buffer is published. `with_slot` registers the buffer before its caller has
written to it, so a consumer can get it while the producing `DataBuffer` is still alive. -/
namespace AlloyStack.Mm
open Transition Blocks Ownership

/-- Before an address is handed to a consumer, only the `DataBuffer` of its producer has it. -/
def Buffers.Producing (s : Buffers) (addr : Nat) : Prop := ∃ d ∈ s.buffers, d.ptr = addr

/-- A buffer that `from_buffer_slot` returns has no living producer. -/
def Finished (s : Buffers) (e : BufferEvent) (_ : Buffers) : Prop :=
  ∀ i slot ty addr, e = .returned i slot ty (some addr) → ¬ s.Producing addr

/-- The guard: a slot is accessed with the type of its entry only after the producer of the entry
has dropped its `DataBuffer`. -/
def AfterDrop (s : Buffers) (e : BufferEvent) (_ : Buffers) : Prop :=
  ∀ i slot ty addr, e = .access i slot ty → s.register slot = some (addr, ty.fingerprint) →
    ¬ s.Producing addr

/-- What a consumer is about to return has no living producer. -/
structure Buffers.Settled (s : Buffers) : Prop where
  held : ∃ es, Held es s
  checked : ∀ i slot ty addr, s.phases i = .checking slot ty (some (addr, ty.fingerprint)) →
    ¬ s.Producing addr

section Steps
variable {s t : Buffers}

/-- An address that a thread is about to register or to return is not that of another thread. -/
theorem reader_ne {es : List BufferEvent} (held : Held es s)
    (checking : s.phases j = .checking slot ty (some (addr, f)))
    (owns : holds es s o = some addr') (other : o ≠ .reader j) : addr' ≠ addr := by
  rintro rfl
  exact other (held.sole o (.reader j) addr' owns (by simp [holds, checking, Phase.reads]))

theorem checking_of_enter (ends : phase.reads = none)
    (checking : (s.enter i phase).phases j = .checking slot ty (some found)) :
    j ≠ i ∧ s.phases j = .checking slot ty (some found) := by
  by_cases same : j = i
  · subst same
    rw [enter_self] at checking
    subst checking
    nomatch ends
  · rw [enter_of_ne s phase same] at checking
    exact ⟨same, checking⟩

theorem settled_step (settled : s.Settled) (stepped : BufferStep s e t) (after : AfterDrop s e t) :
    t.Settled := by
  obtain ⟨⟨es, held⟩, checked⟩ := settled
  refine ⟨⟨es ++ [e], held.step stepped⟩, fun j slot ty addr checking => ?_⟩
  cases stepped with
  | alloc admitted idle fits =>
    obtain ⟨_, old⟩ := checking_of_enter rfl checking
    exact checked j slot ty addr old
  | allocFailed idle => exact checked j slot ty addr checking
  | @register _ i _ addr' f writing =>
    obtain ⟨other, old⟩ := checking_of_enter rfl checking
    rintro ⟨d, member, rfl⟩
    rcases List.mem_cons.mp member with rfl | member
    · have owns : holds es s (.writer i) = some addr' := by simp [holds, writing, Phase.writes]
      exact reader_ne held old owns (by simp) rfl
    · exact checked j slot ty _ old ⟨d, member, rfl⟩
  | @access _ i slot' ty' idle =>
    by_cases same : j = i
    · subst same
      obtain ⟨rfl, rfl, found⟩ := Phase.checking.inj ((enter_self ..).symm.trans checking)
      exact after j slot' ty' addr rfl found
    · rw [enter_of_ne _ _ same] at checking
      exact checked j slot ty addr checking
  | empty _ =>
    obtain ⟨_, old⟩ := checking_of_enter rfl checking
    exact checked j slot ty addr old
  | @returned _ _ i _ _ addr' reading same =>
    obtain ⟨other, old⟩ := checking_of_enter rfl checking
    rintro ⟨d, member, rfl⟩
    rcases List.mem_cons.mp member with rfl | member
    · have owns : holds es s (.reader i) = some addr' := by simp [holds, reading, Phase.reads]
      exact reader_ne held old owns (by simpa using Ne.symm other) rfl
    · exact checked j slot ty _ old ⟨d, member, rfl⟩
  | mismatch _ _ =>
    obtain ⟨_, old⟩ := checking_of_enter rfl checking
    exact checked j slot ty addr old
  | drop member =>
    rintro ⟨d, kept, rfl⟩
    exact checked j slot ty _ checking ⟨d, List.mem_of_mem_erase kept, rfl⟩

theorem settled_finished (settled : s.Settled) (stepped : BufferStep s e t) : Finished s e t := by
  rintro i slot ty addr rfl
  cases stepped with
  | returned checking same => exact settled.checked i slot ty addr (same ▸ checking)

end Steps

/-- If every access comes after the drop of the producer, no consumer ever gets a buffer whose
producer is alive; an access that comes too early can be followed by the return of its buffer. -/
theorem buffers_published_when (start size : Nat) :
    (∀ es t, Run (Where BufferStep AfterDrop) (.empty start size) es t →
      Run (Where BufferStep Finished) (.empty start size) es t) ∧
    ∀ s e t, BufferStep s e t → ¬ AfterDrop s e t → ∃ e' u, BufferStep t e' u ∧
      ¬ Finished t e' u := by
  constructor
  · intro es t run
    refine run.where_of (P := Buffers.Settled) settled_step
      (fun settled stepped _ => settled_finished settled stepped) ?_
    exact ⟨⟨[], .initial start size⟩, nofun⟩
  · intro s e t stepped early
    simp only [AfterDrop, not_forall, not_not] at early
    obtain ⟨i, slot, ty, addr, rfl, found, alive⟩ := early
    cases stepped with
    | access idle =>
      refine ⟨_, _, .returned (i := i) ((enter_self ..).trans (congrArg _ found)) rfl,
        fun finished => ?_⟩
      exact finished i slot ty addr rfl alive

/-- A consumer accesses the slot while the producer still holds its `DataBuffer`. -/
theorem buffer_seen_early : ¬ ∀ start size es s e t, Run BufferStep (.empty start size) es s →
    BufferStep s e t → Finished s e t := by
  intro all
  have admitted : (Buffers.empty 4096 65536).allocator.Admits ⟨4096, 64, by decide⟩ :=
    Pool.fresh_admits (by decide)
  have run : Run BufferStep (.empty 4096 65536) (handover.take 3) _ :=
    .cons (.alloc admitted rfl le_rfl) (.cons (.register rfl) (.cons (.access rfl) (.nil _)))
  have finished := all 4096 65536 _ _ _ _ run (.returned (i := 2) rfl rfl)
  exact finished 2 "out" wordCount 4096 rfl ⟨⟨4096, false⟩, List.mem_cons_self .., rfl⟩

end AlloyStack.Mm
