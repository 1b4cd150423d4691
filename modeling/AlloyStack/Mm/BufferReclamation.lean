import AlloyStack.Mm.FaasBuffer

/-! Reclamation of data buffers. `Drop` deallocates only buffers marked as used and no constructor
marks one, so a block lives on after the last reference to it is gone. -/
namespace AlloyStack.Mm
open Transition Blocks Ownership

def Buffers.Live (s : Buffers) (addr : Nat) : Prop := ∃ b ∈ s.allocator.live, b.start = addr

def Buffers.Registered (s : Buffers) (addr : Nat) : Prop :=
  ∃ slot f, s.register slot = some (addr, f)

def Buffers.Owned (s : Buffers) (addr : Nat) : Prop := ∃ d ∈ s.buffers, d.ptr = addr

/-- A call in progress holds the address. -/
def Buffers.Pending (s : Buffers) (addr : Nat) : Prop :=
  ∃ i, (s.phases i).writes = some addr ∨ (s.phases i).reads = some addr

def Buffers.Referenced (s : Buffers) (addr : Nat) : Prop :=
  s.Registered addr ∨ s.Owned addr ∨ s.Pending addr

/-- The live blocks are the registered ones and those of living `DataBuffer`s. -/
def Buffers.Reclaimed (s : Buffers) : Prop := ∀ addr, s.Live addr ↔ s.Registered addr ∨ s.Owned addr

/-- The guard: no step gives up the last reference to a block. A `DataBuffer` is dropped while
its block is registered, in a call in progress or in another `DataBuffer`; an entry is replaced,
or refused for its type, while a `DataBuffer` has its block. -/
def Retains (s : Buffers) (e : BufferEvent) (_ : Buffers) : Prop :=
  match e with
  | .drop d => s.Registered d.ptr ∨ (∃ d' ∈ s.buffers.erase d, d'.ptr = d.ptr) ∨ s.Pending d.ptr
  | .register _ slot _ _ => ∀ old f, s.register slot = some (old, f) → s.Owned old
  | .mismatch i => ∀ addr, (s.phases i).reads = some addr → s.Owned addr
  | _ => True

/-- References are to live blocks, and nobody deallocates. -/
structure Buffers.Backed (s : Buffers) : Prop where
  held : ∃ es, Held es s
  owned : ∀ d ∈ s.buffers, s.Live d.ptr

/-- Every live block is referenced. -/
def Buffers.Accounted (s : Buffers) : Prop := ∀ addr, s.Live addr → s.Referenced addr

/-- A block that nobody can deallocate any more. -/
def Buffers.Lost (s : Buffers) (addr : Nat) : Prop := s.Live addr ∧ ¬ s.Referenced addr

section Steps
variable {s t : Buffers}

theorem Buffers.Backed.live (backed : s.Backed) (referenced : s.Referenced addr) : s.Live addr := by
  obtain ⟨es, held⟩ := backed.held
  rcases referenced with ⟨slot, f, found⟩ | ⟨d, member, rfl⟩ | ⟨i, writes | reads⟩
  · exact held.allocated (.slot slot) addr (by simp [holds, found])
  · exact backed.owned d member
  · exact held.allocated (.writer i) addr (by simp [holds, writes])
  · exact held.allocated (.reader i) addr (by simp [holds, reads])

theorem drop_allocator (backed : s.Backed) (member : d ∈ s.buffers) :
    (s.drop d).allocator = s.allocator := by
  obtain ⟨es, held⟩ := backed.held
  simp [Buffers.drop, held.unused d member]

/-- No step of the code deallocates a block. -/
theorem live_step (backed : s.Backed) (stepped : BufferStep s e t) (live : s.Live addr) :
    t.Live addr := by
  obtain ⟨b, member, rfl⟩ := live
  cases stepped with
  | alloc admitted idle fits => exact ⟨b, List.mem_cons_of_mem _ member, rfl⟩
  | drop dropped => exact ⟨b, (drop_allocator backed dropped).symm ▸ member, rfl⟩
  | _ => exact ⟨b, member, rfl⟩

theorem backed_step (backed : s.Backed) (stepped : BufferStep s e t) : t.Backed := by
  have live (addr : Nat) : s.Live addr → t.Live addr := live_step backed stepped
  refine ⟨backed.held.elim fun es held => ⟨_, held.step stepped⟩, fun d member => ?_⟩
  cases stepped with
  | @register _ i _ addr f writing =>
    rcases List.mem_cons.mp member with rfl | member
    · exact live _ (backed.live (.inr (.inr ⟨i, .inl (by simp [writing, Phase.writes])⟩)))
    · exact live _ (backed.owned d member)
  | @returned _ f i _ _ addr checking same =>
    rcases List.mem_cons.mp member with rfl | member
    · exact live _ (backed.live (.inr (.inr ⟨i, .inr (by simp [checking, Phase.reads])⟩)))
    · exact live _ (backed.owned d member)
  | drop dropped => exact live _ (backed.owned d (List.mem_of_mem_erase member))
  | _ => exact live _ (backed.owned d member)

/-- What the threads hold after one of them has changed its phase. -/
theorem pending_enter :
    (s.enter i phase).Pending addr ↔ (phase.writes = some addr ∨ phase.reads = some addr) ∨
    ∃ j, j ≠ i ∧ ((s.phases j).writes = some addr ∨ (s.phases j).reads = some addr) := by
  constructor
  · rintro ⟨j, holds⟩
    by_cases same : j = i
    · subst same
      exact .inl (by rwa [enter_self] at holds)
    · exact .inr ⟨j, same, by rwa [enter_of_ne s phase same] at holds⟩
  · rintro (holds | ⟨j, other, holds⟩)
    · exact ⟨i, by rwa [enter_self]⟩
    · exact ⟨j, by rwa [enter_of_ne s phase other]⟩

/-- A thread that has become idle holds nothing. -/
theorem pending_idle (pending : (s.enter i .idle).Pending addr) :
    ∃ j, j ≠ i ∧ ((s.phases j).writes = some addr ∨ (s.phases j).reads = some addr) :=
  (pending_enter.mp pending).resolve_left (by simp [Phase.writes, Phase.reads])

theorem Buffers.Pending.cases (pending : s.Pending addr) (i : Nat) :
    ((s.phases i).writes = some addr ∨ (s.phases i).reads = some addr) ∨
      ∃ j, j ≠ i ∧ ((s.phases j).writes = some addr ∨ (s.phases j).reads = some addr) := by
  obtain ⟨j, holds⟩ := pending
  by_cases same : j = i
  · exact .inl (same ▸ holds)
  · exact .inr ⟨j, same, holds⟩

/-- A thread that holds nothing gives nothing up with its phase. -/
theorem Buffers.Pending.enter (pending : s.Pending addr)
    (free : ¬ ((s.phases i).writes = some addr ∨ (s.phases i).reads = some addr)) (phase : Phase) :
    (s.enter i phase).Pending addr :=
  pending_enter.mpr (.inr ((pending.cases i).resolve_left free))

/-- The address whose last reference a step may give up. -/
def Buffers.Risks (s : Buffers) (e : BufferEvent) (addr : Nat) : Prop :=
  match e with
  | .drop d => d.ptr = addr
  | .register _ slot _ _ => ∃ f, s.register slot = some (addr, f)
  | .mismatch i => (s.phases i).reads = some addr
  | _ => False

theorem referenced_step (stepped : BufferStep s e t) (referenced : s.Referenced addr) :
    t.Referenced addr ∨ s.Risks e addr := by
  cases stepped with
  | alloc admitted idle fits =>
    refine .inl (referenced.imp_right (Or.imp_right fun pending => ?_))
    exact pending.enter (by simp [idle, Phase.writes, Phase.reads]) _
  | allocFailed idle => exact .inl referenced
  | @register _ i slot addr' f writing =>
    rcases referenced with ⟨name, g, found⟩ | ⟨d, member, rfl⟩ | pending
    · by_cases same : name = slot
      · subst same
        exact .inr ⟨g, found⟩
      · exact .inl (.inl ⟨name, g, (Function.update_of_ne same ..).trans found⟩)
    · exact .inl (.inr (.inl ⟨d, List.mem_cons_of_mem _ member, rfl⟩))
    · rcases pending.cases i with own | other
      · obtain rfl : addr' = addr := by simpa [writing, Phase.writes, Phase.reads] using own
        exact .inl (.inl ⟨slot, f, Function.update_self ..⟩)
      · exact .inl (.inr (.inr (pending_enter.mpr (.inr other))))
  | @access _ i slot ty idle =>
    refine .inl ?_
    rcases referenced with ⟨name, g, found⟩ | owned | pending
    · by_cases same : name = slot
      · subst same
        exact .inr (.inr (pending_enter.mpr (.inl (.inr (by simp [Phase.reads, found])))))
      · exact .inl ⟨name, g, (Function.update_of_ne same ..).trans found⟩
    · exact .inr (.inl owned)
    · exact .inr (.inr (pending.enter (by simp [idle, Phase.writes, Phase.reads]) _))
  | empty checking =>
    refine .inl (referenced.imp_right (Or.imp_right fun pending => ?_))
    exact pending.enter (by simp [checking, Phase.writes, Phase.reads]) _
  | @returned _ f i slot ty addr' checking same =>
    refine .inl ?_
    rcases referenced with registered | ⟨d, member, rfl⟩ | pending
    · exact .inl registered
    · exact .inr (.inl ⟨d, List.mem_cons_of_mem _ member, rfl⟩)
    · rcases pending.cases i with own | other
      · obtain rfl : addr' = addr := by simpa [checking, Phase.writes, Phase.reads] using own
        exact .inr (.inl ⟨⟨addr', false⟩, List.mem_cons_self .., rfl⟩)
      · exact .inr (.inr (pending_enter.mpr (.inr other)))
  | @mismatch _ f i slot ty addr' checking other =>
    rcases referenced with registered | owned | pending
    · exact .inl (.inl registered)
    · exact .inl (.inr (.inl owned))
    · rcases pending.cases i with own | others
      · exact .inr (own.resolve_left (by simp [checking, Phase.writes]))
      · exact .inl (.inr (.inr (pending_enter.mpr (.inr others))))
  | @drop d _ member =>
    rcases referenced with registered | ⟨d', member', rfl⟩ | pending
    · exact .inl (.inl registered)
    · by_cases same : d' = d
      · exact .inr (same ▸ rfl)
      · exact .inl (.inr (.inl ⟨d', (List.mem_erase_of_ne same).mpr member', rfl⟩))
    · exact .inl (.inr (.inr pending))

theorem risk_referenced (stepped : BufferStep s e t) (risks : s.Risks e addr) :
    s.Referenced addr := by
  cases stepped with
  | register writing => exact .inl ⟨_, risks⟩
  | mismatch checking other => exact .inr (.inr ⟨_, .inr risks⟩)
  | drop member => exact .inr (.inl ⟨_, member, risks⟩)
  | _ => nomatch risks

/-- Nobody gets a reference to a live block that nobody has. -/
theorem referenced_back (stepped : BufferStep s e t) (live : s.Live addr)
    (referenced : t.Referenced addr) :
    s.Referenced addr := by
  cases stepped with
  | alloc admitted idle fits =>
    refine referenced.imp_right (Or.imp_right fun pending => ?_)
    rcases pending_enter.mp pending with own | ⟨j, _, holds⟩
    · obtain ⟨c, member, rfl⟩ := live
      exact absurd (by simpa [Phase.writes, Phase.reads] using own)
        (admitted.apart c member).start_ne
    · exact ⟨j, holds⟩
  | allocFailed idle => exact referenced
  | @register _ i slot addr' f writing =>
    have own : s.Pending addr' := ⟨i, .inl (by simp [writing, Phase.writes])⟩
    rcases referenced with ⟨name, g, found⟩ | ⟨d, member, rfl⟩ | pending
    · by_cases same : name = slot
      · subst same
        obtain ⟨rfl, rfl⟩ : addr' = addr ∧ f = g := by simpa [Buffers.enter] using found
        exact .inr (.inr own)
      · exact .inl ⟨name, g, (Function.update_of_ne same ..).symm.trans found⟩
    · rcases List.mem_cons.mp member with rfl | member
      · exact .inr (.inr own)
      · exact .inr (.inl ⟨d, member, rfl⟩)
    · obtain ⟨j, _, holds⟩ := pending_idle pending
      exact .inr (.inr ⟨j, holds⟩)
  | @access _ i slot ty idle =>
    rcases referenced with ⟨name, g, found⟩ | owned | pending
    · by_cases same : name = slot
      · subst same
        cases (Function.update_self ..).symm.trans found
      · exact .inl ⟨name, g, (Function.update_of_ne same ..).symm.trans found⟩
    · exact .inr (.inl owned)
    · rcases pending_enter.mp pending with own | ⟨j, _, holds⟩
      · obtain ⟨g, found⟩ : ∃ g, s.register slot = some (addr, g) := by
          simpa [Phase.writes, Phase.reads] using own
        exact .inl ⟨slot, g, found⟩
      · exact .inr (.inr ⟨j, holds⟩)
  | @returned _ f i slot ty addr' checking same =>
    have own : s.Pending addr' := ⟨i, .inr (by simp [checking, Phase.reads])⟩
    rcases referenced with registered | ⟨d, member, rfl⟩ | pending
    · exact .inl registered
    · rcases List.mem_cons.mp member with rfl | member
      · exact .inr (.inr own)
      · exact .inr (.inl ⟨d, member, rfl⟩)
    · obtain ⟨j, _, holds⟩ := pending_idle pending
      exact .inr (.inr ⟨j, holds⟩)
  | drop member =>
    refine referenced.imp_right (Or.imp_left ?_)
    rintro ⟨d, kept, rfl⟩
    exact ⟨d, List.mem_of_mem_erase kept, rfl⟩
  | empty checking | mismatch checking _ =>
    refine referenced.imp_right (Or.imp_right fun pending => ?_)
    obtain ⟨j, _, holds⟩ := pending_idle pending
    exact ⟨j, holds⟩

/-- The guard, said of the references: what a step puts at risk stays referenced. A slot and a
thread are the only holders of their address, so only a `DataBuffer` can have it too. -/
theorem retains_iff {es : List BufferEvent} (held : Held es s) (stepped : BufferStep s e t) :
    Retains s e t ↔ ∀ addr, s.Risks e addr → t.Referenced addr := by
  cases stepped with
  | @register _ i slot addr' f writing =>
    have writer : holds es s (.writer i) = some addr' := by simp [holds, writing, Phase.writes]
    constructor
    · rintro kept addr ⟨g, found⟩
      obtain ⟨d, member, same⟩ := kept addr g found
      exact .inr (.inl ⟨d, List.mem_cons_of_mem _ member, same⟩)
    · intro kept addr g found
      have slotted : holds es s (.slot slot) = some addr := by simp [holds, found]
      have fresh : addr' ≠ addr := by
        rintro rfl
        cases held.sole _ _ _ writer slotted
      rcases kept addr ⟨g, found⟩ with ⟨name, h, there⟩ | ⟨d, member, rfl⟩ | pending
      · by_cases same : name = slot
        · subst same
          simp [Buffers.enter, fresh] at there
        · have other : s.register name = some (addr, h) :=
            (Function.update_of_ne same ..).symm.trans there
          have equal := held.sole (.slot name) (.slot slot) addr (by simp [holds, other]) slotted
          exact absurd (Holder.slot.inj equal) same
      · rcases List.mem_cons.mp member with rfl | member
        · exact absurd rfl fresh
        · exact ⟨d, member, rfl⟩
      · obtain ⟨j, _, writes | reads⟩ := pending_idle pending
        · cases held.sole (.writer j) (.slot slot) addr
            (by simp [holds, show (s.phases j).writes = _ from writes]) slotted
        · cases held.sole (.reader j) (.slot slot) addr
            (by simp [holds, show (s.phases j).reads = _ from reads]) slotted
  | @mismatch _ f i slot ty addr' checking other =>
    constructor
    · intro kept addr risks
      exact .inr (.inl (kept addr risks))
    · intro kept addr risks
      have reader : holds es s (.reader i) = some addr := risks
      rcases kept addr risks with ⟨name, h, there⟩ | owned | pending
      · cases held.sole (.slot name) (.reader i) addr
          (by simp [holds, show s.register name = _ from there]) reader
      · exact owned
      · obtain ⟨j, apart, writes | reads⟩ := pending_idle pending
        · cases held.sole (.writer j) (.reader i) addr (by simp [holds, writes]) reader
        · have equal := held.sole (.reader j) (.reader i) addr (by simp [holds, reads]) reader
          exact absurd (Holder.reader.inj equal) apart
  | drop member =>
    constructor
    · rintro kept addr rfl
      exact kept
    · exact fun kept => kept _ rfl
  | _ => exact iff_of_true trivial fun _ risks => False.elim risks

theorem live_back (stepped : BufferStep s e t) (backed : s.Backed) (live : t.Live addr) :
    s.Live addr ∨ t.Referenced addr := by
  obtain ⟨b, member, rfl⟩ := live
  cases stepped with
  | alloc admitted idle fits =>
    rcases List.mem_cons.mp member with rfl | member
    · exact .inr (.inr (.inr (pending_enter.mpr (.inl (.inl rfl)))))
    · exact .inl ⟨b, member, rfl⟩
  | drop dropped => exact .inl ⟨b, drop_allocator backed dropped ▸ member, rfl⟩
  | _ => exact .inl ⟨b, member, rfl⟩

theorem accounted_step (backed : s.Backed) (accounted : s.Accounted) (stepped : BufferStep s e t)
    (retained : Retains s e t) : t.Accounted := by
  obtain ⟨es, held⟩ := backed.held
  have kept := (retains_iff held stepped).mp retained
  intro addr live
  rcases live_back stepped backed live with old | new
  · exact (referenced_step stepped (accounted addr old)).elim id (kept addr)
  · exact new

theorem lost_step (backed : s.Backed) (stepped : BufferStep s e t) (lost : s.Lost addr) :
    t.Lost addr :=
  ⟨live_step backed stepped lost.1,
    fun referenced => lost.2 (referenced_back stepped lost.1 referenced)⟩

theorem unretained_lost (backed : s.Backed) (stepped : BufferStep s e t) (given : ¬ Retains s e t) :
    ∃ addr, t.Lost addr := by
  obtain ⟨es, held⟩ := backed.held
  simp only [retains_iff held stepped, not_forall] at given
  obtain ⟨addr, risks, unreferenced⟩ := given
  have live := backed.live (risk_referenced stepped risks)
  exact ⟨addr, live_step backed stepped live, unreferenced⟩

/-- A lost block stays lost, so a run that ends with every live block referenced gave none up. -/
theorem run_retains (run : Run BufferStep s es t) (backed : s.Backed) (after : t.Accounted) :
    Run (Where BufferStep Retains) s es t := by
  refine run.where_of_lasting (P := Buffers.Backed) (Q := fun s => ∃ addr, s.Lost addr)
    backed_step unretained_lost (fun held lost stepped => ?_) backed ?_
  · obtain ⟨addr, lost⟩ := lost
    exact ⟨addr, lost_step held stepped lost⟩
  · rintro ⟨addr, lost⟩
    exact lost.2 (after addr lost.1)

theorem retains_run (run : Run (Where BufferStep Retains) s es t) (backed : s.Backed)
    (accounted : s.Accounted) :
    t.Accounted := by
  have held :=
    run.stable (P := fun s => s.Backed ∧ s.Accounted) (fun held stepped => ?_) ⟨backed, accounted⟩
  · exact held.2
  · exact ⟨backed_step held.1 stepped.1, accounted_step held.1 held.2 stepped.1 stepped.2⟩

theorem backed_run (run : Run BufferStep s es t) (backed : s.Backed) : t.Backed :=
  run.stable backed_step backed

/-- When no call is in progress, only the register and the `DataBuffer`s refer to blocks. -/
theorem reclaimed_iff_accounted (backed : s.Backed) (idle : ∀ i, s.phases i = .idle) :
    s.Reclaimed ↔ s.Accounted := by
  have quiet (addr : Nat) : ¬ s.Pending addr := by
    rintro ⟨i, holds⟩
    simp [idle i, Phase.writes, Phase.reads] at holds
  constructor
  · intro reclaimed addr live
    exact ((reclaimed addr).mp live).imp_right .inl
  · refine fun accounted addr =>
      ⟨fun live => ?_, fun referenced => backed.live (referenced.imp_right .inl)⟩
    exact (accounted addr live).imp_right fun rest => rest.resolve_right (quiet addr)

end Steps

theorem backed_initial (start size : Nat) : (Buffers.empty start size).Backed :=
  ⟨⟨[], .initial start size⟩, nofun⟩

theorem accounted_initial (start size : Nat) : (Buffers.empty start size).Accounted := by
  rintro addr ⟨b, member, _⟩
  nomatch member

/-- Whenever no call is in progress, the live blocks are the registered ones and those of living
`DataBuffer`s if and only if no step so far gave up the last reference to a block. -/
theorem buffers_reclaimed_iff (start size : Nat) (es : List BufferEvent) (t : Buffers)
    (run : Run BufferStep (.empty start size) es t) (idle : ∀ i, t.phases i = .idle) :
    t.Reclaimed ↔ Run (Where BufferStep Retains) (.empty start size) es t := by
  have backed := backed_initial start size
  have accounted := accounted_initial start size
  rw [reclaimed_iff_accounted (backed_run run backed) idle]
  exact ⟨run_retains run backed, fun retained => retains_run retained backed accounted⟩

theorem produced_reclaimed :
    ∃ t, Run BufferStep (.empty 4096 65536) handover t ∧ t.Reclaimed := by
  have admitted : (Buffers.empty 4096 65536).allocator.Admits ⟨4096, 64, by decide⟩ :=
    Pool.fresh_admits (by decide)
  have run : Run BufferStep (.empty 4096 65536) handover _ :=
    .cons (.alloc admitted rfl le_rfl)
      (.cons (.register rfl) (.cons (.access rfl) (.cons (.returned rfl rfl) (.nil _))))
  refine ⟨_, run, (buffers_reclaimed_iff 4096 65536 _ _ run fun i => ?_).mpr ?_⟩
  · by_cases first : i = 1 <;> by_cases second : i = 2 <;>
      simp [Buffers.enter, Buffers.empty, first, second]
  · exact .cons ⟨.alloc admitted rfl le_rfl, trivial⟩ (.cons ⟨.register rfl, nofun⟩
      (.cons ⟨.access rfl, trivial⟩ (.cons ⟨.returned rfl rfl, trivial⟩ (.nil _))))

/-- The producer drops its buffer, the consumer takes it and drops it, and the block is still
live. -/
theorem consumed_not_reclaimed : ¬ ∀ start size es t, Run BufferStep (.empty start size) es t →
    (∀ i, t.phases i = .idle) → t.Reclaimed := by
  intro all
  have admitted : (Buffers.empty 4096 65536).allocator.Admits ⟨4096, 64, by decide⟩ :=
    Pool.fresh_admits (by decide)
  have run : Run BufferStep (.empty 4096 65536)
      [.alloc 1 "out" wordCount ⟨4096, 64, by decide⟩, .register 1 "out" 4096 7,
      .drop ⟨4096, false⟩, .access 2 "out" wordCount, .returned 2 "out" wordCount (some 4096),
        .drop ⟨4096, false⟩] _ :=
    .cons (.alloc admitted rfl le_rfl)
      (.cons (.register rfl) (.cons (.drop (List.mem_cons_self ..)) (.cons (.access rfl)
      (.cons (.returned rfl rfl) (.cons (.drop (List.mem_cons_self ..)) (.nil _))))))
  have reclaimed := all 4096 65536 _ _ run fun i => ?_
  · rcases (reclaimed 4096).mp
      ⟨⟨4096, 64, by decide⟩, List.mem_cons_self .., rfl⟩ with ⟨slot, f, found⟩ | ⟨d, member, _⟩
    · by_cases same : slot =
          "out" <;> simp [Buffers.enter, Buffers.drop, Buffers.empty, same] at found
    · cases member
  · by_cases first : i = 1 <;> by_cases second : i = 2 <;>
      simp [Buffers.enter, Buffers.drop, Buffers.empty, first, second]

end AlloyStack.Mm
