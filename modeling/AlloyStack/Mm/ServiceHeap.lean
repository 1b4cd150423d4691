import AlloyStack.Library.Blocks
import AlloyStack.Library.Rust
import AlloyStack.Library.Transition

/-! The heap of the mm service. The visor hands the service its lower half as heap range, but
the service initialises its global heap with the size of the whole and places the buffer heap
behind the range. -/
namespace AlloyStack.Mm
open Rust Transition Blocks

def SERVICE_HEAP_SIZE : Nat := 4 * 1024 * 1024 * 1024

/-- The memory that the visor allocates for a service. -/
structure ServiceHeap where
  base : Nat
  fits : base + SERVICE_HEAP_SIZE ≤ word

structure IsolationContext where
  isolId : Nat
  findHandler : Nat
  panicHandler : Nat
  heapRange : Nat × Nat

def IsolationContext.uninit : IsolationContext := ⟨0, 0, 0, (0, 0)⟩

/-- The statics of the service: `ISOLATION_CTX`, `HEAP_ALLOCATOR`, and `BUFFER_ALLOCATOR`, which
is `none` until its first use. -/
structure Statics where
  ctx : IsolationContext
  heap : Pool
  buffer : Option Pool

def Statics.uninit : Statics := ⟨.uninit, .fresh 0 0, none⟩

def initHeap (heapStart : Nat) (s : Statics) : Statics :=
  { s with heap := .fresh heapStart SERVICE_HEAP_SIZE }

def setHandlerAddr (ctx : IsolationContext) (s : Statics) : Outcome Statics :=
  if s.ctx.findHandler ≠ 0 ∧ s.ctx.findHandler ≠ ctx.findHandler then .panic
  else .ok (initHeap ctx.heapRange.1 { s with ctx })

def getHandlerAddr (s : Statics) : Outcome Nat :=
  if s.ctx.findHandler = 0 then .panic else .ok s.ctx.findHandler

/-- Addresses of the visor's own functions, and the isolation's id. -/
structure Visor where
  isolId : Nat
  findHostCall : Nat
  panicHandler : Nat
  callable : findHostCall ≠ 0

/-- `WithLibOSService::init` of a service that takes a context. -/
def init (v : Visor) (name : String) (heap : ServiceHeap) (s : Statics) : Outcome Statics :=
  let heapSize := if name = "mm" then SERVICE_HEAP_SIZE / 2 else SERVICE_HEAP_SIZE
  let heapRange := (heap.base, (heap.base + heapSize) % word)
  (setHandlerAddr ⟨v.isolId, v.findHostCall, v.panicHandler, heapRange⟩ s).bind fun s =>
    (getHandlerAddr s).bind fun found =>
      if found = v.findHostCall then .ok s else .err "check isol ctx failed."

/-- `BUFFER_ALLOCATOR`, created on first use. -/
def Statics.bufferAllocator (s : Statics) : Pool :=
  s.buffer.getD (.fresh s.ctx.heapRange.2 (SERVICE_HEAP_SIZE / 2))

inductive MemEvent where
  | heapAlloc (b : Block)
  | heapDealloc (b : Block)
  | bufferAlloc (b : Block)
  | bufferDealloc (b : Block)

/-- Allocations, with the block that the allocator chose, and deallocations of live blocks. -/
inductive MemStep : Statics → MemEvent → Statics → Prop where
  | heapAlloc (admitted : s.heap.Admits b) :
      MemStep s (.heapAlloc b) { s with heap := s.heap.give b admitted }
  | heapDealloc : b ∈ s.heap.live → MemStep s (.heapDealloc b) { s with heap := s.heap.release b }
  | bufferAlloc (admitted : s.bufferAllocator.Admits b) :
      MemStep s (.bufferAlloc b) { s with buffer := some (s.bufferAllocator.give b admitted) }
  | bufferDealloc : b ∈ s.bufferAllocator.live →
      MemStep s (.bufferDealloc b) { s with buffer := some (s.bufferAllocator.release b) }

def Statics.live (s : Statics) : List Block := s.heap.live ++ s.bufferAllocator.live

/-- No two live blocks overlap. -/
def Statics.Apart (s : Statics) : Prop := s.live.Pairwise Block.Apart

/-- Every live block lies in the heap of the service. -/
def Statics.Within (s : Statics) (heap : ServiceHeap) : Prop :=
  ∀ b ∈ s.live, heap.base ≤ b.start ∧ b.stop ≤ heap.base + SERVICE_HEAP_SIZE

/-- The end of the heap range that the visor passes to the service. -/
def ServiceHeap.middle (heap : ServiceHeap) : Nat := heap.base + SERVICE_HEAP_SIZE / 2

/-- The guard: the global heap stays in the heap range. -/
def LowerHalf (heap : ServiceHeap) (_ : Statics) (e : MemEvent) (_ : Statics) : Prop :=
  ∀ b, e = .heapAlloc b → b.stop ≤ heap.middle

/-- The regions of the two allocators. -/
structure Statics.Placed (s : Statics) (heap : ServiceHeap) : Prop where
  heapStart : s.heap.start = heap.base
  heapSize : s.heap.size = SERVICE_HEAP_SIZE
  bufferStart : s.bufferAllocator.start = heap.middle
  bufferSize : s.bufferAllocator.size = SERVICE_HEAP_SIZE / 2

theorem init_mm (v : Visor) (heap : ServiceHeap) : ∃ s, init v "mm" heap .uninit = .ok s ∧
    s.Placed heap ∧ s.live = [] := by
  have small : heap.base + SERVICE_HEAP_SIZE / 2 < word := by
    have := heap.fits
    simp only [SERVICE_HEAP_SIZE] at this ⊢
    omega
  have handed : init v "mm" heap .uninit = .ok (initHeap heap.base { Statics.uninit with
      ctx := ⟨v.isolId, v.findHostCall, v.panicHandler, (heap.base, heap.middle)⟩ }) := by
    simp [init, setHandlerAddr, Statics.uninit, IsolationContext.uninit, Outcome.bind,
      getHandlerAddr, initHeap, v.callable, Nat.mod_eq_of_lt small, ServiceHeap.middle]
  exact ⟨_, handed, ⟨rfl, rfl, rfl, rfl⟩, rfl⟩

theorem placed_step {heap : ServiceHeap} (held : s.Placed heap) (stepped : MemStep s e t) :
    t.Placed heap := by
  cases stepped with
  | heapAlloc => exact ⟨held.heapStart, held.heapSize, held.bufferStart, held.bufferSize⟩
  | heapDealloc => exact ⟨held.heapStart, held.heapSize, held.bufferStart, held.bufferSize⟩
  | bufferAlloc => exact ⟨held.heapStart, held.heapSize, held.bufferStart, held.bufferSize⟩
  | bufferDealloc => exact ⟨held.heapStart, held.heapSize, held.bufferStart, held.bufferSize⟩

theorem within_of_placed {heap : ServiceHeap} (held : Statics.Placed s heap) : s.Within heap := by
  intro b member
  rcases List.mem_append.mp member with inHeap | inBuffer
  · have inside := s.heap.inside b inHeap
    rwa [held.heapStart, held.heapSize] at inside
  · have inside := s.bufferAllocator.inside b inBuffer
    rw [held.bufferStart, held.bufferSize, ServiceHeap.middle, SERVICE_HEAP_SIZE] at inside
    simp only [SERVICE_HEAP_SIZE]
    omega

/-- The blocks of the global heap end where the buffer heap begins. -/
def Statics.Split (s : Statics) (heap : ServiceHeap) : Prop :=
  s.Placed heap ∧ ∀ b ∈ s.heap.live, b.stop ≤ heap.middle

theorem split_step {heap : ServiceHeap} (held : Statics.Split s heap)
    (stepped : Where MemStep (LowerHalf heap) s e t) : t.Split heap := by
  obtain ⟨stepped, low⟩ := stepped
  refine ⟨placed_step held.1 stepped, ?_⟩
  cases stepped with
  | heapAlloc admitted =>
    intro b member
    rcases List.mem_cons.mp member with rfl | old
    · exact low b rfl
    · exact held.2 b old
  | heapDealloc => exact fun b member => held.2 b (List.mem_of_mem_erase member)
  | bufferAlloc => exact held.2
  | bufferDealloc => exact held.2

theorem apart_of_split {heap : ServiceHeap} (held : Statics.Split s heap) : s.Apart := by
  apply List.pairwise_append.mpr
  refine ⟨s.heap.apart, s.bufferAllocator.apart, fun b inHeap c inBuffer => .inl ?_⟩
  have upper := (s.bufferAllocator.inside c inBuffer).1
  rw [held.1.bufferStart] at upper
  exact (held.2 b inHeap).trans upper

/-- A live block of the global heap in the upper half is free for the buffer heap to hand out
again, unless a live buffer overlaps it already. -/
theorem overlap_of_high {heap : ServiceHeap} (held : Statics.Placed s heap)
    (member : b ∈ s.heap.live) (high : heap.middle < b.stop) :
    ¬ s.Apart ∨ ∃ c t, MemStep s (.bufferAlloc c) t ∧ ¬ t.Apart := by
  by_cases clash : ∀ c ∈ s.bufferAllocator.live, b.Apart c
  · right
    have inside := s.heap.inside b member
    rw [held.heapStart, held.heapSize] at inside
    have admitted : s.bufferAllocator.Admits (b.above heap.middle high) := by
      refine ⟨⟨?_, ?_⟩, fun c live => (clash c live).above high⟩
      · rw [held.bufferStart]
        exact le_max_right _ _
      · rw [held.bufferStart, held.bufferSize, b.above_stop]
        simp only [ServiceHeap.middle, SERVICE_HEAP_SIZE] at inside ⊢
        omega
    refine ⟨_, _, .bufferAlloc admitted, fun apart => b.not_apart_above high ?_⟩
    exact (List.pairwise_append.mp apart).2.2 b member _ (List.mem_cons_self ..)
  · left
    push Not at clash
    obtain ⟨c, live, clash⟩ := clash
    exact fun apart => clash ((List.pairwise_append.mp apart).2.2 b member c live)

/-- Whatever the base address, the blocks stay in the service heap; they do not overlap as long
as the global heap stays in the heap range, and the first allocation above it makes an overlap
possible at once or with the next buffer. -/
theorem mm_blocks_apart_when (v : Visor) (heap : ServiceHeap) :
    ∃ ready, init v "mm" heap .uninit = .ok ready ∧
    (∀ es t, Run MemStep ready es t → t.Within heap) ∧
    (∀ es t, Run (Where MemStep (LowerHalf heap)) ready es t → t.Apart) ∧
    ∀ es s e t, Run (Where MemStep (LowerHalf heap)) ready es s → MemStep s e t →
      ¬ LowerHalf heap s e t → ¬ t.Apart ∨ ∃ c u, MemStep t (.bufferAlloc c) u ∧ ¬ u.Apart := by
  obtain ⟨ready, started, placed, empty⟩ := init_mm v heap
  have initial : ready.Split heap := by
    refine ⟨placed, fun b member => ?_⟩
    have none : b ∈ ready.live := List.mem_append_left _ member
    simp [empty] at none
  refine ⟨ready, started, fun es t run => ?_, fun es t run => ?_,
    fun es s e t run stepped high => ?_⟩
  · exact within_of_placed (run.stable (P := (Statics.Placed · heap)) placed_step placed)
  · exact apart_of_split (run.stable (P := (Statics.Split · heap)) split_step initial)
  · have before := run.stable (P := (Statics.Split · heap)) split_step initial
    have after := placed_step before.1 stepped
    simp only [LowerHalf, not_forall, Nat.not_le] at high
    obtain ⟨b, rfl, high⟩ := high
    cases stepped with
    | heapAlloc admitted => exact overlap_of_high after (List.mem_cons_self ..) high

/-- A buffer of 64 bytes is live when the global heap hands out 3 GiB, as for `libos_mmap`. -/
theorem mm_blocks_overlap : ¬ ∀ v heap ready es t, init v "mm" heap .uninit = .ok ready →
    Run MemStep ready es t → t.Apart := by
  intro all
  let heap : ServiceHeap := ⟨0x7f0000000000, by decide⟩
  let buffer : Block := ⟨0x7f0080000000, 64, by decide⟩
  let mapping : Block := ⟨0x7f0000000000, 3 * 1024 * 1024 * 1024, by decide⟩
  obtain ⟨ready, started, placed, empty⟩ := init_mm ⟨1, 0x401000, 0x402000, by decide⟩ heap
  obtain ⟨noHeap, noBuffer⟩ := List.append_eq_nil_iff.mp empty
  have first : ready.bufferAllocator.Admits buffer := by
    refine ⟨?_, by simp [noBuffer]⟩
    rw [placed.bufferStart, placed.bufferSize]
    decide
  let held : Statics := { ready with buffer := some (ready.bufferAllocator.give buffer first) }
  have second : held.heap.Admits mapping := by
    refine ⟨?_, by simp [held, noHeap]⟩
    simp only [held, placed.heapStart, placed.heapSize]
    decide
  have apart :=
    all _ heap ready _ _ started (.cons (.bufferAlloc first) (.cons (.heapAlloc second) (.nil _)))
  have cross :=
    (List.pairwise_append.mp apart).2.2 mapping (List.mem_cons_self ..) buffer
      (List.mem_cons_self ..)
  exact absurd cross (by decide)

end AlloyStack.Mm
