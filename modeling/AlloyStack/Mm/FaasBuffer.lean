import Mathlib.Data.List.Nodup
import AlloyStack.Library.Blocks
import AlloyStack.Library.Ownership
import AlloyStack.Library.Sequence
import AlloyStack.Library.Transition

/-! Reference-passing data buffers: `DataBuffer::with_slot` and `from_buffer_slot` over the
buffer allocator and the register of the mm service, under any interleaving of threads. A step
is one critical section of `BUFFER_ALLOCATOR` or `BUFFER_REGISTER`, or the type check that
follows an access. -/
namespace AlloyStack.Mm
open Transition Blocks Ownership

/-- A type with a layout of non-zero size. -/
structure Ty where
  size : Nat
  fingerprint : UInt64
  nonzero : 0 < size

structure DataBuffer where
  ptr : Nat
  used : Bool
  deriving DecidableEq

inductive Phase where
  | idle
  | registering (slot : String) (addr : Nat) (fingerprint : UInt64)
  | checking (slot : String) (ty : Ty) (found : Option (Nat × UInt64))

/-- `buffers` are the `DataBuffer` values that have not been dropped yet. -/
structure Buffers where
  allocator : Pool
  register : String → Option (Nat × UInt64)
  buffers : List DataBuffer
  phases : Nat → Phase

def Buffers.empty (start size : Nat) : Buffers :=
  ⟨.fresh start size, fun _ => none, [], fun _ => .idle⟩

def Buffers.enter (s : Buffers) (i : Nat) (phase : Phase) : Buffers :=
  { s with phases := Function.update s.phases i phase }

@[simp] theorem enter_self (s : Buffers) (i : Nat) (phase : Phase) :
    (s.enter i phase).phases i = phase :=
  Function.update_self ..

theorem enter_of_ne (s : Buffers) (phase : Phase) {i j : Nat} (other : j ≠ i) :
    (s.enter i phase).phases j = s.phases j :=
  Function.update_of_ne other ..

/-- `Drop::drop`: the buffer is deallocated only if it is marked as used. -/
def Buffers.drop (s : Buffers) (d : DataBuffer) : Buffers :=
  let allocator := if d.used then
      match s.allocator.live.find? (·.start == d.ptr) with
      | some b => s.allocator.release b
      | none => s.allocator
    else s.allocator
  { s with allocator, buffers := s.buffers.erase d }

inductive BufferEvent where
  | alloc (i : Nat) (slot : String) (ty : Ty) (b : Block)
  | allocFailed (i : Nat)
  | register (i : Nat) (slot : String) (addr : Nat) (fingerprint : UInt64)
  | access (i : Nat) (slot : String) (ty : Ty)
  | returned (i : Nat) (slot : String) (ty : Ty) (addr : Option Nat)
  | mismatch (i : Nat)
  | drop (d : DataBuffer)

inductive BufferStep : Buffers → BufferEvent → Buffers → Prop where
  | alloc (admitted : s.allocator.Admits b) : s.phases i = .idle → ty.size ≤ b.size →
      BufferStep s (.alloc i slot ty b) ({ s with allocator := s.allocator.give b admitted }.enter i
        (.registering slot b.start ty.fingerprint))
  | allocFailed : s.phases i = .idle → BufferStep s (.allocFailed i) s
  | register : s.phases i = .registering slot addr fingerprint →
      BufferStep s (.register i slot addr fingerprint) ({ s with
        register := Function.update s.register slot (some (addr, fingerprint))
        buffers := ⟨addr, false⟩ :: s.buffers }.enter i .idle)
  | access : s.phases i = .idle →
      BufferStep s (.access i slot ty)
        ({ s with register := Function.update s.register slot none }.enter i
        (.checking slot ty (s.register slot)))
  | empty : s.phases i = .checking slot ty none →
    BufferStep s (.returned i slot ty none) (s.enter i .idle)
  | returned : s.phases i = .checking slot ty (some (addr, fingerprint)) →
    fingerprint = ty.fingerprint →
      BufferStep s (.returned i slot ty (some addr))
        ({ s with buffers := ⟨addr, false⟩ :: s.buffers }.enter i .idle)
  | mismatch : s.phases i = .checking slot ty (some (addr, fingerprint)) →
    fingerprint ≠ ty.fingerprint →
      BufferStep s (.mismatch i) (s.enter i .idle)
  | drop : d ∈ s.buffers → BufferStep s (.drop d) (s.drop d)

/-- The most recent registration on a slot, with the allocation it was made for. -/
def Latest (es : List BufferEvent) (slot : String) (addr : Nat) (fingerprint : UInt64) : Prop :=
  ∃ past i later, es = past ++ .register i slot addr fingerprint :: later ∧
    (∀ j a f, .register j slot a f ∉ later) ∧
    ∃ ty b, .alloc i slot ty b ∈ past ∧ b.start = addr ∧ ty.fingerprint = fingerprint

/-- The events around a `from_buffer_slot` that has taken an entry out of the register. -/
def Accessed (es : List BufferEvent) (i : Nat) (slot : String) (ty : Ty) (addr : Nat)
    (fingerprint : UInt64) :
    Prop :=
  ∃ before between, es = before ++ .access i slot ty :: between ∧
    (∀ slot' ty', .access i slot' ty' ∉ between) ∧ Latest before slot addr fingerprint

def BufferEvent.handed : BufferEvent → Option Nat
  | .returned _ _ _ addr => addr
  | _ => none

/-- Every address that was returned came from the registration that was the most recent one at
the access, with the type it was registered for, and no address was returned twice. -/
structure Delivered (es : List BufferEvent) : Prop where
  source : ∀ past i slot ty addr later, es = past ++ .returned i slot ty (some addr) :: later →
    Accessed past i slot ty addr ty.fingerprint
  once : (es.filterMap BufferEvent.handed).Nodup

/-- An entry leaves the register through an access to its own slot, or for a later registration. -/
def Kept (s : Buffers) (e : BufferEvent) (t : Buffers) : Prop :=
  ∀ slot entry, s.register slot = some entry → t.register slot ≠ some entry →
    (∃ i ty, e = .access i slot ty) ∨ ∃ i addr fingerprint, e = .register i slot addr fingerprint

/-- Who may hold the address of a buffer: a thread about to register it, the register, a thread
about to check it, or the caller it was returned to. -/
inductive Holder where
  | writer (i : Nat)
  | slot (name : String)
  | reader (i : Nat)
  | caller (n : Nat)
  deriving DecidableEq

def Phase.writes : Phase → Option Nat
  | .registering _ addr _ => some addr
  | _ => none

def Phase.reads : Phase → Option Nat
  | .checking _ _ found => found.map Prod.fst
  | _ => none

def holds (es : List BufferEvent) (s : Buffers) : Holder → Option Nat
  | .writer i => (s.phases i).writes
  | .slot name => (s.register name).map Prod.fst
  | .reader i => (s.phases i).reads
  | .caller n => (es.filterMap BufferEvent.handed)[n]?

section Holders
variable {s : Buffers} {es : List BufferEvent} {e : BufferEvent} {i : Nat}

theorem holds_enter (es : List BufferEvent) (s : Buffers) (i : Nat) (phase : Phase) :
    holds es (s.enter i phase) =
      Function.update (Function.update (holds es s) (.writer i) phase.writes)
        (.reader i) phase.reads := by
  funext o
  cases o with
  | writer j => by_cases same : j = i <;> simp [same, holds, Buffers.enter]
  | slot name => rfl
  | reader j => by_cases same : j = i <;> simp [same, holds, Buffers.enter]
  | caller n => rfl

theorem holds_writer (reads : phase.reads = (s.phases i).reads) :
    holds es (s.enter i phase) = Function.update (holds es s) (.writer i) phase.writes := by
  rw [holds_enter, reads, Function.update_comm (by simp)]
  exact congrArg (Function.update · _ _) (Function.update_eq_self (Holder.reader i) (holds es s))

theorem holds_reader (writes : phase.writes = (s.phases i).writes) :
    holds es (s.enter i phase) = Function.update (holds es s) (.reader i) phase.reads := by
  rw [holds_enter, writes]
  exact congrArg (Function.update · _ _) (Function.update_eq_self (Holder.writer i) (holds es s))

theorem holds_register (es : List BufferEvent) (s : Buffers) (name : String)
    (v : Option (Nat × UInt64)) :
    holds es { s with register := Function.update s.register name v } =
      Function.update (holds es s) (.slot name) (v.map Prod.fst) := by
  funext o
  cases o with
  | writer j => rfl
  | slot other => by_cases same : other = name <;> simp [same, holds]
  | reader j => rfl
  | caller n => rfl

theorem holds_quiet (quiet : e.handed = none) : holds (es ++ [e]) s = holds es s := by
  funext o
  cases o with
  | caller n => simp [holds, quiet]
  | _ => rfl

theorem holds_handed (handed : e.handed = some addr) :
    holds (es ++ [e]) s =
    Function.update (holds es s) (.caller (es.filterMap BufferEvent.handed).length)
      (some addr) := by
  funext o
  cases o with
  | caller n =>
    by_cases same : n = (es.filterMap BufferEvent.handed).length
    · simp [same, holds, handed]
    · simp only [holds, List.filterMap_append, Function.update_of_ne (mt Holder.caller.inj same)]
      simp only [List.filterMap_cons, handed, List.filterMap_nil]
      rcases Nat.lt_or_gt_of_ne same with less | more
      · rw [List.getElem?_append_left less]
      · rw [List.getElem?_eq_none (by simp; omega), List.getElem?_eq_none (by omega)]
  | _ => simp [holds]

end Holders

/-- The addresses held are starts of live blocks, each held once, and no buffer is marked as
used. -/
structure Held (es : List BufferEvent) (s : Buffers) : Prop where
  sole : Sole (holds es s)
  allocated : ∀ o addr, holds es s o = some addr → ∃ b ∈ s.allocator.live, b.start = addr
  unused : ∀ d ∈ s.buffers, d.used = false

namespace Held
variable {s t : Buffers} {es : List BufferEvent} {e : BufferEvent} {i : Nat}

theorem initial (start size : Nat) : Held [] (.empty start size) where
  sole o o' addr first := by cases o <;> nomatch first
  allocated o addr owns := by cases o <;> nomatch owns
  unused := nofun

theorem forget (held : Held es s) (lost : holds es' t = Function.update (holds es s) o none)
    (pool : t.allocator = s.allocator) (unused : ∀ d ∈ t.buffers, d.used = false) : Held es' t where
  sole := lost ▸ held.sole.release o
  allocated o' addr owns := by
    rw [lost, Function.update_apply] at owns
    split at owns
    · nomatch owns
    · exact pool ▸ held.allocated o' addr owns
  unused := unused

theorem transfer (held : Held es s) (o' : Holder) (owns : holds es s o = some addr)
    (moved : holds es' t = Function.update (Function.update (holds es s) o none) o' (some addr))
    (pool : t.allocator = s.allocator) (unused : ∀ d ∈ t.buffers, d.used = false) : Held es' t where
  sole := moved ▸ held.sole.move owns o'
  allocated a addr' owns' := by
    rw [moved, Function.update_apply, Function.update_apply] at owns'
    split at owns'
    · exact pool ▸ Option.some.inj owns' ▸ held.allocated o addr owns
    · split at owns'
      · nomatch owns'
      · exact pool ▸ held.allocated a addr' owns'
  unused := unused

theorem alloc (held : Held es s) (admitted : s.allocator.Admits b) (idle : s.phases i = .idle) :
    Held (es ++ [.alloc i slot ty b]) ({ s with allocator := s.allocator.give b admitted }.enter i
      (.registering slot b.start ty.fingerprint)) := by
  have fresh (o : Holder) : holds es s o ≠ some b.start := by
    intro owns
    obtain ⟨c, live, start⟩ := held.allocated o _ owns
    exact (admitted.apart c live).start_ne start.symm
  have changed : holds (es ++ [.alloc i slot ty b])
      ({ s with allocator := s.allocator.give b admitted }.enter i
      (.registering slot b.start ty.fingerprint)) =
        Function.update (holds es s) (.writer i) (some b.start) := by
    rw [holds_quiet rfl, holds_writer (by simp [idle, Phase.reads])]
    rfl
  refine ⟨changed ▸ held.sole.acquire fresh _, fun o addr owns => ?_, held.unused⟩
  rw [changed, Function.update_apply] at owns
  split at owns
  · exact ⟨b, List.mem_cons_self .., Option.some.inj owns⟩
  · obtain ⟨c, live, start⟩ := held.allocated o addr owns
    exact ⟨c, List.mem_cons_of_mem _ live, start⟩

theorem register (held : Held es s) (writing : s.phases i = .registering slot addr fingerprint) :
    Held (es ++ [.register i slot addr fingerprint]) ({ s with
      register := Function.update s.register slot (some (addr, fingerprint))
      buffers := ⟨addr, false⟩ :: s.buffers }.enter i .idle) := by
  have owns : holds es s (.writer i) = some addr := by simp [holds, writing, Phase.writes]
  refine held.transfer (.slot slot) owns ?_ rfl (List.forall_mem_cons.mpr ⟨rfl, held.unused⟩)
  rw [holds_quiet rfl, holds_writer (by simp [writing, Phase.reads]),
    Function.update_comm (by simp)]
  exact congrArg (Function.update · _ _) (holds_register es s slot _)

theorem access (held : Held es s) (idle : s.phases i = .idle) :
    Held (es ++ [.access i slot ty])
      ({ s with register := Function.update s.register slot none }.enter i
      (.checking slot ty (s.register slot))) := by
  have changed : holds (es ++ [.access i slot ty])
      ({ s with register := Function.update s.register slot none }.enter i
        (.checking slot ty (s.register slot))) =
      Function.update (Function.update (holds es s) (.slot slot) none) (.reader i)
        (holds es s (.slot slot)) := by
    rw [holds_quiet rfl, holds_reader (by simp [idle, Phase.writes]), holds_register]
    rfl
  cases owns : holds es s (.slot slot) with
  | none =>
    rw [owns] at changed
    have unread : Function.update (holds es s) (.slot slot) none (.reader i) = none := by
      simp [holds, idle, Phase.reads]
    exact held.forget (changed.trans (Function.update_eq_self_iff.mpr unread.symm)) rfl held.unused
  | some addr => exact held.transfer (.reader i) owns (owns ▸ changed) rfl held.unused

theorem leave (held : Held es s) (quiet : e.handed = none) (writes : (s.phases i).writes = none) :
    Held (es ++ [e]) (s.enter i .idle) := by
  refine held.forget (o := .reader i) ?_ rfl held.unused
  rw [holds_quiet quiet, holds_reader (by rw [writes]; rfl)]
  rfl

theorem returned (held : Held es s)
    (checking : s.phases i = .checking slot ty (some (addr, fingerprint))) :
    Held (es ++ [.returned i slot ty (some addr)])
      ({ s with buffers := ⟨addr, false⟩ :: s.buffers }.enter i .idle) := by
  have owns : holds es s (.reader i) = some addr := by simp [holds, checking, Phase.reads]
  refine held.transfer (.caller (es.filterMap BufferEvent.handed).length) owns ?_ rfl
    (List.forall_mem_cons.mpr ⟨rfl, held.unused⟩)
  rw [holds_handed rfl, holds_reader (by simp [checking, Phase.writes])]
  rfl

theorem drop (held : Held es s) (member : d ∈ s.buffers) : Held (es ++ [.drop d]) (s.drop d) := by
  have kept : (s.drop d).allocator = s.allocator := by simp [Buffers.drop, held.unused d member]
  refine ⟨?_, ?_, fun d' member' => held.unused d' (List.mem_of_mem_erase member')⟩
  · rw [holds_quiet rfl]
    exact held.sole
  · rw [holds_quiet rfl, kept]
    exact held.allocated

theorem step (held : Held es s) (stepped : BufferStep s e t) : Held (es ++ [e]) t := by
  cases stepped with
  | alloc admitted idle fits => exact held.alloc admitted idle
  | @allocFailed _ i idle =>
    have same : holds (es ++ [.allocFailed i]) s = holds es s := holds_quiet rfl
    exact ⟨same ▸ held.sole, same ▸ held.allocated, held.unused⟩
  | register writing => exact held.register writing
  | access idle => exact held.access idle
  | empty checking => exact held.leave rfl (by simp [checking, Phase.writes])
  | returned checking same => exact held.returned checking
  | mismatch checking other => exact held.leave rfl (by simp [checking, Phase.writes])
  | drop member => exact held.drop member

theorem once (held : Held es s) : (es.filterMap BufferEvent.handed).Nodup := by
  rw [List.nodup_iff_getElem?_ne_getElem?]
  intro m n less inside same
  obtain ⟨addr, first⟩ : ∃ addr, (es.filterMap BufferEvent.handed)[m]? = some addr :=
    ⟨_, List.getElem?_eq_getElem (less.trans inside)⟩
  have equal := held.sole (.caller m) (.caller n) addr first (same.symm.trans first)
  exact less.ne (Holder.caller.inj equal)

end Held

section History
variable {es : List BufferEvent} {e : BufferEvent} {i addr : Nat} {slot : String}
  {fingerprint : UInt64}

theorem Latest.snoc (held : Latest es slot addr fingerprint)
    (other : ∀ j a f, e ≠ .register j slot a f) :
    Latest (es ++ [e]) slot addr fingerprint := by
  obtain ⟨past, i, later, rfl, last, source⟩ := held
  refine ⟨past, i, later ++ [e], by simp, fun j a f member => ?_, source⟩
  rcases List.mem_append.mp member with old | new
  · exact last j a f old
  · exact other j a f (List.mem_singleton.mp new).symm

theorem Latest.new
    (source : ∃ ty b, .alloc i slot ty b ∈ es ∧ b.start = addr ∧ ty.fingerprint = fingerprint) :
    Latest (es ++ [.register i slot addr fingerprint]) slot addr fingerprint :=
  ⟨es, i, [], rfl, nofun, source⟩

theorem Accessed.snoc (held : Accessed es i slot ty addr fingerprint)
    (other : ∀ slot' ty', e ≠ .access i slot' ty') :
    Accessed (es ++ [e]) i slot ty addr fingerprint := by
  obtain ⟨before, between, rfl, own, latest⟩ := held
  refine ⟨before, between ++ [e], by simp, fun slot' ty' member => ?_, latest⟩
  rcases List.mem_append.mp member with old | new
  · exact own slot' ty' old
  · exact other slot' ty' (List.mem_singleton.mp new).symm

theorem Accessed.new (latest : Latest es slot addr fingerprint) :
    Accessed (es ++ [.access i slot ty]) i slot ty addr fingerprint :=
  ⟨es, [], rfl, nofun, latest⟩

/-- What the threads and the register know agrees with the trace. -/
structure Recorded (es : List BufferEvent) (s : Buffers) : Prop where
  writing : ∀ i slot addr fingerprint, s.phases i = .registering slot addr fingerprint →
    ∃ ty b, .alloc i slot ty b ∈ es ∧ b.start = addr ∧ ty.fingerprint = fingerprint
  registered : ∀ slot addr fingerprint, s.register slot = some (addr, fingerprint) →
    Latest es slot addr fingerprint
  checking : ∀ i slot ty addr fingerprint,
    s.phases i = .checking slot ty (some (addr, fingerprint)) →
    Accessed es i slot ty addr fingerprint
  source : ∀ past i slot ty addr later, es = past ++ .returned i slot ty (some addr) :: later →
    Accessed past i slot ty addr ty.fingerprint

namespace Recorded
variable {s t : Buffers}

theorem initial (start size : Nat) : Recorded [] (.empty start size) where
  writing := nofun
  registered := nofun
  checking := nofun
  source past i slot ty addr later same := by simp at same

theorem source_snoc (held : Recorded es s)
    (returned : ∀ j slot ty addr, e = .returned j slot ty (some addr) →
      Accessed es j slot ty addr ty.fingerprint)
    (split : es ++ [e] = past ++ .returned j slot ty (some addr) :: later) :
    Accessed past j slot ty addr ty.fingerprint := by
  rcases Sequence.snoc_eq_append_cons split with ⟨rest, _, old⟩ | ⟨new, rfl⟩
  · exact held.source past j slot ty addr rest old
  · exact returned j slot ty addr new

/-- A step of one thread, given what it adds to the record. -/
theorem extend (held : Recorded es s) (others : ∀ j, j ≠ i → t.phases j = s.phases j)
    (own : ∀ j slot ty, e = .access j slot ty → j = i)
    (writing : ∀ slot addr fingerprint, t.phases i = .registering slot addr fingerprint →
      ∃ ty b, .alloc i slot ty b ∈ es ++ [e] ∧ b.start = addr ∧ ty.fingerprint = fingerprint)
    (registered : ∀ slot addr fingerprint, t.register slot = some (addr, fingerprint) →
      Latest (es ++ [e]) slot addr fingerprint)
    (checking : ∀ slot ty addr fingerprint,
      t.phases i = .checking slot ty (some (addr, fingerprint)) →
      Accessed (es ++ [e]) i slot ty addr fingerprint)
    (returned : ∀ j slot ty addr, e ≠ .returned j slot ty (some addr)) :
    Recorded (es ++ [e]) t where
  writing j slot addr fingerprint phase := by
    by_cases same : j = i
    · subst same
      exact writing slot addr fingerprint phase
    · obtain ⟨ty, b, member, facts⟩ := held.writing j slot addr fingerprint (others j same ▸ phase)
      exact ⟨ty, b, List.mem_append_left _ member, facts⟩
  registered := registered
  checking j slot ty addr fingerprint phase := by
    by_cases same : j = i
    · subst same
      exact checking slot ty addr fingerprint phase
    · refine (held.checking j slot ty addr fingerprint (others j same ▸ phase)).snoc ?_
      exact fun slot' ty' access => same (own j slot' ty' access)
  source past j slot ty addr later :=
    held.source_snoc fun j slot ty addr event => absurd event (returned j slot ty addr)

/-- A step that leaves the register alone and at most ends the operation of a thread. -/
theorem quiet (held : Recorded es s) (phases : ∀ j, t.phases j = s.phases j ∨ t.phases j = .idle)
    (same : t.register = s.register) (silent : ∀ j slot ty, e ≠ .access j slot ty)
    (unregistered : ∀ j slot a f, e ≠ .register j slot a f)
    (returned : ∀ j slot ty addr, e = .returned j slot ty (some addr) →
      Accessed es j slot ty addr ty.fingerprint) : Recorded (es ++ [e]) t where
  writing j slot addr fingerprint phase := by
    rcases phases j with old | idle
    · obtain ⟨ty, b, member, facts⟩ := held.writing j slot addr fingerprint (old ▸ phase)
      exact ⟨ty, b, List.mem_append_left _ member, facts⟩
    · nomatch idle.symm.trans phase
  registered slot addr fingerprint found :=
    (held.registered slot addr fingerprint (same ▸ found)).snoc fun j => unregistered j slot
  checking j slot ty addr fingerprint phase := by
    rcases phases j with old | idle
    · exact (held.checking j slot ty addr fingerprint (old ▸ phase)).snoc fun slot' =>
        silent j slot'
    · nomatch idle.symm.trans phase
  source past j slot ty addr later := held.source_snoc returned

theorem alloc (held : Recorded es s) (admitted : s.allocator.Admits b) :
    Recorded (es ++ [.alloc i slot ty b])
      ({ s with allocator := s.allocator.give b admitted }.enter i
      (.registering slot b.start ty.fingerprint)) := by
  refine held.extend (fun j other => enter_of_ne _ _ other) nofun ?_ ?_ ?_ nofun
  · intro slot' addr fingerprint phase
    obtain ⟨rfl, rfl, rfl⟩ := Phase.registering.inj ((enter_self ..).symm.trans phase)
    exact ⟨ty, b, by simp, rfl, rfl⟩
  · exact fun slot addr fingerprint found => (held.registered _ _ _ found).snoc nofun
  · intro slot' ty' addr fingerprint phase
    nomatch (enter_self ..).symm.trans phase

theorem register (held : Recorded es s)
    (writing : s.phases i = .registering slot addr fingerprint) :
    Recorded (es ++ [.register i slot addr fingerprint]) ({ s with
      register := Function.update s.register slot (some (addr, fingerprint))
      buffers := ⟨addr, false⟩ :: s.buffers }.enter i .idle) := by
  refine held.extend (fun j other => enter_of_ne _ _ other) nofun ?_ ?_ ?_ nofun
  · intro slot' addr' fingerprint' phase
    nomatch (enter_self ..).symm.trans phase
  · intro slot' addr' fingerprint' found
    by_cases same : slot' = slot
    · subst same
      have entry : (addr, fingerprint) = (addr', fingerprint') := by
        simpa [Buffers.enter] using found
      obtain ⟨rfl, rfl⟩ := Prod.mk.inj entry
      exact .new (held.writing i slot' addr fingerprint writing)
    · have old : s.register slot' = some (addr', fingerprint') := by
        simpa [Buffers.enter, same] using found
      refine (held.registered slot' addr' fingerprint' old).snoc fun j a f event => ?_
      exact same (BufferEvent.register.inj event).2.1.symm
  · intro slot' ty addr' fingerprint' phase
    nomatch (enter_self ..).symm.trans phase

theorem access (held : Recorded es s) : Recorded (es ++ [.access i slot ty])
    ({ s with register := Function.update s.register slot none }.enter i
      (.checking slot ty (s.register slot))) := by
  refine held.extend (fun j other => enter_of_ne _ _ other) ?_ ?_ ?_ ?_ nofun
  · exact fun j slot' ty' event => (BufferEvent.access.inj event).1.symm
  · intro slot' addr fingerprint phase
    nomatch (enter_self ..).symm.trans phase
  · intro slot' addr fingerprint found
    have old : s.register slot' = some (addr, fingerprint) := by
      by_cases same : slot' = slot
      · simp [Buffers.enter, same] at found
      · simpa [Buffers.enter, same] using found
    exact (held.registered slot' addr fingerprint old).snoc nofun
  · intro slot' ty' addr fingerprint phase
    obtain ⟨rfl, rfl, found⟩ := Phase.checking.inj ((enter_self ..).symm.trans phase)
    exact .new (held.registered slot addr fingerprint found)

theorem step (held : Recorded es s) (stepped : BufferStep s e t) : Recorded (es ++ [e]) t := by
  have ends (s : Buffers) (i j : Nat) :
      (s.enter i .idle).phases j = s.phases j ∨ (s.enter i .idle).phases j = .idle := by
    by_cases same : j = i
    · exact .inr (same ▸ enter_self ..)
    · exact .inl (enter_of_ne _ _ same)
  cases stepped with
  | alloc admitted idle fits => exact held.alloc admitted
  | allocFailed idle => exact held.quiet (fun _ => .inl rfl) rfl nofun nofun nofun
  | register writing => exact held.register writing
  | access idle => exact held.access
  | empty checking => exact held.quiet (ends _ _) rfl nofun nofun nofun
  | returned checking same =>
    refine held.quiet (ends _ _) rfl nofun nofun ?_
    rintro j slot ty addr ⟨⟩
    exact same ▸ held.checking _ _ _ _ _ checking
  | mismatch checking other => exact held.quiet (ends _ _) rfl nofun nofun nofun
  | drop member => exact held.quiet (fun _ => .inl rfl) rfl nofun nofun nofun

end Recorded

end History

theorem step_kept (stepped : BufferStep s e t) : Kept s e t := by
  intro name entry found lost
  cases stepped with
  | @register _ i slot addr fingerprint writing =>
    by_cases same : name = slot
    · exact .inr ⟨i, addr, fingerprint, same ▸ rfl⟩
    · exact absurd ((Function.update_of_ne same ..).trans found) lost
  | @access _ i slot ty idle =>
    by_cases same : name = slot
    · exact .inl ⟨i, ty, same ▸ rfl⟩
    · exact absurd ((Function.update_of_ne same ..).trans found) lost
  | _ => exact absurd found lost

/-- Delivery of buffers by reference, over every interleaving. -/
theorem buffers_delivered (start size : Nat) (es : List BufferEvent) (t : Buffers)
    (run : Run BufferStep (.empty start size) es t) :
    Delivered es ∧ ∀ e u, BufferStep t e u → Kept t e u := by
  have held := run.history (P := Held) Held.step (.initial start size)
  have recorded := run.history (P := Recorded) Recorded.step (.initial start size)
  exact ⟨⟨recorded.source, held.once⟩, fun e u stepped => step_kept stepped⟩

def wordCount : Ty := ⟨64, 7, by decide⟩

/-- One function registers a buffer in a slot and another one takes it. -/
def handover : List BufferEvent :=
  [.alloc 1 "out" wordCount ⟨4096, 64, by decide⟩, .register 1 "out" 4096 7,
    .access 2 "out" wordCount,
    .returned 2 "out" wordCount (some 4096)]

theorem handover_delivered :
    ∃ t, Run BufferStep (.empty 4096 65536) handover t ∧ Delivered handover ∧
    ∀ e u, BufferStep t e u → Kept t e u := by
  have admitted : (Buffers.empty 4096 65536).allocator.Admits ⟨4096, 64, by decide⟩ :=
    Pool.fresh_admits (by decide)
  have run : Run BufferStep (.empty 4096 65536) handover _ :=
    .cons (.alloc admitted rfl le_rfl)
      (.cons (.register rfl) (.cons (.access rfl) (.cons (.returned rfl rfl) (.nil _))))
  exact ⟨_, run, buffers_delivered 4096 65536 handover _ run⟩

end AlloyStack.Mm
