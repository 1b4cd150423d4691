import AlloyStack.Library.Rust
import AlloyStack.MmapFileBackend.PageFault

/-! `libos_mmap` and `libos_munmap` of the mm service, with the calls that they make to the
mmap_file_backend service. A mapping takes a block of the heap, remaps its pages and registers the
file behind it. -/
namespace AlloyStack.Mm.Mmap
open Rust
open AlloyStack.Fdtab (Fd)
open AlloyStack.MmapFileBackend (Region complement removeRegion)

def PAGE_SIZE : Nat := 0x1000

structure Layout where
  size : Nat
  align : Nat
  deriving DecidableEq

/-- The size may not exceed `isize::MAX` when it is rounded up to the alignment. -/
def Layout.fromSizeAlign (size align : Nat) : Option Layout :=
  if size ≤ 2 ^ 63 - align then some ⟨size, align⟩ else none

/-- A live allocation, with the layout that it was made with. -/
structure Allocation where
  addr : Nat
  layout : Layout
  deriving DecidableEq

inductive MmapFileErr where
  | acquireLockErr (name reason : String)
  | pipeStateErr (state : String)
  | nixErr (message : String)
  | spawnHandlerError (message : String)
  | uffdError (message : String)

inductive MMError where
  | invaildArg (expect : String) (found : Nat)
  | layoutErr
  | fileBackendErr (e : MmapFileErr)
  | libcErr (message : String)

/-- The heap of mm and `REGISTERD_REGIONS`. -/
@[ext] structure Memory where
  live : List Allocation
  regions : List Region

abbrev ProtFlags := UInt32

namespace ProtFlags
def READ : ProtFlags := 1
def WRITE : ProtFlags := 2
def EXEC : ProtFlags := 4
end ProtFlags

/-- The flags of libc have the same values. -/
def transProtflag (flags : ProtFlags) : UInt32 :=
  (if flags &&& ProtFlags.READ = ProtFlags.READ then 1 else 0) |||
  (if flags &&& ProtFlags.WRITE = ProtFlags.WRITE then 2 else 0) |||
  (if flags &&& ProtFlags.EXEC = ProtFlags.EXEC then 4 else 0)

/-- The allocator, which answers with the address 0 when it has no block, and the host: whether
`munmap` and `mprotect` succeed, and the address that `mmap` returns. The kernel never chooses the
address 0. -/
structure Host where
  alloc : Layout → Nat
  munmap : (addr length : Nat) → Bool
  mmap : (addr length : Nat) → (prot : UInt32) → Nat
  nonnull : ∀ length prot, mmap 0 length prot ≠ 0
  mprotect : (addr length : Nat) → (prot : UInt32) → Bool

/-- The allocator does not hand out a block that is live. -/
def Host.Fresh (host : Host) (live : List Allocation) : Prop :=
  ∀ layout, host.alloc layout ≠ 0 → ∀ block ∈ live, block.addr ≠ host.alloc layout

/-- The environment of one call of the mmap_file_backend that returns: its three locks, userfaultfd,
whether a pipe is found at each look at `NOTIFY_PIPE`, and the answers for the pipe and the handler
thread. -/
structure Backing where
  register : Except String Unit
  uffd : Except String Unit
  tryLock : Bool
  contended : Except String Bool
  regions : Except String Unit
  looked : Except String Bool
  written : Except String Bool
  created : Except String Unit
  spawned : Except String Unit

def readNotifyPipe (look : Except String Bool) : Except MmapFileErr Bool :=
  look.mapError (.acquireLockErr "NOTIFY_PIPE.read")

/-- A call that finds `REGISTERD_REGIONS` free and poisoned, with a pipe, is not among these: the
error of `try_lock` keeps the guard for which `acquire_regions` then waits. -/
def acquireRegionsOrNotify (env : Backing) : Except MmapFileErr Unit :=
  if env.tryLock then .ok ()
  else match readNotifyPipe env.contended with
    | .error e => .error e
    | .ok false => .error (.pipeStateErr "uninit")
    | .ok true => env.regions.mapError (.acquireLockErr "REGISTERD_REGIONS")

/-- `write_notify_pipe` names the lock as `read_notify_pipe` does. -/
def initNotifyPipe (env : Backing) : Except MmapFileErr Unit :=
  match readNotifyPipe env.written with
  | .error e => .error e
  | .ok true => .error (.pipeStateErr "multi init")
  | .ok false => env.created.mapError .nixErr

/-- The answer of `acquire_register` is not looked at. -/
def registerFileBackend (env : Backing) (region : Region) (regions : List Region) :
    Except MmapFileErr Unit × List Region :=
  match env.uffd with
  | .error message => (.error (.uffdError message), regions)
  | .ok () =>
    match acquireRegionsOrNotify env with
    | .error e => (.error e, regions)
    | .ok () =>
      let regions := regions ++ [region]
      match readNotifyPipe env.looked with
      | .error e => (.error e, regions)
      | .ok true => (.ok (), regions)
      | .ok false =>
        match initNotifyPipe env with
        | .error e => (.error e, regions)
        | .ok () => (env.spawned.mapError .spawnHandlerError, regions)

def unregisterFileBackend (env : Backing) (addr : Nat) (regions : List Region) :
    Except MmapFileErr Unit × List Region :=
  match env.register with
  | .error reason => (.error (.acquireLockErr "REGISTER" reason), regions)
  | .ok () =>
    match readNotifyPipe env.looked with
    | .error e => (.error e, regions)
    | .ok false => (.error (.pipeStateErr "uninit"), regions)
    | .ok true =>
      match acquireRegionsOrNotify env with
      | .error e => (.error e, regions)
      | .ok () => (.ok (), removeRegion regions addr)

/-- `alloc`; no block is live when it returns null. -/
def Memory.alloc (host : Host) (layout : Layout) (s : Memory) : Memory :=
  if host.alloc layout = 0 then s else { s with live := ⟨host.alloc layout, layout⟩ :: s.live }

/-- The end of `libos_mmap`, where the address is known. -/
def remap (host : Host) (env : Backing) (addr length : Nat) (prot : ProtFlags) (fd : Fd)
    (s : Memory) :
    Except MMError Nat × Memory :=
  if !host.munmap addr length then (.error (.libcErr "munmap failed"), s)
  else if host.mmap addr length (transProtflag prot) ≠ addr then
    (.error (.libcErr "mmap failed"), s)
  else if fd = 0xffffffff then (.ok addr, s)
  else match registerFileBackend env ⟨addr, fd⟩ s.regions with
    | (.error e, regions) => (.error (.fileBackendErr e), { s with regions })
    | (.ok (), regions) => (.ok addr, { s with regions })

def libosMmap (host : Host) (env : Backing) (addr length : Nat) (prot : ProtFlags) (fd : Fd)
    (s : Memory) :
    Except MMError Nat × Memory :=
  if 0 < length % PAGE_SIZE then (.error (.invaildArg "length % PAGE_SIZE == 0" length), s)
  else match Layout.fromSizeAlign length PAGE_SIZE with
    | none => (.error .layoutErr, s)
    | some layout =>
      if addr = 0 then remap host env (host.alloc layout) length prot fd (s.alloc host layout)
      else remap host env addr length prot fd s

/-- `(length + PAGE_SIZE - 1) & (!PAGE_SIZE + 1)`, where `none` is the panic of a checked build. -/
def alignedLength (b : Build) (length : Nat) : Option Nat :=
  (b.add length PAGE_SIZE).bind fun sum => (b.sub sum 1).map fun last =>
    last &&& ((complement PAGE_SIZE + 1) % word)

/-- The block freed is the one with the address and the layout that `dealloc` is given. -/
def libosMunmap (b : Build) (host : Host) (env : Backing) (addr length : Nat) (fileBased : Bool)
    (s : Memory) :
    Option (Except MMError Unit × Memory) :=
  let unregistered :=
    if fileBased then unregisterFileBackend env addr s.regions else (.ok (), s.regions)
  let s := { s with regions := unregistered.2 }
  match unregistered.1 with
  | .error e => some (.error (.fileBackendErr e), s)
  | .ok () => (alignedLength b length).map fun aligned =>
    if !host.mprotect addr aligned 3 then (.error (.libcErr "mprotect failed"), s)
    else match Layout.fromSizeAlign aligned PAGE_SIZE with
      | none => (.error .layoutErr, s)
      | some layout => (.ok (), { s with live := s.live.erase ⟨addr, layout⟩ })

/-- The same allocations are live and the same regions are registered. -/
def Same (s t : Memory) : Prop := (∀ block, block ∈ t.live ↔ block ∈ s.live) ∧ t.regions = s.regions

/-- The list of regions is not to be had: it is locked, and there is no pipe to ask for it or the
lock is poisoned. -/
def Backing.Refuses (env : Backing) : Prop :=
  env.tryLock = false ∧ (env.contended ≠ .ok true ∨ ∃ reason, env.regions = .error reason)

/-- A step of `register_file_backend` fails, before or after it has pushed its region. -/
def Backing.Fails (env : Backing) : Prop :=
  (∃ message, env.uffd = .error message) ∨ env.Refuses ∨ (∃ reason, env.looked = .error reason) ∨
  env.looked = .ok false ∧
    (env.written ≠ .ok false ∨ (∃ message, env.created = .error message) ∨
      ∃ message, env.spawned = .error message)

/-- A failure after the block was allocated. -/
def LateFailure (host : Host) (env : Backing) (length : Nat) (prot : ProtFlags) (fd : Fd) : Prop :=
  length % PAGE_SIZE = 0 ∧ length ≤ 2 ^ 63 - PAGE_SIZE ∧ host.alloc ⟨length, PAGE_SIZE⟩ ≠ 0 ∧
  (host.munmap (host.alloc ⟨length, PAGE_SIZE⟩) length = false ∨
    host.mmap (host.alloc ⟨length, PAGE_SIZE⟩) length (transProtflag prot) ≠ host.alloc
      ⟨length, PAGE_SIZE⟩ ∨
    fd ≠ 0xffffffff ∧ env.Fails)

section Registration
variable (env : Backing) (region : Region) (regions : List Region)

theorem acquireRegionsOrNotify_error :
    (∃ e, acquireRegionsOrNotify env = .error e) ↔ env.Refuses := by
  unfold acquireRegionsOrNotify Backing.Refuses
  cases env.tryLock with
  | true => simp
  | false =>
    cases contended : env.contended with
    | error reason => simp [readNotifyPipe, Except.mapError]
    | ok there =>
      cases there with
      | false => simp [readNotifyPipe, Except.mapError]
      | true => cases env.regions <;> simp [readNotifyPipe, Except.mapError]

theorem initNotifyPipe_error : (∃ e, initNotifyPipe env = .error e) ↔
    env.written ≠ .ok false ∨ ∃ message, env.created = .error message := by
  unfold initNotifyPipe
  cases env.written with
  | error reason => simp [readNotifyPipe, Except.mapError]
  | ok there =>
    cases there with
    | true => simp [readNotifyPipe, Except.mapError]
    | false => cases env.created <;> simp [readNotifyPipe, Except.mapError]

/-- `register_file_backend` fails when one of its steps does. -/
theorem registerFileBackend_error :
    (∃ e, (registerFileBackend env region regions).1 = .error e) ↔ env.Fails := by
  have piped : (env.written ≠ .ok false ∨ (∃ message, env.created = .error message) ∨
      ∃ message, env.spawned = .error message) ↔
      (∃ e, initNotifyPipe env = .error e) ∨ ∃ message, env.spawned = .error message := by
    rw [initNotifyPipe_error, or_assoc]
  unfold registerFileBackend Backing.Fails
  rw [← acquireRegionsOrNotify_error, piped]
  cases env.uffd with
  | error message => simp
  | ok =>
    cases acquireRegionsOrNotify env with
    | error e => simp
    | ok =>
      cases env.looked with
      | error reason => simp [readNotifyPipe, Except.mapError]
      | ok there =>
        cases there with
        | true => simp [readNotifyPipe, Except.mapError]
        | false =>
          cases initNotifyPipe env with
          | error e => simp [readNotifyPipe, Except.mapError]
          | ok => cases env.spawned <;> simp [readNotifyPipe, Except.mapError]

/-- A call that succeeds has pushed its region. -/
theorem registerFileBackend_ok (done : registerFileBackend env region regions = (.ok (), after)) :
    after = regions ++ [region] := by
  unfold registerFileBackend at done
  split at done
  · simp at done
  · split at done
    · simp at done
    · dsimp only at done
      split at done
      · simp at done
      · exact (Prod.mk.inj done).2.symm
      · split at done
        · simp at done
        · exact (Prod.mk.inj done).2.symm

end Registration

section Failures
variable {host : Host} {env : Backing} {s : Memory}

theorem Same.refl (s : Memory) : Same s s := ⟨fun _ => Iff.rfl, rfl⟩

/-- The end of `libos_mmap` fails exactly if one of its calls does, and frees no block. -/
theorem remap_error :
    (∃ e, (remap host env addr length prot fd s).1 = .error e) ↔
    host.munmap addr length = false ∨ host.mmap addr length (transProtflag prot) ≠ addr ∨
      fd ≠ 0xffffffff ∧ env.Fails := by
  rw [← registerFileBackend_error env ⟨addr, fd⟩ s.regions]
  unfold remap
  by_cases unmapped : host.munmap addr length = false
  · simp [unmapped]
  · by_cases moved : host.mmap addr length (transProtflag prot) ≠ addr
    · simp [unmapped, moved]
    · by_cases anonymous : fd = 0xffffffff
      · simp [unmapped, moved, anonymous]
      · rcases registerFileBackend env
          ⟨addr, fd⟩ s.regions with ⟨_ | _, after⟩ <;> simp [unmapped, moved, anonymous]

theorem remap_live : (remap host env addr length prot fd s).2.live = s.live := by
  unfold remap
  split
  · rfl
  · split
    · rfl
    · split
      · rfl
      · split <;> rfl

variable (host env s) in
/-- Without a block nothing is mapped at the address 0. -/
theorem remap_null (length : Nat) (prot : ProtFlags) (fd : Fd) :
    remap host env 0 length prot fd s = (.error (.libcErr "munmap failed"), s) ∨
    remap host env 0 length prot fd s = (.error (.libcErr "mmap failed"), s) := by
  unfold remap
  split
  · exact .inl rfl
  · exact .inr (if_pos (host.nonnull length (transProtflag prot)))

end Failures

section Successes
variable {b : Build} {host : Host} {env : Backing} {s t : Memory}

/-- Every registered region starts at a live allocation. -/
def Memory.Sound (s : Memory) : Prop :=
  ∀ region ∈ s.regions, ∃ block ∈ s.live, block.addr = region.startAddr

theorem remap_ok (done : remap host env addr length prot fd s = (.ok ptr, t)) :
    ptr = addr ∧ t.live = s.live ∧
      (t.regions = s.regions ∨ t.regions = s.regions ++ [⟨ptr, fd⟩]) := by
  unfold remap at done
  split at done
  · simp at done
  · split at done
    · simp at done
    · split at done
      · cases done
        exact ⟨rfl, rfl, .inl rfl⟩
      · split at done
        · simp at done
        · next registered =>
          cases done
          exact ⟨rfl, rfl, .inr (registerFileBackend_ok _ _ _ registered)⟩

/-- What a mapping with the address 0 adds; a region only if there is a file. -/
theorem libosMmap_ok (done : libosMmap host env 0 length prot fd s = (.ok ptr, t)) :
    ptr = host.alloc ⟨length, PAGE_SIZE⟩ ∧ ptr ≠ 0 ∧ t.live = ⟨ptr, ⟨length, PAGE_SIZE⟩⟩ :: s.live ∧
      (t.regions = s.regions ∨ t.regions = s.regions ++ [⟨ptr, fd⟩]) := by
  unfold libosMmap Layout.fromSizeAlign at done
  split at done
  · simp at done
  · split at done
    · simp at done
    · next layout made =>
      split at made
      · obtain rfl := Option.some.inj made
        rw [if_pos rfl, Memory.alloc] at done
        by_cases null : host.alloc ⟨length, PAGE_SIZE⟩ = 0
        · rw [null, if_pos rfl] at done
          rcases remap_null host env s length prot fd with failed |
            failed <;> cases failed.symm.trans done
        · rw [if_neg null] at done
          obtain ⟨rfl, live, regions⟩ := remap_ok done
          exact ⟨rfl, null, live, regions⟩
      · cases made

theorem unregisterFileBackend_ok (done : unregisterFileBackend env addr regions = (.ok (), after)) :
    after = removeRegion regions addr := by
  unfold unregisterFileBackend at done
  split at done
  · simp at done
  · split at done
    · simp at done
    · simp at done
    · split at done
      · simp at done
      · exact (Prod.mk.inj done).2.symm

/-- What the unmapping of a file takes away. -/
theorem libosMunmap_ok (done : libosMunmap b host env addr length true s = some (.ok (), t)) :
    ∃ aligned, alignedLength b length = some aligned ∧
      t.live = s.live.erase ⟨addr, ⟨aligned, PAGE_SIZE⟩⟩ ∧
      t.regions = removeRegion s.regions addr := by
  unfold libosMunmap Layout.fromSizeAlign at done
  simp only [if_true] at done
  split at done
  · simp at done
  · next unregistered =>
    have removed := unregisterFileBackend_ok (Prod.ext unregistered rfl)
    obtain ⟨aligned, rounded, freed⟩ := Option.map_eq_some_iff.mp done
    refine ⟨aligned, rounded, ?_⟩
    split at freed
    · simp at freed
    · split at freed
      · simp at freed
      · next layout made =>
        split at made
        · obtain rfl := Option.some.inj made
          cases freed
          exact ⟨rfl, removed⟩
        · cases made

/-- The region that was registered last is the one that is removed. -/
theorem removeRegion_fresh (regions : List Region) (region : Region)
    (apart : ∀ other ∈ regions, other.startAddr ≠ addr) (own : region.startAddr = addr) :
    removeRegion regions addr = regions ∧ removeRegion (regions ++ [region]) addr = regions := by
  have none : ∀ other ∈ regions, ¬ (other.startAddr == addr) = true := by simpa using apart
  constructor
  · exact List.eraseP_of_forall_not none
  · rw [removeRegion, List.eraseP_append_right _ none]
    simp [own]

/-- A mapping that is taken away leaves the heap and the regions as they were: the length is rounded
in the same way on both sides. -/
theorem libosMunmap_libosMmap (sound : s.Sound) (fresh : host.Fresh s.live)
    (rounded : alignedLength b length = some aligned)
    (mapped : libosMmap host env 0 aligned prot fd s = (.ok ptr, t))
    (unmapped : libosMunmap b host' env' ptr length true t = some (.ok (), u)) : u = s := by
  obtain ⟨chosen, some, live, regions⟩ := libosMmap_ok mapped
  obtain ⟨_, same, freed, removed⟩ := libosMunmap_ok unmapped
  obtain rfl := Option.some.inj (rounded.symm.trans same)
  have apart : ∀ other ∈ s.regions, other.startAddr ≠ ptr := by
    intro other member here
    obtain ⟨block, there, start⟩ := sound other member
    exact fresh _ (chosen ▸ some) block there (start.trans (here.trans chosen))
  have restored := removeRegion_fresh s.regions ⟨ptr, fd⟩ apart rfl
  have heap : u.live = s.live := by rw [freed, live, List.erase_cons_head]
  have list : u.regions = s.regions := by
    rcases regions with kept | pushed
    · rw [removed, kept, restored.1]
    · rw [removed, pushed, restored.2]
  exact Memory.ext heap list

end Successes

/-- A failed `libos_mmap` with the address 0 leaves the heap and the list of regions as they were if
and only if it does not fail after it has allocated its block. -/
theorem failed_mmap_leaves_nothing_iff (host : Host) (env : Backing) (s : Memory)
    (fresh : host.Fresh s.live) (length : Nat) (prot : ProtFlags) (fd : Fd) :
    (∀ e t, libosMmap host env 0 length prot fd s = (.error e, t) → Same s t) ↔
      ¬ LateFailure host env length prot fd := by
  unfold libosMmap LateFailure Layout.fromSizeAlign
  by_cases whole : length % PAGE_SIZE = 0
  · by_cases fits : length ≤ 2 ^ 63 - PAGE_SIZE
    · simp only [whole, fits, Nat.lt_irrefl, if_false, if_true, true_and, Memory.alloc]
      by_cases null : host.alloc ⟨length, PAGE_SIZE⟩ = 0
      · simp only [null, if_true, ne_eq, not_true_eq_false, false_and, not_false_eq_true, iff_true]
        intro e t failed
        rcases remap_null host env s length prot fd with unmapped | moved
        · cases unmapped.symm.trans failed
          exact .refl s
        · cases moved.symm.trans failed
          exact .refl s
      · rw [if_neg null, ← remap_error
          (s := { s with live := ⟨host.alloc ⟨length, PAGE_SIZE⟩, ⟨length, PAGE_SIZE⟩⟩ :: s.live })]
        constructor
        · rintro restored ⟨_, e, failed⟩
          have same := restored e _ (Prod.ext failed rfl)
          have live :=
            (same.1 ⟨host.alloc ⟨length, PAGE_SIZE⟩, ⟨length, PAGE_SIZE⟩⟩).mp
              (by rw [remap_live]; exact List.mem_cons_self)
          exact fresh _ null _ live rfl
        · intro succeeds e t failed
          exact absurd ⟨null, e, congrArg Prod.fst failed⟩ succeeds
    · simp only [whole, fits, Nat.lt_irrefl, if_false, false_and, and_false, not_false_eq_true,
        iff_true]
      intro e t failed
      cases failed
      exact .refl s
  · simp only [whole, Nat.pos_of_ne_zero whole, if_true, false_and, not_false_eq_true, iff_true]
    intro e t failed
    cases failed
    exact .refl s

/-- A host whose calls succeed, with one block to hand out. -/
def onePage : Host where
  alloc _ := 0x1000
  munmap _ _ := true
  mmap addr _ _ := if addr = 0 then 0x7f0000000000 else addr
  nonnull _ _ := Nat.succ_ne_zero _
  mprotect _ _ _ := true

/-- The first registration, with the answer for the pipe. -/
def firstRegistration (created : Except String Unit) : Backing :=
  ⟨.ok (), .ok (), true, .ok false, .ok (), .ok false, .ok false, created, .ok ()⟩

/-- A length that is not a multiple of the page size fails before anything is allocated. -/
theorem odd_length_leaves_nothing :
    libosMmap onePage (firstRegistration (.ok ())) 0 1 ProtFlags.READ 3 ⟨[], []⟩ =
      (.error (.invaildArg "length % PAGE_SIZE == 0" 1), ⟨[], []⟩) ∧ Same ⟨[], []⟩ ⟨[], []⟩ := by
  refine ⟨rfl, (failed_mmap_leaves_nothing_iff onePage (firstRegistration (.ok ()))
    ⟨[], []⟩ ?_ 1 ProtFlags.READ 3).mpr ?_ _ _ rfl⟩
  · intro _ _ block member
    simp at member
  · rintro ⟨odd, _⟩
    simp [PAGE_SIZE] at odd

/-- There is no file descriptor for the pipe: the block stays allocated and its region
registered. -/
theorem failed_pipe_leaves_both :
    ∃ e t, libosMmap onePage (firstRegistration (.error "EMFILE")) 0 0x1000 ProtFlags.READ 3
      ⟨[], []⟩ =
    (.error e, t) ∧ t.live = [⟨0x1000, ⟨0x1000, PAGE_SIZE⟩⟩] ∧ t.regions = [⟨0x1000, 3⟩] ∧
      ¬ Same ⟨[], []⟩ t := by
  refine ⟨_, _, rfl, rfl, rfl, fun same => ?_⟩
  cases same.2

end AlloyStack.Mm.Mmap
