import AlloyStack.Wasi.Readdir

/-! Which bytes of the guest an import may change. -/
namespace AlloyStack.Wasi
open Rust LinearMemory LittleEndian

section Outputs
variable {σ : Type}

/-- The buffers of the records, as they are before the call. -/
def iovecs (memory : Bytes) (iovs n : Nat) : List (Nat × Nat) :=
  (List.range n).filterMap fun i => ciovec memory (iovs + i * 8)

/-- The output regions of WASI preview1, with unsigned addresses. -/
def Call.outputs (w : World σ) : Call → List (Nat × Nat)
  | .argsGet argv argvBuf =>
    let args := w.args.getD []
    [(argv.toNat, 4 * args.length), (argvBuf.toNat, (args.map fun arg => arg.length + 1).sum)]
  | .argsSizesGet argc argvBufSize => [(argc.toNat, 4), (argvBufSize.toNat, 4)]
  | .clockTimeGet time => [(time.toNat, 8)]
  | .fdPrestatGet _ retptr => [(retptr.toNat, 8)]
  | .fdPrestatDirName _ pathAddr pathLen => [(pathAddr.toNat, pathLen.toNat)]
  | .fdRead _ iovsPtr iovsLen retptr =>
    iovecs w.memory iovsPtr.toNat (rounds iovsLen) ++ [(retptr.toNat, 4)]
  | .fdReaddir _ buf bufLen _ bufused => [(buf.toNat, bufLen.toNat), (bufused.toNat, 4)]
  | .fdWrite _ _ _ retptr => [(retptr.toNat, 4)]
  | .pathFilestatGet _ _ buf => [(buf.toNat, 64)]
  | .pathOpen _ _ _ _ _ retptr => [(retptr.toNat, 4)]
  | .randomGet buf bufLen => [(buf.toNat, bufLen.toNat)]

/-- The memory is one of a 32-bit guest, and the buffer of `fd_readdir` is inside. -/
def Call.InRange (w : World σ) : Call → Prop
  | .fdReaddir _ buf bufLen _ _ =>
    buf.toNat + bufLen.toNat ≤ w.memory.length ∧ w.memory.length ≤ 2 ^ 32
  | _ => w.memory.length ≤ 2 ^ 32

variable (h : Host σ)

/-- No round of `fd_read` changes the record of a later one. -/
def Steady (fd : Fdtab.Fd) (iovs : Nat) (memory : Bytes) : (left i : Nat) → World σ → Prop
  | 0, _, _ => True
  | left + 1, i, w => ciovec w.memory (iovs + i * 8) = ciovec memory (iovs + i * 8) ∧
    ∀ buf bufLen data libos, ciovec w.memory (iovs + i * 8) = some (buf, bufLen) →
      h.read fd bufLen w.libos = some (data, libos) →
      Steady fd iovs memory left (i + 1) { w with memory := store w.memory buf data, libos }

/-- When an import keeps to its regions. The upper half of the time is there already, a name is not
cut to nothing, the records of `fd_read` stay as they are, and no length of `fd_readdir`
overflows. -/
def Call.Keeps (w : World σ) : Call → Prop
  | .clockTimeGet time => ∀ nanos libos, h.getTime w.libos = some (nanos, libos) →
    (encode 16 (asNanos nanos)).drop 8 = load w.memory (time.toNat + 8) 8
  | .fdPrestatDirName fd pathAddr pathLen =>
    fd = 3 → pathLen = 0 → load w.memory pathAddr.toNat 1 = [47]
  | .fdRead fd iovsPtr iovsLen _ => Steady h fd iovsPtr.toNat w.memory (rounds iovsLen) 0 w
  | .fdReaddir fd _ bufLen cookie _ => ∀ path entries libos, pathOf fd w = some path →
    h.readdir path w.libos = some (entries, libos) →
    NoWrap bufLen.toNat 0 ((sortedEntries entries).drop cookie.toNat)
  | _ => True

/-- An import whose writes go where its arguments say. -/
def Call.direct : Call → Bool
  | .fdRead .. => false
  | .fdReaddir .. => false
  | _ => true

end Outputs

section Confinement
variable {σ : Type} {h : Host σ} {w w' : World σ}

theorem write_confined (written : write memory start data = some memory')
    (member : (from', len) ∈ regions) (low : from' ≤ start)
    (high : start + data.length ≤ from' + len) : Confined regions memory memory' := by
  obtain ⟨fits, rfl⟩ := write_eq_some.mp written
  exact .store member low high fits

theorem putArgs_confined (args : List Bytes) (i offset : Nat) (memory : Bytes)
    (ran : putArgs argv argvBuf args i offset memory = some memory') (count : i + args.length ≤ n)
    (size : offset + (args.map fun arg => arg.length + 1).sum ≤ total) :
    Confined [(argv, 4 * n), (argvBuf, total)] memory memory' := by
  induction args generalizing i offset memory with
  | nil =>
    obtain rfl : memory = memory' := by simpa [putArgs] using ran
    exact .refl _ _
  | cons arg args ih =>
    simp only [putArgs, Option.bind_eq_bind, Option.bind_eq_some_iff] at ran
    obtain ⟨memory₁, first, memory₂, second, memory₃, third, rest⟩ := ran
    simp only [List.length_cons, List.map_cons, List.sum_cons] at count size
    have pointers : (argv, 4 * n) ∈ [(argv, 4 * n), (argvBuf, total)] := by simp
    have strings : (argvBuf, total) ∈ [(argv, 4 * n), (argvBuf, total)] := by simp
    have pointer := write_confined first pointers (by omega) (by rw [encode_length]; omega)
    have text := write_confined second strings (by omega) (by omega)
    have nul := write_confined third strings (by omega) (by rw [List.length_singleton]; omega)
    exact pointer.trans (text.trans (nul.trans (ih _ _ _ rest (by omega) (by omega))))

/-- Rounds that find the records unchanged store into their buffers. -/
theorem readLoop_confined (memory : Bytes) (left i size : Nat) (w : World σ)
    (ran : readLoop h fd iovs left i size w = some (size', w'))
    (steady : Steady h fd iovs memory left i w) (count : i + left ≤ n) :
    Confined (iovecs memory iovs n) w.memory w'.memory := by
  induction left generalizing i size w with
  | zero =>
    obtain ⟨rfl, rfl⟩ : size = size' ∧ w = w' := by simpa [readLoop] using ran
    exact .refl _ _
  | succ left ih =>
    simp only [readLoop, Option.bind_eq_bind, Option.bind_eq_some_iff, Prod.exists] at ran
    obtain ⟨buf, bufLen, record, slice, sliced, data, libos, delivered, rest⟩ := ran
    obtain ⟨same, later⟩ := steady
    have listed : (buf, bufLen) ∈ iovecs memory iovs n :=
      List.mem_filterMap.mpr ⟨i, List.mem_range.mpr (by omega), same ▸ record⟩
    have inside := (read_eq_some.mp sliced).1
    have short := data.2
    have stored : Confined (iovecs memory iovs n) w.memory (store w.memory buf data) :=
      .store listed (Nat.le_refl _) (by omega) (by omega)
    exact stored.trans (ih _ _ _ rest (later _ _ _ _ record delivered) (by omega))

theorem putArgs_low (addressed : memory.length ≤ 2 ^ 32) (some : args ≠ [])
    (put : putArgs (asUsize argv) (asUsize argvBuf) args 0 0 memory = .some memory') :
    argv.toNat < 2 ^ 31 ∧ argvBuf.toNat < 2 ^ 31 := by
  cases args with
  | nil => exact absurd rfl some
  | cons arg args =>
    simp only [putArgs, Option.bind_eq_bind, Option.bind_eq_some_iff] at put
    obtain ⟨memory₁, first, memory₂, second, -⟩ := put
    obtain ⟨low, fits, rfl⟩ := write_asUsize addressed first
    exact ⟨low, (write_asUsize (by rwa [store_length fits]) second).1⟩

theorem wasiState_eq (found : wasiState w = some args) : w.args = some args ∧ args ≠ [] := by
  simp only [wasiState, Option.bind_eq_bind, Option.bind_eq_some_iff] at found
  obtain ⟨args', present, nonempty⟩ := found
  split at nonempty
  · cases nonempty
  next some =>
    obtain rfl := Option.some.inj nonempty
    exact ⟨present, fun empty => some (by rw [empty]; rfl)⟩

theorem argsGet_confined (addressed : w.memory.length ≤ 2 ^ 32)
    (ran : argsGet asUsize argv argvBuf w = some (errno, w')) :
    Confined (Call.outputs w (.argsGet argv argvBuf)) w.memory w'.memory := by
  simp only [argsGet, Option.bind_eq_bind, Option.bind_eq_some_iff, Option.some.injEq,
    Prod.mk.injEq] at ran
  obtain ⟨args, state, memory, put, rfl, rfl⟩ := ran
  obtain ⟨found, nonempty⟩ := wasiState_eq state
  obtain ⟨low, low'⟩ := putArgs_low addressed nonempty put
  rw [asUsize_low low, asUsize_low low'] at put
  rw [Call.outputs, found]
  exact putArgs_confined args 0 0 w.memory put (by simp) (by simp)

theorem argsSizesGet_confined (addressed : w.memory.length ≤ 2 ^ 32)
    (ran : argsSizesGet asUsize argc argvBufSize w = some (errno, w')) :
    Confined (Call.outputs w (.argsSizesGet argc argvBufSize)) w.memory w'.memory := by
  simp only [argsSizesGet, Option.bind_eq_bind, Option.bind_eq_some_iff, Option.some.injEq,
    Prod.mk.injEq] at ran
  obtain ⟨args, -, memory, first, memory', second, rfl, rfl⟩ := ran
  obtain ⟨-, fits, rfl⟩ := write_asUsize addressed first
  obtain ⟨-, fits', rfl⟩ := write_asUsize (by rwa [store_length fits]) second
  have count : Confined (Call.outputs w (.argsSizesGet argc argvBufSize)) w.memory _ :=
    .store (List.mem_cons_self ..) (Nat.le_refl _) (by rw [encode_length]) fits
  exact count.trans (.store (List.mem_cons_of_mem _ (List.mem_singleton_self _)) (Nat.le_refl _)
    (by rw [encode_length]) fits')

theorem clockTimeGet_confined (addressed : w.memory.length ≤ 2 ^ 32)
    (ran : clockTimeGet h asUsize time w = some (errno, w')) :
    Confined (Call.outputs w (.clockTimeGet time)) w.memory w'.memory ↔
      (Call.clockTimeGet time).Keeps h w := by
  simp only [clockTimeGet, Option.bind_eq_bind, Option.bind_eq_some_iff, Option.some.injEq,
    Prod.mk.injEq, Prod.exists] at ran
  obtain ⟨nanos, libos, told, memory, written, rfl, rfl⟩ := ran
  obtain ⟨-, fits, rfl⟩ := write_asUsize addressed written
  have half := confined_store_iff 8 fits (by simp)
  rw [encode_length] at half
  refine half.trans ⟨fun same nanos' libos' told' => ?_, fun keeps => keeps nanos libos told⟩
  obtain ⟨rfl, -⟩ : nanos = nanos' ∧ libos = libos' := by simpa [told] using told'
  exact same

theorem fdPrestatGet_confined (addressed : w.memory.length ≤ 2 ^ 32)
    (ran : fdPrestatGet h asUsize fd retptr w = some (errno, w')) :
    Confined (Call.outputs w (.fdPrestatGet fd retptr)) w.memory w'.memory := by
  unfold fdPrestatGet at ran
  split at ran
  · simp only [Option.bind_eq_bind, Option.bind_eq_some_iff, Option.some.injEq,
      Prod.mk.injEq] at ran
    obtain ⟨memory, written, rfl, rfl⟩ := ran
    obtain ⟨-, fits, rfl⟩ := write_asUsize addressed written
    exact .store (List.mem_singleton_self _) (Nat.le_refl _) (by simp [prestat, pad]) fits
  · obtain ⟨-, rfl⟩ : _ = errno ∧ w = w' := by simpa using ran
    exact .refl _ _

theorem fdPrestatDirName_confined (h : Host σ) (fd pathAddr pathLen : I32)
    (addressed : w.memory.length ≤ 2 ^ 32)
    (ran : fdPrestatDirName asUsize fd pathAddr pathLen w = some (errno, w')) :
    Confined (Call.outputs w (.fdPrestatDirName fd pathAddr pathLen)) w.memory w'.memory ↔
      (Call.fdPrestatDirName fd pathAddr pathLen).Keeps h w := by
  unfold fdPrestatDirName at ran
  split at ran
  next root =>
    simp only [Option.bind_eq_bind, Option.bind_eq_some_iff, Option.some.injEq,
      Prod.mk.injEq] at ran
    obtain ⟨memory, written, rfl, rfl⟩ := ran
    obtain ⟨-, fits, rfl⟩ := write_asUsize addressed written
    by_cases empty : pathLen = 0
    · subst empty
      have none := confined_store_iff 0 fits (by simp)
      refine none.trans ⟨fun same _ _ => same.symm, fun keeps => (keeps root rfl).symm⟩
    · have positive : 0 < pathLen.toNat :=
        Nat.pos_of_ne_zero fun zero => empty (UInt32.toNat_inj.mp zero)
      refine ⟨fun _ _ zero => absurd zero empty, fun _ => ?_⟩
      exact .store (List.mem_singleton_self _) (Nat.le_refl _)
        (by rw [List.length_singleton]; omega) fits
  next other =>
    obtain ⟨-, rfl⟩ : _ = errno ∧ w = w' := by simpa using ran
    exact ⟨fun _ root => absurd root other, fun _ => .refl _ _⟩

theorem readLoop_length (left i size : Nat) (w : World σ)
    (ran : readLoop h fd p left i size w = some (size', w')) :
    w'.memory.length = w.memory.length := by
  induction left generalizing i size w with
  | zero =>
    obtain ⟨-, rfl⟩ : size = size' ∧ w = w' := by simpa [readLoop] using ran
    rfl
  | succ left ih =>
    simp only [readLoop, Option.bind_eq_bind, Option.bind_eq_some_iff, Prod.exists] at ran
    obtain ⟨buf, bufLen, -, slice, sliced, data, libos, -, rest⟩ := ran
    have inside := (read_eq_some.mp sliced).1
    have short := data.2
    exact (ih _ _ _ rest).trans (store_length (by omega))

/-- The records were read at an address below 2 GiB, or not at all. -/
theorem readLoop_low (addressed : w.memory.length ≤ 2 ^ 32)
    (ran : readLoop h fd (asUsize iovs) n 0 0 w = some (size, w')) :
    readLoop h fd iovs.toNat n 0 0 w = some (size, w') := by
  cases n with
  | zero => exact ran
  | succ n =>
    have looped := ran
    simp only [readLoop, Option.bind_eq_bind, Option.bind_eq_some_iff] at looped
    obtain ⟨record, found, -⟩ := looped
    rwa [asUsize_low (ciovec_asUsize addressed found)] at ran

theorem fdRead_confined (addressed : w.memory.length ≤ 2 ^ 32)
    (ran : fdRead h asUsize fd iovsPtr iovsLen retptr w = some (errno, w'))
    (steady : Steady h fd iovsPtr.toNat w.memory (rounds iovsLen) 0 w) :
    Confined (Call.outputs w (.fdRead fd iovsPtr iovsLen retptr)) w.memory w'.memory := by
  simp only [fdRead, Option.bind_eq_bind, Option.bind_eq_some_iff, Option.some.injEq, Prod.mk.injEq,
    Prod.exists] at ran
  obtain ⟨size, w₁, looped, memory, written, rfl, rfl⟩ := ran
  have buffers :=
    readLoop_confined w.memory _ 0 0 w (readLoop_low addressed looped) steady (Nat.zero_add _).le
  obtain ⟨-, fits, rfl⟩ := write_asUsize (by rwa [buffers.length]) written
  have filled : Confined (Call.outputs w (.fdRead fd iovsPtr iovsLen retptr)) w.memory w₁.memory :=
    buffers.mono fun region member => List.mem_append_left _ member
  exact filled.trans (.store (List.mem_append_right _ (List.mem_singleton_self _)) (Nat.le_refl _)
    (by rw [encode_length]) fits)

theorem fdReaddir_confined (placed : buf.toNat + bufLen.toNat ≤ w.memory.length)
    (addressed : w.memory.length ≤ 2 ^ 32)
    (ran : fdReaddir h asUsize fd buf bufLen cookie bufused w = some (errno, w'))
    (keeps : (Call.fdReaddir fd buf bufLen cookie bufused).Keeps h w) :
    Confined (Call.outputs w (.fdReaddir fd buf bufLen cookie bufused)) w.memory w'.memory := by
  simp only [fdReaddir, Option.bind_eq_bind, Option.bind_eq_some_iff, Option.some.injEq,
    Prod.mk.injEq, Prod.exists] at ran
  obtain ⟨path, opened, entries, libos, listed, used, memory, filled, memory', written, rfl, rfl⟩ :=
    ran
  obtain ⟨-, stored⟩ :=
    putEntries_spec filled (Nat.zero_le _) (fun _ => (Nat.add_zero _).symm) placed addressed
    (keeps path entries libos opened listed)
  have room : ((stream h.padding cookie.toNat ((sortedEntries entries).drop cookie.toNat)).take
      (bufLen.toNat - 0)).length ≤
      bufLen.toNat := by
    rw [List.length_take]
    omega
  generalize (stream h.padding cookie.toNat ((sortedEntries entries).drop cookie.toNat)).take
    (bufLen.toNat - 0) = out at stored room
  have records : Confined
      (Call.outputs w (.fdReaddir fd buf bufLen cookie bufused)) w.memory memory := by
    rw [stored]
    exact .store (List.mem_cons_self ..) (Nat.le_add_right _ 0) (by omega) (by omega)
  obtain ⟨-, fits, rfl⟩ := write_asUsize (by rwa [records.length]) written
  exact records.trans (.store (List.mem_cons_of_mem _ (List.mem_singleton_self _)) (Nat.le_refl _)
    (by rw [encode_length]) fits)

theorem fdWrite_confined (addressed : w.memory.length ≤ 2 ^ 32)
    (ran : fdWrite h asUsize fd iovsPtr iovsLen retptr w = some (errno, w')) :
    Confined (Call.outputs w (.fdWrite fd iovsPtr iovsLen retptr)) w.memory w'.memory := by
  simp only [fdWrite, Option.bind_eq_bind, Option.bind_eq_some_iff, Option.some.injEq,
    Prod.mk.injEq, Prod.exists] at ran
  obtain ⟨size, libos, -, memory, written, rfl, rfl⟩ := ran
  obtain ⟨-, fits, rfl⟩ := write_asUsize addressed written
  exact .store (List.mem_singleton_self _) (Nat.le_refl _) (by rw [encode_length]) fits

theorem pathFilestatGet_confined (addressed : w.memory.length ≤ 2 ^ 32)
    (ran : pathFilestatGet h asUsize pathPtr pathLen buf w = some (errno, w')) :
    Confined (Call.outputs w (.pathFilestatGet pathPtr pathLen buf)) w.memory w'.memory := by
  simp only [pathFilestatGet, Option.bind_eq_bind, Option.bind_eq_some_iff, Prod.exists] at ran
  obtain ⟨path, -, opened, libos, -, ran⟩ := ran
  cases opened with
  | none =>
    obtain ⟨-, rfl⟩ : _ = errno ∧ _ = w' := by simpa using ran
    exact .refl _ _
  | some pathFd =>
    simp only [Option.bind_eq_some_iff, Option.some.injEq, Prod.mk.injEq, Prod.exists] at ran
    obtain ⟨stat, libos₁, -, libos₂, -, memory, written, rfl, rfl⟩ := ran
    obtain ⟨-, fits, rfl⟩ := write_asUsize addressed written
    exact .store (List.mem_singleton_self _) (Nat.le_refl _) (by simp [filestat, pad]) fits

theorem pathOpen_confined (addressed : w.memory.length ≤ 2 ^ 32)
    (ran : pathOpen h asUsize pathAddr pathLen oflags rightsBase fdflags retptr w =
      some (errno, w')) :
    Confined (Call.outputs w (.pathOpen pathAddr pathLen oflags rightsBase fdflags retptr)) w.memory
      w'.memory := by
  simp only [pathOpen, Option.bind_eq_bind, Option.bind_eq_some_iff, Prod.exists] at ran
  obtain ⟨path, -, opened, libos, -, ran⟩ := ran
  cases opened with
  | none =>
    obtain ⟨-, rfl⟩ : _ = errno ∧ _ = w' := by simpa using ran
    exact .refl _ _
  | some pathFd =>
    simp only [Option.bind_eq_some_iff, Option.some.injEq, Prod.mk.injEq] at ran
    obtain ⟨memory, written, rfl, rfl⟩ := ran
    obtain ⟨-, fits, rfl⟩ := write_asUsize addressed written
    exact .store (List.mem_singleton_self _) (Nat.le_refl _) (by rw [encode_length]) fits

theorem randomBytes_length (n seed : Nat) : (randomBytes n seed).length = n := by
  induction n generalizing seed with
  | zero => rfl
  | succ n ih => rw [randomBytes, List.length_cons, ih]

theorem randomGet_confined (addressed : w.memory.length ≤ 2 ^ 32)
    (ran : randomGet asUsize buf bufLen w = some (errno, w')) :
    Confined (Call.outputs w (.randomGet buf bufLen)) w.memory w'.memory := by
  simp only [randomGet, capacity, Option.bind_eq_bind, Option.bind_eq_some_iff, Option.some.injEq,
    Prod.mk.injEq] at ran
  obtain ⟨len, counted, memory, written, rfl, rfl⟩ := ran
  split at counted
  · obtain rfl := Option.some.inj counted
    obtain ⟨-, fits, rfl⟩ := write_asUsize addressed written
    exact .store (List.mem_singleton_self _) (Nat.le_refl _) (by rw [randomBytes_length]) fits
  · cases counted

/-- Every call that returns keeps to its output regions under its condition, and a call that writes
where its arguments say does so only then. -/
theorem outputs_confined (ran : c.run h asUsize w = some (errno, w')) (inRange : Call.InRange w c) :
    (c.Keeps h w → Confined (c.outputs w) w.memory w'.memory) ∧
      (c.direct → Confined (c.outputs w) w.memory w'.memory → c.Keeps h w) := by
  cases c with
  | argsGet argv argvBuf => exact ⟨fun _ => argsGet_confined inRange ran, fun _ _ => trivial⟩
  | argsSizesGet argc argvBufSize =>
    exact ⟨fun _ => argsSizesGet_confined inRange ran, fun _ _ => trivial⟩
  | clockTimeGet time =>
    have half := clockTimeGet_confined inRange ran
    exact ⟨half.mpr, fun _ => half.mp⟩
  | fdPrestatGet fd retptr => exact ⟨fun _ => fdPrestatGet_confined inRange ran, fun _ _ => trivial⟩
  | fdPrestatDirName fd pathAddr pathLen =>
    have name := fdPrestatDirName_confined h fd pathAddr pathLen inRange ran
    exact ⟨name.mpr, fun _ => name.mp⟩
  | fdRead fd iovsPtr iovsLen retptr =>
    exact ⟨fdRead_confined inRange ran, fun direct => by cases direct⟩
  | fdReaddir fd buf bufLen cookie bufused =>
    exact ⟨fdReaddir_confined inRange.1 inRange.2 ran, fun direct => by cases direct⟩
  | fdWrite fd iovsPtr iovsLen retptr =>
    exact ⟨fun _ => fdWrite_confined inRange ran, fun _ _ => trivial⟩
  | pathFilestatGet pathPtr pathLen buf =>
    exact ⟨fun _ => pathFilestatGet_confined inRange ran, fun _ _ => trivial⟩
  | pathOpen pathAddr pathLen oflags rightsBase fdflags retptr =>
    exact ⟨fun _ => pathOpen_confined inRange ran, fun _ _ => trivial⟩
  | randomGet buf bufLen => exact ⟨fun _ => randomGet_confined inRange ran, fun _ _ => trivial⟩

end Confinement

/-- A libos that only tells the time. -/
def clockAt (nanos : Nat) : Host Unit :=
  { oneDirectory [] with getTime := fun _ => some (nanos, ()) }

def guestOf (memory : Bytes) : World Unit := ⟨memory, none, fun _ => none, ()⟩

/-- Eight zeros that follow the time stay zeros. -/
theorem clock_over_zeros :
    Call.Keeps (clockAt 7) (guestOf (List.replicate 16 0)) (.clockTimeGet 0) ∧
    ∃ w, (Call.clockTimeGet 0).run (clockAt 7) asUsize (guestOf (List.replicate 16 0)) =
      some (.success, w) ∧
      Confined [(0, 8)] (List.replicate 16 0) w.memory := by
  have keeps : Call.Keeps (clockAt 7) (guestOf (List.replicate 16 0)) (.clockTimeGet 0) := by
    intro nanos libos told
    obtain rfl : 7 = nanos := by simpa [clockAt] using told
    decide
  have inRange : Call.InRange (guestOf (List.replicate 16 0)) (.clockTimeGet 0) :=
    show List.length (List.replicate 16 (0 : UInt8)) ≤ 2 ^ 32 by decide
  exact ⟨keeps, _, rfl, (outputs_confined (c := .clockTimeGet 0) rfl inRange).1 keeps⟩

/-- The time takes sixteen bytes, so that data behind its eight is lost. -/
theorem clock_overruns :
    ∃ w, (Call.clockTimeGet 0).run (clockAt 7) asUsize (guestOf (List.replicate 16 255)) =
      some (.success, w) ∧
    (Call.clockTimeGet 0).outputs (guestOf (List.replicate 16 255)) = [(0, 8)] ∧
    ¬ Confined [(0, 8)] (List.replicate 16 255) w.memory := by
  refine ⟨_, rfl, rfl, fun confined => ?_⟩
  have kept := confined.outside 8 (by decide)
  revert kept
  decide

end AlloyStack.Wasi
