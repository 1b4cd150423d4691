import AlloyStack.Wasi.DataBuffer
import AlloyStack.Wasi.Frame

/-! The addresses that the imports make of the pointers of a guest, compared with those of a host
that takes every pointer as an unsigned number. -/
namespace AlloyStack.Wasi
open Rust LinearMemory LittleEndian

section Pointers
variable {σ : Type} (h : Host σ)

/-- The pointer to what an import returns for a path, if the path can be opened. -/
def ifOpened (opened : Option (Option Fdtab.Fd × σ)) (p : I32) : List I32 :=
  match opened with
  | some (some _, _) => [p]
  | _ => []

/-- The pointers that an import follows after the conversion to `usize`. The buffer of `fd_readdir`
and the buffers of the records are not among them: they go through `u32`. -/
def Call.followed (w : World σ) : Call → List I32
  | .argsGet argv argvBuf => [argv, argvBuf]
  | .argsSizesGet argc argvBufSize => [argc, argvBufSize]
  | .clockTimeGet time => [time]
  | .fdPrestatGet fd retptr => if fd = 3 then [retptr] else []
  | .fdPrestatDirName fd pathAddr _ => if fd = 3 then [pathAddr] else []
  | .fdRead _ iovsPtr iovsLen retptr => if rounds iovsLen = 0 then [retptr] else [iovsPtr, retptr]
  | .fdReaddir _ _ _ _ bufused => [bufused]
  | .fdWrite _ iovsPtr iovsLen retptr => if rounds iovsLen = 0 then [retptr] else [iovsPtr, retptr]
  | .pathFilestatGet pathPtr pathLen buf =>
    pathPtr :: ifOpened ((readString pathPtr.toNat pathLen w.memory).bind fun path =>
      h.openFile path 0 Fdtab.OpenMode.RD w.libos) buf
  | .pathOpen pathAddr pathLen oflags rightsBase fdflags retptr =>
    pathAddr :: ifOpened ((readString pathAddr.toNat pathLen w.memory).bind fun path =>
      h.openFile path (openFlags fdflags oflags) (openMode rightsBase) w.libos) retptr
  | .randomGet buf _ => [buf]

/-- Every pointer that is followed is below 2 GiB. -/
def Low (pointers : List I32) : Prop := ∀ p ∈ pointers, p.toNat < 2 ^ 31

end Pointers

section Equal
variable {σ : Type} {h : Host σ} {w : World σ}

theorem low_cons : Low (p :: ps) ↔ p.toNat < 2 ^ 31 ∧ Low ps := List.forall_mem_cons

theorem low_nil : Low [] := fun _ member => absurd member List.not_mem_nil

theorem low_pair : Low [p, q] ↔ p.toNat < 2 ^ 31 ∧ q.toNat < 2 ^ 31 := by
  simp [Low]

theorem low_single : Low [p] ↔ p.toNat < 2 ^ 31 := by
  simp [Low]

/-- The pointers of a call on the root directory. -/
theorem root_low (low : fd = 3 → p.toNat < 2 ^ 31) : Low (if (fd : I32) = 3 then [p] else []) := by
  split
  · next root => exact low_single.mpr (low root)
  · exact low_nil

/-- The pointers of a call with records; without rounds no record is read. -/
theorem records_low (result : retptr.toNat < 2 ^ 31)
    (records : ∀ left, rounds iovsLen = left + 1 → iovsPtr.toNat < 2 ^ 31) :
    Low (if rounds iovsLen = 0 then [retptr] else [iovsPtr, retptr]) := by
  split
  · exact low_single.mpr result
  · next some =>
    obtain ⟨left, count⟩ := Nat.exists_eq_succ_of_ne_zero some
    exact low_pair.mpr ⟨records left count, result⟩

/-- What follows an `open` depends on the pointer only if the file is there. -/
theorem opened_congr {opened : Option (Option Fdtab.Fd × σ)} {f g : Option Fdtab.Fd × σ → Option β}
    (low : Low (ifOpened opened p)) (absent : ∀ libos, f (none, libos) = g (none, libos))
    (present : p.toNat < 2 ^ 31 → f = g) : opened.bind f = opened.bind g := by
  rcases opened with _ | ⟨_ | pathFd, libos⟩
  · rfl
  · exact absent libos
  · rw [present (low_single.mp low)]

theorem run_eq_of_low (c : Call) (low : Low (c.followed h w)) :
    c.run h asUsize w = c.run h UInt32.toNat w := by
  cases c with
  | argsGet argv argvBuf =>
    obtain ⟨first, second⟩ := low_pair.mp low
    simp only [Call.run, argsGet, asUsize_low first, asUsize_low second]
  | argsSizesGet argc argvBufSize =>
    obtain ⟨first, second⟩ := low_pair.mp low
    simp only [Call.run, argsSizesGet, asUsize_low first, asUsize_low second]
  | clockTimeGet time => simp only [Call.run, clockTimeGet, asUsize_low (low_single.mp low)]
  | fdPrestatGet fd retptr =>
    by_cases root : fd = 3
    · rw [Call.followed, if_pos root] at low
      simp only [Call.run, fdPrestatGet, asUsize_low (low_single.mp low)]
    · simp only [Call.run, fdPrestatGet, if_neg root]
  | fdPrestatDirName fd pathAddr pathLen =>
    by_cases root : fd = 3
    · rw [Call.followed, if_pos root] at low
      simp only [Call.run, fdPrestatDirName, asUsize_low (low_single.mp low)]
    · simp only [Call.run, fdPrestatDirName, if_neg root]
  | fdRead fd iovsPtr iovsLen retptr =>
    by_cases none : rounds iovsLen = 0
    · rw [Call.followed, if_pos none] at low
      simp only [Call.run, fdRead, none, readLoop, asUsize_low (low_single.mp low)]
    · rw [Call.followed, if_neg none] at low
      obtain ⟨records, result⟩ := low_pair.mp low
      simp only [Call.run, fdRead, asUsize_low records, asUsize_low result]
  | fdReaddir fd buf bufLen cookie bufused =>
    simp only [Call.run, fdReaddir, asUsize_low (low_single.mp low)]
  | fdWrite fd iovsPtr iovsLen retptr =>
    by_cases none : rounds iovsLen = 0
    · rw [Call.followed, if_pos none] at low
      simp only [Call.run, fdWrite, none, writeLoop, asUsize_low (low_single.mp low)]
    · rw [Call.followed, if_neg none] at low
      obtain ⟨records, result⟩ := low_pair.mp low
      simp only [Call.run, fdWrite, asUsize_low records, asUsize_low result]
  | pathFilestatGet pathPtr pathLen buf =>
    obtain ⟨path, result⟩ := low_cons.mp low
    simp only [Call.run, pathFilestatGet, asUsize_low path, Option.bind_eq_bind]
    generalize readString pathPtr.toNat pathLen w.memory = name at result ⊢
    cases name with
    | none => simp only [Option.bind_none]
    | some name =>
      simp only [Option.bind_some] at result ⊢
      exact opened_congr result (fun _ => rfl) fun low => by simp only [asUsize_low low]
  | pathOpen pathAddr pathLen oflags rightsBase fdflags retptr =>
    obtain ⟨path, result⟩ := low_cons.mp low
    simp only [Call.run, pathOpen, asUsize_low path, Option.bind_eq_bind]
    generalize readString pathAddr.toNat pathLen w.memory = name at result ⊢
    cases name with
    | none => simp only [Option.bind_none]
    | some name =>
      simp only [Option.bind_some] at result ⊢
      exact opened_congr result (fun _ => rfl) fun low => by simp only [asUsize_low low]
  | randomGet buf bufLen => simp only [Call.run, randomGet, asUsize_low (low_single.mp low)]

theorem readString_asUsize (addressed : memory.length ≤ 2 ^ 32)
    (found : readString (asUsize p) len memory = some name) :
    p.toNat < 2 ^ 31 := by
  simp only [readString, Option.bind_eq_bind, Option.bind_eq_some_iff] at found
  obtain ⟨n, -, bytes, loaded, -⟩ := found
  exact read_asUsize addressed loaded

theorem loop_low (count : n = left + 1) (addressed : w.memory.length ≤ 2 ^ 32)
    (ran : readLoop h fd (asUsize p) n 0 0 w = some result) : p.toNat < 2 ^ 31 := by
  subst count
  simp only [readLoop, Option.bind_eq_bind, Option.bind_eq_some_iff] at ran
  obtain ⟨iov, found, -⟩ := ran
  exact ciovec_asUsize addressed found

theorem pathFilestatGet_low (addressed : w.memory.length ≤ 2 ^ 32)
    (ran : pathFilestatGet h asUsize pathPtr pathLen buf w = some (errno, w')) :
    Low (Call.followed h w (.pathFilestatGet pathPtr pathLen buf)) := by
  simp only [pathFilestatGet, Option.bind_eq_bind, Option.bind_eq_some_iff, Prod.exists] at ran
  obtain ⟨name, named, opened, libos, answered, ran⟩ := ran
  have path := readString_asUsize addressed named
  rw [asUsize_low path] at named
  refine low_cons.mpr ⟨path, ?_⟩
  rw [named, Option.bind_some, answered]
  cases opened with
  | none => exact low_nil
  | some pathFd =>
    simp only [Option.bind_eq_some_iff, Prod.exists] at ran
    obtain ⟨stat, libos₁, -, libos₂, -, memory, written, -⟩ := ran
    exact low_single.mpr (write_asUsize addressed written).1

theorem pathOpen_low (addressed : w.memory.length ≤ 2 ^ 32)
    (ran : pathOpen h asUsize pathAddr pathLen oflags rightsBase fdflags retptr w =
      some (errno, w')) :
    Low (Call.followed h w (.pathOpen pathAddr pathLen oflags rightsBase fdflags retptr)) := by
  simp only [pathOpen, Option.bind_eq_bind, Option.bind_eq_some_iff, Prod.exists] at ran
  obtain ⟨name, named, opened, libos, answered, ran⟩ := ran
  have path := readString_asUsize addressed named
  rw [asUsize_low path] at named
  refine low_cons.mpr ⟨path, ?_⟩
  rw [named, Option.bind_some, answered]
  cases opened with
  | none => exact low_nil
  | some pathFd =>
    simp only [Option.bind_eq_some_iff] at ran
    obtain ⟨memory, written, -⟩ := ran
    exact low_single.mpr (write_asUsize addressed written).1

theorem run_low (c : Call) (addressed : w.memory.length ≤ 2 ^ 32)
    (ran : c.run h asUsize w = some (errno, w')) :
    Low (c.followed h w) := by
  cases c with
  | argsGet argv argvBuf =>
    simp only [Call.run, argsGet, Option.bind_eq_bind, Option.bind_eq_some_iff] at ran
    obtain ⟨args, state, memory, put, -⟩ := ran
    exact low_pair.mpr (putArgs_low addressed (wasiState_eq state).2 put)
  | argsSizesGet argc argvBufSize =>
    simp only [Call.run, argsSizesGet, Option.bind_eq_bind, Option.bind_eq_some_iff] at ran
    obtain ⟨args, -, memory, first, memory', second, -⟩ := ran
    obtain ⟨low, fits, rfl⟩ := write_asUsize addressed first
    exact low_pair.mpr ⟨low, (write_asUsize (by rwa [store_length fits]) second).1⟩
  | clockTimeGet time =>
    simp only [Call.run, clockTimeGet, Option.bind_eq_bind, Option.bind_eq_some_iff,
      Prod.exists] at ran
    obtain ⟨nanos, libos, -, memory, written, -⟩ := ran
    exact low_single.mpr (write_asUsize addressed written).1
  | fdPrestatGet fd retptr =>
    refine root_low fun root => ?_
    simp only [Call.run, fdPrestatGet, if_pos root, Option.bind_eq_bind,
      Option.bind_eq_some_iff] at ran
    obtain ⟨memory, written, -⟩ := ran
    exact (write_asUsize addressed written).1
  | fdPrestatDirName fd pathAddr pathLen =>
    refine root_low fun root => ?_
    simp only [Call.run, fdPrestatDirName, if_pos root, Option.bind_eq_bind,
      Option.bind_eq_some_iff] at ran
    obtain ⟨memory, written, -⟩ := ran
    exact (write_asUsize addressed written).1
  | fdRead fd iovsPtr iovsLen retptr =>
    simp only [Call.run, fdRead, Option.bind_eq_bind, Option.bind_eq_some_iff, Prod.exists] at ran
    obtain ⟨size, w₁, looped, memory, written, -⟩ := ran
    have result := (write_asUsize (by rwa [readLoop_length _ _ _ _ looped]) written).1
    exact records_low result fun left count => loop_low count addressed looped
  | fdReaddir fd buf bufLen cookie bufused =>
    simp only [Call.run, fdReaddir, Option.bind_eq_bind, Option.bind_eq_some_iff,
      Prod.exists] at ran
    obtain ⟨path, -, entries, libos, -, used, memory, filled, memory', written, -⟩ := ran
    exact low_single.mpr (write_asUsize (by rwa [putEntries_length filled]) written).1
  | fdWrite fd iovsPtr iovsLen retptr =>
    simp only [Call.run, fdWrite, Option.bind_eq_bind, Option.bind_eq_some_iff, Prod.exists] at ran
    obtain ⟨size, libos, looped, memory, written, -⟩ := ran
    refine records_low (write_asUsize addressed written).1 fun left count => ?_
    simp only [count, writeLoop, Option.bind_eq_bind, Option.bind_eq_some_iff] at looped
    obtain ⟨iov, found, -⟩ := looped
    exact ciovec_asUsize addressed found
  | pathFilestatGet pathPtr pathLen buf => exact pathFilestatGet_low addressed ran
  | pathOpen pathAddr pathLen oflags rightsBase fdflags retptr => exact pathOpen_low addressed ran
  | randomGet buf bufLen =>
    simp only [Call.run, randomGet, Option.bind_eq_bind, Option.bind_eq_some_iff] at ran
    obtain ⟨len, -, memory, written, -⟩ := ran
    exact low_single.mpr (write_asUsize addressed written).1

theorem register_low (addressed : (s.memories i).length ≤ 2 ^ 32)
    (ran : bufferRegister asUsize i base size offset len s = some t) : Low [base, offset] := by
  simp only [bufferRegister, Option.bind_eq_bind, Option.bind_eq_some_iff] at ran
  obtain ⟨name, named, bytes, sliced, -⟩ := ran
  exact low_pair.mpr ⟨readString_asUsize addressed named, read_asUsize addressed sliced⟩

theorem access_low (addressed : (s.memories i).length ≤ 2 ^ 32)
    (ran : accessBuffer r asUsize i base size offset len s = some t) : Low [base, offset] := by
  simp only [accessBuffer, Option.bind_eq_bind, Option.bind_eq_some_iff, Prod.exists] at ran
  obtain ⟨name, named, pointer, n, s', taken, ran⟩ := ran
  split at ran
  · cases ran
  simp only [Option.bind_eq_some_iff] at ran
  obtain ⟨memory, written, -⟩ := ran
  have same := (takeSlot_frame taken).1
  exact low_pair.mpr ⟨readString_asUsize addressed named, (write_asUsize (by rwa [same]) written).1⟩

/-- A call that returns with unsigned addresses returns the same from the code exactly when every
pointer that it follows is below 2 GiB. -/
theorem unsigned_iff (h : Host σ) (r : Remains) :
    (∀ (c : Call) (w : World σ) result, w.memory.length ≤ 2 ^ 32 →
      c.run h UInt32.toNat w = some result →
      (c.run h asUsize w = some result ↔ Low (c.followed h w))) ∧
    (∀ i base size offset len (s t : Process), (s.memories i).length ≤ 2 ^ 32 →
      bufferRegister UInt32.toNat i base size offset len s = some t →
      (bufferRegister asUsize i base size offset len s = some t ↔ Low [base, offset])) ∧
    ∀ i base size offset len (s t : Process), (s.memories i).length ≤ 2 ^ 32 →
      accessBuffer r UInt32.toNat i base size offset len s = some t →
      (accessBuffer r asUsize i base size offset len s = some t ↔ Low [base, offset]) := by
  refine ⟨fun c w result addressed unsigned => ?_,
    fun i base size offset len s t addressed unsigned => ?_,
    fun i base size offset len s t addressed unsigned => ?_⟩
  · exact ⟨run_low c addressed, fun low => (run_eq_of_low c low).trans unsigned⟩
  · refine ⟨register_low addressed, fun low => ?_⟩
    obtain ⟨first, second⟩ := low_pair.mp low
    rw [← unsigned]
    simp only [bufferRegister, asUsize_low first, asUsize_low second]
  · refine ⟨access_low addressed, fun low => ?_⟩
    obtain ⟨first, second⟩ := low_pair.mp low
    rw [← unsigned]
    simp only [accessBuffer, asUsize_low first, asUsize_low second]

end Equal

section Halves
variable {w : World Unit}

theorem clock_returns (p : I32) (inside : p.toNat + 16 ≤ w.memory.length) :
    ∃ result, (Call.clockTimeGet p).run (clockAt 7) UInt32.toNat w = some result := by
  have written :=
    write_eq_some.mpr ⟨show p.toNat + (encode 16 (asNanos 7)).length ≤ w.memory.length by
    rw [encode_length]; exact inside, rfl⟩
  refine ⟨(.success, { w with memory := store w.memory p.toNat (encode 16 (asNanos 7)) }), ?_⟩
  simp only [Call.run, clockTimeGet, clockAt, Option.bind_eq_bind, Option.bind_some, written]

theorem clock_panics (addressed : w.memory.length ≤ 2 ^ 32) :
    (Call.clockTimeGet 0x80000000).run (clockAt 7) asUsize w = none := by
  cases ran : (Call.clockTimeGet 0x80000000).run (clockAt 7) asUsize w with
  | none => rfl
  | some result =>
    have low := low_single.mp (run_low (.clockTimeGet 0x80000000) addressed ran)
    exact absurd low (by decide)

theorem wide_exists : ∃ w : World Unit, w.memory.length = 2 ^ 31 + 16 := by
  have length : (List.replicate (2 ^ 31 + 16) (0 : UInt8)).length = 2 ^ 31 + 16 :=
    List.length_replicate
  generalize List.replicate (2 ^ 31 + 16) (0 : UInt8) = memory at length
  exact ⟨guestOf memory, length⟩

/-- The last pointer of the lower half, in a guest with a little more than 2 GiB. -/
theorem lower_half : ∃ w : World Unit, w.memory.length = 2 ^ 31 + 16 ∧
    ∃ result, (Call.clockTimeGet 0x7fffffff).run (clockAt 7) asUsize w = some result := by
  obtain ⟨w, length⟩ := wide_exists
  obtain ⟨result, unsigned⟩ := clock_returns (w := w) 0x7fffffff (by rw [length]; decide)
  have low : Low (Call.followed (clockAt 7) w (.clockTimeGet 0x7fffffff)) :=
    low_single.mpr (by decide)
  have addressed : w.memory.length ≤ 2 ^ 32 := by rw [length]; decide
  exact ⟨w, length, result, ((unsigned_iff (clockAt 7) zeroed).1 _ w _ addressed unsigned).mpr low⟩

/-- The first pointer of the upper half: the address is inside the memory, and the import panics. -/
theorem upper_half : ∃ w : World Unit, w.memory.length = 2 ^ 31 + 16 ∧
    (∃ result, (Call.clockTimeGet 0x80000000).run (clockAt 7) UInt32.toNat w = some result) ∧
    (Call.clockTimeGet 0x80000000).run (clockAt 7) asUsize w = none := by
  obtain ⟨w, length⟩ := wide_exists
  exact ⟨w, length, clock_returns 0x80000000 (by rw [length]; decide),
    clock_panics (by rw [length]; decide)⟩

end Halves
end AlloyStack.Wasi
