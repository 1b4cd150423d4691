import AlloyStack.Library.ProtectionKeys
import AlloyStack.Library.Rust
import AlloyStack.AsStd.LibosSwitch
import AlloyStack.Visor.PkeyAllocation

/-! The PKRU register from `invoke_elf_symbol` through `rust_main` and back, with the features
`mpk` of the function and `enable_mpk` of the visor. -/
namespace AlloyStack.Visor
open Rust ProtectionKeys AsStd

/-- Code that ends in a panic: in the code itself, or in the service function of its last
invocation. -/
inductive Broken where
  | here (before : Code)
  | inside (before : Code) (service : Broken)
  deriving DecidableEq, Repr

/-- The part of `libos_with_switch_mpk` before the service function. -/
def switchIn (cpu : Cpu) : Option Cpu := do
  let (pkru, cpu) ← pkeyRead cpu
  asm [.xorRcxRcx, .movRdxRcx, .wrpkru] { cpu with rax := (grantLibosPerm pkru).setWidth 64 }

def Broken.exec : Broken → Cpu → Option Cpu
  | .here before, cpu => before.exec cpu
  | .inside before service, cpu => ((before.exec cpu).bind switchIn).bind service.exec

/-- A run of the user's `main`. A panic returns to `rust_main` only with feature `unwinding`. -/
inductive UserRun (unwinding : Bool) where
  | returns (body : Code) (result : Except String Unit)
  | panics (caught : unwinding = true) (body : Broken)

/-- `rust_main`: the register when it returns, and the value that it returns. -/
def rustMain (run : UserRun unwinding) (cpu : Cpu) : Option (Cpu × Except String Unit) :=
  match run with
  | .returns body (.error e) =>
    (body.exec cpu).map fun cpu => (cpu, .error s!"function exec error: {e}")
  | .panics _ body => (body.exec cpu).map fun cpu => (cpu, .error "catch user function panic.")
  | .returns body (.ok ()) =>
    (body.exec cpu).bind fun cpu =>
      (asm [.wrpkru] { cpu with rax := 0, rcx := 0, rdx := 0 }).map fun cpu => (cpu, .ok ())

/-- `invoke_elf_symbol` up to the call of `rust_main`. -/
def enterFunction (pkey : Int) (cpu : Cpu) : Outcome Cpu :=
  ((grantFuncPerm 0xCFFFFFFC#32 pkey).mapErr fun e => s!"can't generate pkru: {e}").bind fun pkru =>
    Outcome.orPanic (asm [.xorRcxRcx, .movRdxRcx, .wrpkru] { cpu with rax := pkru.setWidth 64 })

/-- `rust_main` returns, and the visor code after it can access memory with any key. -/
def ReturnsPrivileged (run : UserRun unwinding) (start : Cpu) : Prop :=
  ∃ after result, rustMain run start = some (after, result) ∧ after.pkru = 0

theorem switchIn_pkru (cpu : Cpu) :
    ∃ after, switchIn cpu = some after ∧ after.pkru = grantLibosPerm cpu.pkru := by
  refine ⟨⟨(grantLibosPerm cpu.pkru).setWidth 64, 0, 0, grantLibosPerm cpu.pkru⟩, ?_, rfl⟩
  simp only [switchIn, pkeyRead_eq, Option.bind_eq_bind, Option.bind_some, asm_wrpkru]

/-- A panic leaves the register with or without the LibOS key, like code that returns. -/
theorem broken_pkru (body : Broken) (cpu : Cpu) :
    ∃ after, body.exec cpu = some after ∧
      (after.pkru = cpu.pkru ∨ after.pkru = grantLibosPerm cpu.pkru) := by
  induction body generalizing cpu with
  | here before => exact exec_pkru before cpu
  | inside before service ih =>
    obtain ⟨called, ran, value⟩ := exec_pkru before cpu
    obtain ⟨entered, switched, granted⟩ := switchIn_pkru called
    obtain ⟨after, panicked, last⟩ := ih entered
    have known : entered.pkru = grantLibosPerm cpu.pkru := by
      rcases value with same | again
      · rw [granted, same]
      · rw [granted, again, grant_idem]
    refine ⟨after, ?_, .inr ?_⟩
    · simp only [Broken.exec, ran, Option.bind_some, switched, panicked]
    · rcases last with same | again
      · rw [same, known]
      · rw [again, known, grant_idem]

/-- Whatever key a function has, another one is denied to it and stays so. -/
theorem entered_pkru (entered : enterFunction pkey cpu = .ok start) :
    start.pkru ≠ 0 ∧ grantLibosPerm start.pkru ≠ 0 := by
  obtain ⟨pkru, granted, entered⟩ := Outcome.bind_eq_ok.mp entered
  have granted := Outcome.mapErr_eq_ok.mp granted
  rw [asm_wrpkru] at entered
  obtain rfl := Outcome.ok.inj entered
  unfold grantFuncPerm at granted
  split at granted
  · obtain rfl := Outcome.ok.inj granted
    have other : ∃ key, key ≠ pkey.toNat ∧ key ≠ LIBOS_PKEY ∧
        keyBits 0xCFFFFFFC#32 key = 0b11#32 := by
      by_cases first : pkey.toNat = 1
      · exact ⟨2, by omega, by decide, by decide⟩
      · exact ⟨1, by omega, by decide, by decide⟩
    obtain ⟨key, own, libos, denied⟩ := other
    have kept : keyBits (allow 0xCFFFFFFC#32 pkey.toNat) key = 0b11#32 := by
      rw [keyBits_allow, if_neg own, denied]
    have kept' : keyBits (grantLibosPerm (allow 0xCFFFFFFC#32 pkey.toNat)) key = 0b11#32 := by
      rw [← kept]
      exact (keyBits_allow _ LIBOS_PKEY key).trans (if_neg libos)
    have zero : keyBits 0#32 key ≠ 0b11#32 := by simp [keyBits]
    constructor
    · intro same
      have cleared : allow 0xCFFFFFFC#32 pkey.toNat = 0#32 := same
      exact zero (cleared ▸ kept)
    · intro same
      have cleared : grantLibosPerm (allow 0xCFFFFFFC#32 pkey.toNat) = 0#32 := same
      exact zero (cleared ▸ kept')
  · cases granted

theorem rustMain_ok (body : Code) (cpu : Cpu) :
    ∃ after, rustMain (.returns body (.ok ()) : UserRun unwinding) cpu = some (after, .ok ()) ∧
      after.pkru = 0 := by
  obtain ⟨last, ran, _⟩ := exec_pkru body cpu
  refine ⟨⟨0, 0, 0, 0⟩, ?_, rfl⟩
  simp [rustMain, ran, asm, Instr.exec]

/-- Where `main` fails or panics, the register stays as the function had it. -/
theorem rustMain_failed (run : UserRun unwinding) (failed : ∀ body, run ≠ .returns body (.ok ()))
    (cpu : Cpu) :
    ∃ after result, rustMain run cpu = some (after, result) ∧
      (after.pkru = cpu.pkru ∨ after.pkru = grantLibosPerm cpu.pkru) := by
  rcases run with ⟨body, message | _⟩ | ⟨caught, body⟩
  · obtain ⟨after, ran, value⟩ := exec_pkru body cpu
    exact ⟨after, _, by simp only [rustMain, ran, Option.map_some]; rfl, value⟩
  · exact absurd rfl (failed body)
  · obtain ⟨after, ran, value⟩ := broken_pkru body cpu
    exact ⟨after, _, by simp only [rustMain, ran, Option.map_some]; rfl, value⟩

/-- Control returns to the visor with all keys exactly when `main` has returned `Ok`. -/
theorem returns_privileged_iff (entered : enterFunction pkey cpu = .ok start)
    (run : UserRun unwinding) :
    ReturnsPrivileged run start ↔ ∃ body, run = .returns body (.ok ()) := by
  constructor
  · rintro ⟨after, result, returned, privileged⟩
    by_contra failed
    obtain ⟨left, failure, same, value⟩ :=
      rustMain_failed run (fun body ok => failed ⟨body, ok⟩) start
    obtain ⟨rfl, -⟩ := Prod.mk.inj (Option.some.inj (same.symm.trans returned))
    have denied := entered_pkru entered
    rcases value with kept | granted
    · exact denied.1 (kept.symm.trans privileged)
    · exact denied.2 (granted.symm.trans privileged)
  · rintro ⟨body, rfl⟩
    obtain ⟨after, returned, privileged⟩ := @rustMain_ok unwinding body start
    exact ⟨after, _, returned, privileged⟩

/-- A function with key 1 that makes one call and returns. -/
theorem returns_privileged_hello : ∃ start, enterFunction 1 ⟨0, 0, 0, 0⟩ = .ok start ∧
    ReturnsPrivileged (.returns (.libos .done .done) (.ok ()) : UserRun false) start := by
  have entered : enterFunction 1 ⟨0, 0, 0, 0⟩ = .ok ⟨0xCFFFFFF0#64, 0, 0, 0xCFFFFFF0#32⟩ := by
    decide
  exact ⟨_, entered, (returns_privileged_iff entered _).mpr ⟨_, rfl⟩⟩

/-- The same function returns an error: the visor goes on with the register that the call has
left. -/
theorem failed_main_unprivileged :
    ¬ ∀ unwinding pkey cpu start, enterFunction pkey cpu = .ok start →
      ∀ run : UserRun unwinding, ReturnsPrivileged run start := by
  intro always
  obtain ⟨after, result, returned, privileged⟩ :=
    always false 1 ⟨0, 0, 0, 0⟩ _ rfl (.returns (.libos .done .done) (.error "no input"))
  have left := congrArg (Option.map fun pair => pair.1.pkru) returned
  rw [Option.map_some, privileged] at left
  exact absurd left (by decide)

end AlloyStack.Visor
