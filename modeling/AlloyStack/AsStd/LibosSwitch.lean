import AlloyStack.Library.ProtectionKeys

/-! The `libos!` macro with feature `mpk`: the LibOS key is granted by one assembly block
before the service function runs and is to be dropped by a second one after it. -/
namespace AlloyStack.AsStd
open ProtectionKeys

def LIBOS_PKEY : Nat := 0xF

def pkeyRead (cpu : Cpu) : Option (BitVec 32 × Cpu) :=
  (asm [.rdpkru] { cpu with rcx := 0 }).map fun cpu => (cpu.rax.setWidth 32, cpu)

def grantLibosPerm (pkru : BitVec 32) : BitVec 32 := pkru &&& ~~~mask LIBOS_PKEY

def dropLibosPerm (pkru : BitVec 32) : BitVec 32 := pkru ||| mask LIBOS_PKEY

/-- The `libos!` invocations a piece of code makes, in order. The code of the service
function of an invocation is again such a sequence, so that a value of this type is a
finite forest of nested invocations. Other instructions do not touch PKRU. -/
inductive Code where
  | done
  | libos (service : Code) (rest : Code)
  deriving DecidableEq, Repr

/-- `libos_with_switch_mpk`, around the execution of the service function. The second
assembly block has no `wrpkru` in it. -/
def libosWithSwitchMpk (service : Cpu → Option Cpu) (cpu : Cpu) : Option Cpu := do
  let (pkru, cpu) ← pkeyRead cpu
  let isPrivilegeLevel := pkru >>> 30 == 0#32
  let pkru := grantLibosPerm pkru
  let cpu ← asm [.xorRcxRcx, .movRdxRcx, .wrpkru] { cpu with rax := pkru.setWidth 64 }
  let cpu ← service cpu
  if !isPrivilegeLevel then
    let pkru := dropLibosPerm pkru
    asm [.xorRcxRcx, .movRdxRcx] { cpu with rax := pkru.setWidth 64 }
  else
    return cpu

def Code.exec : Code → Cpu → Option Cpu
  | .done, cpu => some cpu
  | .libos service rest, cpu => (libosWithSwitchMpk service.exec cpu).bind rest.exec

/-- The values of PKRU under which the code itself runs: before, between and after its
invocations. -/
def Code.pkruValues : Code → Cpu → List (BitVec 32)
  | .done, cpu => [cpu.pkru]
  | .libos service rest, cpu =>
    cpu.pkru :: ((libosWithSwitchMpk service.exec cpu).map rest.pkruValues).getD []

/-- What an invocation promises of PKRU: user code gets its value back, and code that holds
the LibOS key keeps it. -/
def Restores (service : Code) (cpu : Cpu) : Prop :=
  ∃ after, libosWithSwitchMpk service.exec cpu = some after ∧
    (keyBits cpu.pkru LIBOS_PKEY = 0b11#32 → after.pkru = cpu.pkru) ∧
    (keyBits cpu.pkru LIBOS_PKEY = 0b00#32 → keyBits after.pkru LIBOS_PKEY = 0b00#32)

theorem grant_idem (pkru : BitVec 32) :
    grantLibosPerm (grantLibosPerm pkru) = grantLibosPerm pkru := by
  simp only [grantLibosPerm, BitVec.and_assoc, BitVec.and_self]

theorem keyBits_grant (pkru : BitVec 32) : keyBits (grantLibosPerm pkru) LIBOS_PKEY = 0#32 :=
  (keyBits_allow pkru LIBOS_PKEY LIBOS_PKEY).trans (if_pos rfl)

theorem pkeyRead_eq (cpu : Cpu) :
    pkeyRead cpu = some (cpu.pkru,
      { cpu with rax := cpu.pkru.setWidth 64, rcx := 0, rdx := 0 }) := by
  simp [pkeyRead, asm, Instr.exec]

theorem asm_wrpkru (cpu : Cpu) (pkru : BitVec 32) :
    asm [.xorRcxRcx, .movRdxRcx, .wrpkru] { cpu with rax := pkru.setWidth 64 } =
      some ⟨pkru.setWidth 64, 0, 0, pkru⟩ := by
  simp [asm, Instr.exec]

/-- After any invocation the LibOS key is granted, whatever it was before: the second block
leaves PKRU as the service function left it. -/
theorem libos_pkru (service : Cpu → Option Cpu) (cpu : Cpu)
    (keeps : ∀ before, ∃ after, service before = some after ∧
      (after.pkru = before.pkru ∨ after.pkru = grantLibosPerm before.pkru)) :
    ∃ after, libosWithSwitchMpk service cpu = some after ∧
      after.pkru = grantLibosPerm cpu.pkru := by
  have granted (pkru : BitVec 32) : ∃ served,
      service ⟨(grantLibosPerm pkru).setWidth 64, 0, 0, grantLibosPerm pkru⟩ = some served ∧
      served.pkru = grantLibosPerm pkru := by
    obtain ⟨served, ran, value⟩ :=
      keeps ⟨(grantLibosPerm pkru).setWidth 64, 0, 0, grantLibosPerm pkru⟩
    simp only [grant_idem, or_self] at value
    exact ⟨served, ran, value⟩
  obtain ⟨served, ran, value⟩ := granted cpu.pkru
  simp only [libosWithSwitchMpk, pkeyRead_eq, Option.bind_eq_bind, Option.bind_some, asm_wrpkru,
    ran]
  split
  · exact ⟨_, rfl, value⟩
  · exact ⟨_, rfl, value⟩

theorem exec_pkru (code : Code) (cpu : Cpu) :
    ∃ after, code.exec cpu = some after ∧
      (after.pkru = cpu.pkru ∨ after.pkru = grantLibosPerm cpu.pkru) := by
  induction code generalizing cpu with
  | done => exact ⟨cpu, rfl, .inl rfl⟩
  | libos service rest inner outer =>
    obtain ⟨middle, called, granted⟩ := libos_pkru service.exec cpu inner
    obtain ⟨after, ran, value⟩ := outer middle
    refine ⟨after, by simp only [Code.exec, called, Option.bind_some, ran], .inr ?_⟩
    rcases value with same | again
    · exact same.trans granted
    · rw [again, granted, grant_idem]

theorem invocation_pkru (service : Code) (cpu : Cpu) :
    ∃ after, libosWithSwitchMpk service.exec cpu = some after ∧
      after.pkru = grantLibosPerm cpu.pkru :=
  libos_pkru service.exec cpu (exec_pkru service)

/-- The last value of PKRU under which code that made an invocation runs has the key
granted. -/
theorem pkruValues_libos (service rest : Code) (cpu : Cpu) :
    grantLibosPerm cpu.pkru ∈ (Code.libos service rest).pkruValues cpu := by
  obtain ⟨after, called, granted⟩ := invocation_pkru service cpu
  have first : after.pkru ∈ rest.pkruValues after := by cases rest <;> simp [Code.pkruValues]
  simp only [Code.pkruValues, called, Option.map_some, Option.getD_some, List.mem_cons]
  exact .inr (granted ▸ first)

theorem restores_iff (service : Code) (cpu : Cpu) :
    Restores service cpu ↔ keyBits cpu.pkru LIBOS_PKEY ≠ 0b11#32 := by
  obtain ⟨after, called, granted⟩ := invocation_pkru service cpu
  constructor
  · rintro ⟨after', called', user, _⟩ denied
    cases called.symm.trans called'
    have restored := congrArg (keyBits · LIBOS_PKEY) ((user denied).symm.trans granted)
    simp only [denied, keyBits_grant] at restored
    exact absurd restored (by decide)
  · intro privileged
    exact ⟨after, called, fun denied => absurd denied privileged,
      fun _ => by rw [granted, keyBits_grant]⟩

theorem isolated_iff (code : Code) (cpu : Cpu) :
    (∀ pkru ∈ code.pkruValues cpu, keyBits pkru LIBOS_PKEY = 0b11#32) ↔
      keyBits cpu.pkru LIBOS_PKEY = 0b11#32 ∧ code = .done := by
  cases code with
  | done => simp [Code.pkruValues]
  | libos service rest =>
    constructor
    · intro isolated
      have value := isolated _ (pkruValues_libos service rest cpu)
      rw [keyBits_grant] at value
      exact absurd value (by decide)
    · rintro ⟨_, none⟩
      nomatch none

/-- An invocation keeps its promise exactly when it was not started by user code, that is,
when the bits of the LibOS key were not `11`; and code that runs without the key all along is
user code that makes no invocation. -/
theorem libos_restores_iff (service code : Code) (cpu : Cpu) :
    (Restores service cpu ↔ keyBits cpu.pkru LIBOS_PKEY ≠ 0b11#32) ∧
    ((∀ pkru ∈ code.pkruValues cpu, keyBits pkru LIBOS_PKEY = 0b11#32) ↔
      keyBits cpu.pkru LIBOS_PKEY = 0b11#32 ∧ code = .done) :=
  ⟨restores_iff service cpu, isolated_iff code cpu⟩

/-- A user function with key 1 makes one call of a service that makes none: PKRU comes back
with the LibOS key enabled. -/
theorem libos_restores_fails :
    keyBits 0xCFFFFFF0#32 LIBOS_PKEY = 0b11#32 ∧
    (libosWithSwitchMpk Code.done.exec ⟨0, 0, 0, 0xCFFFFFF0#32⟩).map Cpu.pkru = some 0x0FFFFFF0#32 ∧
    ¬ Restores .done ⟨0, 0, 0, 0xCFFFFFF0#32⟩ := by
  refine ⟨by decide, by decide, ?_⟩
  rintro ⟨after, called, user, _⟩
  have value : (libosWithSwitchMpk Code.done.exec ⟨0, 0, 0, 0xCFFFFFF0#32⟩).map Cpu.pkru =
      some 0xCFFFFFF0#32 := by
    rw [called, Option.map_some, user (by decide)]
  exact absurd value (by decide)

end AlloyStack.AsStd
