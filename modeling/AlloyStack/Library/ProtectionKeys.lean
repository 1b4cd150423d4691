import Mathlib.Data.Nat.ModEq

/-! Memory protection keys of x86-64. The PKRU register holds two bits for each of sixteen
keys, `00` for full access and `11` for none, and only the `wrpkru` instruction changes it. -/
namespace ProtectionKeys

/-- The registers read and written by the two instructions on PKRU. -/
structure Cpu where
  rax : BitVec 64
  rcx : BitVec 64
  rdx : BitVec 64
  pkru : BitVec 32
  deriving DecidableEq, Repr

inductive Instr where
  | xorRcxRcx
  | movRdxRcx
  | rdpkru
  | wrpkru
  deriving DecidableEq, Repr

/-- `none` is the general-protection exception: `rdpkru` needs ECX to be zero, `wrpkru`
needs ECX and EDX to be zero. -/
def Instr.exec (instr : Instr) (cpu : Cpu) : Option Cpu :=
  match instr with
  | .xorRcxRcx => some { cpu with rcx := cpu.rcx ^^^ cpu.rcx }
  | .movRdxRcx => some { cpu with rdx := cpu.rcx }
  | .rdpkru =>
    if cpu.rcx.setWidth 32 = 0#32 then some { cpu with rax := cpu.pkru.setWidth 64, rdx := 0 }
    else none
  | .wrpkru =>
    if cpu.rcx.setWidth 32 = 0#32 ∧ cpu.rdx.setWidth 32 = 0#32 then
      some { cpu with pkru := cpu.rax.setWidth 32 }
    else none

/-- An inline-assembly block. -/
def asm : List Instr → Cpu → Option Cpu
  | [], cpu => some cpu
  | instr :: rest, cpu => (instr.exec cpu).bind (asm rest)

/-- The two bits of a key. -/
def keyBits (pkru : BitVec 32) (key : Nat) : BitVec 32 := (pkru >>> (2 * key)) &&& 0b11#32

def mask (key : Nat) : BitVec 32 := 0b11#32 <<< (2 * key)

def allow (pkru : BitVec 32) (key : Nat) : BitVec 32 := pkru &&& ~~~mask key

theorem low_bits (i : Nat) : (0b11#32).getLsbD i = decide (i < 2) := by
  rw [show (0b11#32) = BitVec.ofNat 32 (2 ^ 2 - 1) by rfl, BitVec.getLsbD_ofNat,
    Nat.testBit_two_pow_sub_one]
  by_cases small : i < 2
  · simp only [small, decide_true, Bool.and_true, decide_eq_true_eq]
    omega
  · simp [small]

theorem keyBits_bit (pkru : BitVec 32) (key i : Nat) :
    (keyBits pkru key).getLsbD i = (decide (i < 2) && pkru.getLsbD (2 * key + i)) := by
  rw [keyBits, BitVec.getLsbD_and, low_bits, BitVec.getLsbD_ushiftRight, Bool.and_comm]

theorem allow_bit (pkru : BitVec 32) (key i : Nat) :
    (allow pkru key).getLsbD i = (pkru.getLsbD i && !decide (2 * key ≤ i ∧ i < 2 * key + 2)) := by
  rw [allow, mask, BitVec.getLsbD_and, BitVec.getLsbD_not, BitVec.getLsbD_shiftLeft, low_bits]
  by_cases inside : i < 32
  · have range : (!decide (i < 2 * key) && decide (i - 2 * key < 2)) =
        decide (2 * key ≤ i ∧ i < 2 * key + 2) := by
      rw [Bool.eq_iff_iff]
      simp only [Bool.and_eq_true, Bool.not_eq_true', decide_eq_true_eq, decide_eq_false_iff_not]
      omega
    simp only [inside, decide_true, Bool.true_and, range]
  · simp [BitVec.getLsbD_of_ge pkru i (by omega)]

/-- Clearing the bits of one key grants that key and leaves the others alone. -/
theorem keyBits_allow (pkru : BitVec 32) (key other : Nat) :
    keyBits (allow pkru key) other = if other = key then 0#32 else keyBits pkru other := by
  apply BitVec.eq_of_getLsbD_eq
  intro i _
  rw [keyBits_bit, allow_bit]
  by_cases small : i < 2
  · split
    · subst other
      have inside : 2 * key ≤ 2 * key + i ∧ 2 * key + i < 2 * key + 2 := by omega
      simp [inside]
    · have outside : ¬ (2 * key ≤ 2 * other + i ∧ 2 * other + i < 2 * key + 2) := by omega
      simp only [keyBits_bit, outside, decide_false, Bool.not_false, Bool.and_true]
  · split
    · simp [small]
    · simp [keyBits_bit, small]

end ProtectionKeys
