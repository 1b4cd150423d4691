import Mathlib.Logic.Function.Basic
import AlloyStack.Library.LittleEndian

/-! A few instructions of x86-64: moves between registers and memory, and calls of code that is
given as a function on the states. A word takes eight bytes from its address on. None of the
instructions names a vector register, and the flags are left out. -/
namespace X86
open LittleEndian

abbrev Memory := Nat → UInt8

def storeWord (m : Memory) (a : Nat) (v : BitVec 64) : Memory := fun x =>
  if a ≤ x ∧ x < a + 8 then (encode 8 v.toNat).getD (x - a) 0 else m x

def bytesAt (m : Memory) (a n : Nat) : List UInt8 := (List.range n).map fun i => m (a + i)

def loadWord (m : Memory) (a : Nat) : BitVec 64 := .ofNat 64 (decode (bytesAt m a 8))

/-- The general-purpose registers. -/
inductive Reg where
  | rax | rbx | rcx | rdx | rsi | rdi | rbp | rsp
  | r8 | r9 | r10 | r11 | r12 | r13 | r14 | r15
  deriving DecidableEq, Repr

structure State where
  regs : Reg → BitVec 64
  xmm : Fin 16 → BitVec 128
  mem : Memory
  pkru : BitVec 32

inductive Instr where
  | sub (dst : Reg) (imm : Nat)
  | add (dst : Reg) (imm : Nat)
  | mov (dst src : Reg)
  | xor (dst src : Reg)
  | store (base : Reg) (disp : Nat) (src : Reg)
  | load (dst base : Reg) (disp : Nat)
  | wrpkru
  | call (target : Reg)
  deriving DecidableEq, Repr

def State.set (s : State) (r : Reg) (v : BitVec 64) : State :=
  { s with regs := Function.update s.regs r v }

/-- The address that an operand `[base + disp]` names. -/
def State.address (s : State) (base : Reg) (disp : Nat) : Nat :=
  (s.regs base + BitVec.ofNat 64 disp).toNat

section Execution
variable (code : BitVec 64 → State → Option State) (back : BitVec 64)

/-- One instruction; `none` is a fault. The code behind an address runs up to its `ret`, and `back`
is the return address that `call` pushes. -/
def Instr.exec (s : State) : Instr → Option State
  | .sub dst imm => some (s.set dst (s.regs dst - .ofNat 64 imm))
  | .add dst imm => some (s.set dst (s.regs dst + .ofNat 64 imm))
  | .mov dst src => some (s.set dst (s.regs src))
  | .xor dst src => some (s.set dst (s.regs dst ^^^ s.regs src))
  | .store base disp src =>
    some { s with mem := storeWord s.mem (s.address base disp) (s.regs src) }
  | .load dst base disp => some (s.set dst (loadWord s.mem (s.address base disp)))
  | .wrpkru =>
    if s.regs .rcx = 0 ∧ s.regs .rdx = 0 then some { s with pkru := (s.regs .rax).setWidth 32 }
    else none
  | .call target =>
    let pushed := s.set .rsp (s.regs .rsp - 8)
    code (s.regs target)
      { pushed with mem := storeWord s.mem (pushed.regs .rsp).toNat back }

def asm : List Instr → State → Option State
  | [], s => some s
  | i :: is, s => (i.exec code back s).bind (asm is)

end Execution

section Words
variable {m m' : Memory} {a b x : Nat} {v : BitVec 64}

end Words

section Blocks
variable {code : BitVec 64 → State → Option State} {back : BitVec 64} {s t : State}

@[simp] theorem set_mem (s : State) (r : Reg) (v : BitVec 64) : (s.set r v).mem = s.mem := rfl

@[simp] theorem set_xmm (s : State) (r : Reg) (v : BitVec 64) : (s.set r v).xmm = s.xmm := rfl

@[simp] theorem set_pkru (s : State) (r : Reg) (v : BitVec 64) : (s.set r v).pkru = s.pkru := rfl

/-- The registers that a frame of `size` bytes holds, with their offsets. -/
structure Slots (slots : List (Nat × Reg)) (size : Nat) : Prop where
  inside : ∀ slot ∈ slots, slot.1 + 8 ≤ size
  apart : slots.Pairwise fun first second =>
    (first.1 + 8 ≤ second.1 ∨ second.1 + 8 ≤ first.1) ∧ first.2 ≠ second.2

theorem Slots.tail {slot : Nat × Reg} {slots : List (Nat × Reg)} {size : Nat}
    (frame : Slots (slot :: slots) size) : Slots slots size :=
  ⟨fun other member => frame.inside other (.tail _ member), (List.pairwise_cons.mp frame.apart).2⟩

end Blocks

end X86
