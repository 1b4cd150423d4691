import AlloyStack.Library.X86
import AlloyStack.Library.Rust
import AlloyStack.Library.Utf8
import AlloyStack.Visor.FunctionArgs
import AlloyStack.Visor.PkeyAllocation

/-! The assembly of `invoke_elf_symbol`: it changes to the stack of a user function, calls its
`rust_main` and changes back. The pages and their keys are left out.

The assembly saves eight registers and declares its three inputs. It neither saves nor declares the
vector registers, nor `rax` when feature `enable_mpk` is off, although the comment there names it:
these hold what `rust_main` left in them. -/
namespace AlloyStack.Visor.Trampoline
open X86 Rust FunctionArgs
open ProtectionKeys (allow)

/-- Where the text of an error lies on the heap. -/
structure Text where
  address : Nat
  length : Nat

def Text.bytes (text : Text) (m : Memory) : List UInt8 := bytesAt m text.address text.length

/-- The end of `invoke_elf_symbol`. The text of an error need not be UTF-8. -/
def complete (name : String) (after : State) : Except (List UInt8) Unit → Except (List UInt8) State
  | .ok () => .ok after
  | .error e => .error (Utf8.encode s!"function {name} run failed: " ++ e)

section Invocation
variable (code : BitVec 64 → State → Option State) (back : BitVec 64)
-- The three words of a `Result<(), String>`: what they mean is up to the compiler.
variable (layout : List UInt8 → Except Text Unit)

end Invocation

/-- The bytes that the assembly writes: its frame, and two words at the top of the user stack. -/
def Written (stack : UserStack) (s : State) (x : Nat) : Prop :=
  (s.regs .rsp).toNat - 0x90 ≤ x ∧ x < (s.regs .rsp).toNat ∨ stack.top - 24 ≤ x ∧ x < stack.top

/-- The state in which `rust_main` starts. -/
structure Entered (mpk : Bool) (pkru : BitVec 32) (back : BitVec 64) (stack : UserStack)
    (s entered : State) : Prop where
  rsp : (entered.regs .rsp).toNat = stack.top - 24
  aligned : 16 ∣ (entered.regs .rsp).toNat + 8
  holds : stack.Holds (entered.regs .rsp)
  back : loadWord entered.mem (stack.top - 24) = back
  kept : ∀ x, ¬Written stack s x → entered.mem x = s.mem x
  xmm : entered.xmm = s.xmm
  pkru : entered.pkru = if mpk then pkru else s.pkru

/-- What `rust_main` starts with when the registers are saved. -/
def switched (mpk : Bool) (back : BitVec 64) (s : State) : State where
  regs r :=
    match r with
    | .rsp => s.regs .r12 - 8
    | .r11 => s.regs .r13
    | .rcx => if mpk then 0 else s.regs .rcx
    | .rdx => if mpk then 0 else s.regs .rdx
    | r => s.regs r
  xmm := s.xmm
  mem := storeWord (storeWord s.mem (s.address .r12 8) (s.regs .rsp)) (s.regs .r12 - 8).toNat back
  pkru := if mpk then (s.regs .rax).setWidth 32 else s.pkru

section Switch
variable {code : BitVec 64 → State → Option State} {back : BitVec 64} {s : State} {mpk : Bool}

end Switch

section Call
variable {mpk : Bool} {pkru : BitVec 32} {pkey : Int} {rustMain back : BitVec 64}
  {stack : UserStack} {s : State}

/-- The frame of the visor does not meet the top of the user stack. -/
def Apart (stack : UserStack) (s : State) : Prop :=
  0x90 ≤ (s.regs .rsp).toNat ∧
    ((s.regs .rsp).toNat ≤ stack.top - 24 ∨ stack.top ≤ (s.regs .rsp).toNat - 0x90)

end Call

/-- A stack in the middle of the memory. -/
def lowStack : UserStack := ⟨0x1000000, ⟨0x1000, rfl⟩, by decide⟩

/-- A visor with its stack pointer below that stack. -/
def visor : State := ⟨fun _ => 0x20000, fun _ => 0, fun _ => 0, 0⟩

/-- The text of a function that fails, when it is made. -/
def madeText (m : Memory) : Memory := storeWord m 0x3000000 0x656E6F

/-- A function that writes a text of three bytes to the heap and its error to its stack. The heap
then puts a size where the text was. -/
def failing (_ : BitVec 64) (s : State) : Option State :=
  let place := (s.regs .rsp).toNat - 24
  let made := storeWord (storeWord (storeWord (madeText s.mem) place 3) (place + 8) 0x3000000)
    (place + 16) 3
  some { (s.set .rax (s.regs .rsp - 24)).set .rsp (s.regs .rsp + 8) with
    mem := storeWord made 0x3000000 16, xmm := fun _ => 1 }

-- The visor reports three bytes of the free list in place of the text.
example : Text.bytes ⟨0x3000000, 3⟩ (madeText visor.mem) = Utf8.encode "one" ∧
    Text.bytes ⟨0x3000000, 3⟩ (storeWord (madeText visor.mem) 0x3000000 16) = [16, 0, 0] := by
  decide

end AlloyStack.Visor.Trampoline
