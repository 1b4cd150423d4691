import AlloyStack.AsStd.Mmap
import AlloyStack.Library.Rounding
import AlloyStack.Visor.FunctionArgs

/-! Rounding to pages: the macros `round_up!` and `round_down!` of the visor, and the places of
as_std and of the services that write the same arithmetic out again. All of them add the page size
before they subtract one, so that the sum can overflow where the rounded value would not. -/
namespace AlloyStack.Visor.PageRounding
open Rust
open AlloyStack.MmapFileBackend (complement doPageFault readAtOffset Fault Pager)
open AlloyStack.Mm.Mmap (Host MMError ProtFlags transProtflag alignedLength)

/-- `(x + page_size - 1) & (!page_size + 1)`, where `none` is the panic of a checked build. -/
def maskUp (b : Build) (pageSize x : Nat) : Option Nat :=
  (b.add x pageSize).bind fun sum => (b.sub sum 1).map fun last =>
    last &&& ((complement pageSize + 1) % word)

/-- `x & (!page_size + 1)` -/
def maskDown (pageSize x : Nat) : Nat := x &&& ((complement pageSize + 1) % word)

/-- `utils::PAGE_SIZE` -/
def PAGE_SIZE : Nat := 0x1000

/-- `round_up!` -/
def roundUp (b : Build) (x : Nat) : Option Nat := maskUp b PAGE_SIZE x

/-- `round_down!` -/
def roundDown (x : Nat) : Nat := maskDown PAGE_SIZE x

/-- `aligned_length` of `Mmap::mmap_file` -/
def mmapFileLength (b : Build) (length : Nat) : Option Nat := maskUp b 0x1000 length

/-- `aligned_length` of `libos_munmap` -/
def munmapLength (b : Build) (length : Nat) : Option Nat := maskUp b Mm.Mmap.PAGE_SIZE length

/-- `aligned_length` of `libos_mprotect` -/
def mprotectLength (b : Build) (length : Nat) : Option Nat := maskUp b Mm.Mmap.PAGE_SIZE length

def libosMprotect (b : Build) (host : Host) (addr length : Nat) (prot : ProtFlags) :
    Option (Except MMError Unit) :=
  (mprotectLength b length).map fun aligned =>
    if !host.mprotect addr aligned (transProtflag prot) then .error (.libcErr "mprotect failed")
    else .ok ()

/-- `args_base_addr` of `args::get` -/
def argsBase (b : Build) (rsp : Nat) : Option Nat := maskUp b 0x1000 rsp

/-- `aligned_offset` of `do_page_fault` -/
def faultOffset (offset : Nat) : Nat := maskDown MmapFileBackend.PAGE_SIZE offset

/-- `dst` of `do_page_fault`, which is masked by `!(PAGE_SIZE - 1)`. -/
def faultDst (addr : Nat) : Nat := addr &&& complement (MmapFileBackend.PAGE_SIZE - 1)

/-- The macros round to the nearest multiples of the page size, and the other places agree with
them. -/
structure RoundsPages (b : Build) (x : Nat) : Prop where
  up : ∃ upper, roundUp b x = some upper ∧ IsLeast {m | PAGE_SIZE ∣ m ∧ x ≤ m} upper ∧
    roundDown x ≤ upper ∧ upper - roundDown x ≤ PAGE_SIZE
  down : IsGreatest {m | PAGE_SIZE ∣ m ∧ m ≤ x} (roundDown x)
  lengths : mmapFileLength b x = roundUp b x ∧ munmapLength b x = roundUp b x ∧
    mprotectLength b x = roundUp b x
  args : argsBase b x = roundUp b x
  faults : faultOffset x = roundDown x ∧ faultDst x = roundDown x

section Uses

/-- The lengths of `Mmap.mmapFile` and `libosMunmap` are rounded so. -/
theorem alignedLength_eq (b : Build) :
    alignedLength b = mmapFileLength b ∧ alignedLength b = munmapLength b :=
  ⟨rfl, rfl⟩

theorem doPageFault_eq (f : Fault) (s : Pager) :
    (doPageFault f s).1.1 = faultDst f.addr ∧ (doPageFault f s).2 =
      readAtOffset f f.mapping.region.srcFd
        (faultOffset (f.addr - f.mapping.region.startAddr) % 2 ^ 32) s :=
  ⟨rfl, rfl⟩

end Uses

section Masks

theorem maskDown_eq (small : x < word) : maskDown PAGE_SIZE x = x / PAGE_SIZE * PAGE_SIZE := by
  have mask : (complement PAGE_SIZE + 1) % word = (2 ^ (64 - 12) - 1) * 2 ^ 12 := rfl
  rw [maskDown, mask, Rounding.and_mask small]
  rfl

theorem faultDst_eq (x : Nat) : faultDst x = roundDown x := by
  have mask : complement (MmapFileBackend.PAGE_SIZE - 1) = (complement PAGE_SIZE + 1) % word := rfl
  rw [faultDst, mask]
  rfl

/-- The sum overflows at the last page, where a checked build panics and another one wraps around
and back. -/
theorem maskUp_eq (b : Build) (fits : x + 4095 < 2 ^ 64) :
    maskUp b PAGE_SIZE x =
      if b.overflowChecks = true ∧ x = 2 ^ 64 - 4096 then none
        else some ((x + (PAGE_SIZE - 1)) / PAGE_SIZE * PAGE_SIZE) := by
  have masked : maskDown PAGE_SIZE (x + 4095) = (x + (PAGE_SIZE - 1)) / PAGE_SIZE * PAGE_SIZE :=
    maskDown_eq fits
  by_cases last : x = 2 ^ 64 - 4096
  · subst last
    cases b with
    | mk checks => cases checks <;> rfl
  · have sum : b.add x PAGE_SIZE = some (x + 4096) :=
      b.add_eq (by simp only [word, PAGE_SIZE]; omega)
    have less : b.sub (x + 4096) 1 = some (x + 4095) :=
      b.sub_eq (by omega) (by simp only [word]; omega)
    rw [if_neg fun both => last both.2, maskUp, sum, Option.bind_some, less, Option.map_some,
      ← masked]
    rfl

end Masks

/-- The address that `args::get` computes in a build without overflow checks. -/
theorem argsBase_release (rsp : BitVec 64) :
    argsBase release rsp.toNat = some (FunctionArgs.argsBaseAddr rsp).toNat := by
  have mask : (~~~0x1000#64 + 1#64).toNat = (complement 0x1000 + 1) % word := by decide
  have sum : (rsp + 0x1000#64 - 1#64).toNat = ((rsp.toNat + 0x1000) % word + word - 1) % word := by
    rw [BitVec.toNat_sub, BitVec.toNat_add]
    simp only [BitVec.toNat_ofNat, word]
    omega
  simp only [argsBase, maskUp, Build.add, Build.sub, release, FunctionArgs.argsBaseAddr,
    BitVec.toNat_and, sum, mask, Bool.false_eq_true, false_and, if_false, Option.bind_some,
    Option.map_some]

/-- Pages are rounded right everywhere but at the last page of the address space in a build with
overflow checks. -/
theorem rounds_pages_iff (b : Build) (x : Nat) (fits : x + 4095 < 2 ^ 64) :
    RoundsPages b x ↔ (b.overflowChecks = true → x ≠ 2 ^ 64 - 4096) := by
  have up : roundUp b x = _ := maskUp_eq b fits
  have down : roundDown x = x / PAGE_SIZE * PAGE_SIZE := maskDown_eq (by simp only [word]; omega)
  have positive : 0 < PAGE_SIZE := by decide
  constructor
  · rintro right checks rfl
    obtain ⟨upper, rounded, -⟩ := right.up
    rw [up, if_pos ⟨checks, rfl⟩] at rounded
    cases rounded
  · intro apart
    rw [if_neg fun both => apart both.1 both.2] at up
    have least := Rounding.isLeast_up x positive
    have greatest := Rounding.isGreatest_down x PAGE_SIZE
    have step := Rounding.up_le_down_add x positive
    refine ⟨⟨_, up, least, ?_, ?_⟩, ?_, ⟨rfl, rfl, rfl⟩, rfl, rfl, faultDst_eq x⟩
    · rw [down]
      exact greatest.1.2.trans least.1.2
    · rw [down]
      omega
    · rw [down]
      exact greatest

theorem middle_rounded : RoundsPages debug 0x1001 :=
  (rounds_pages_iff debug 0x1001 (by decide)).mpr fun _ => by decide

/-- `round_up!(0xffff_ffff_ffff_f000)` overflows although the value is a multiple of the page
size. -/
theorem last_page_panics : ¬ ∀ b x, x + 4095 < 2 ^ 64 → RoundsPages b x := by
  intro all
  obtain ⟨upper, rounded, -⟩ := (all debug (2 ^ 64 - 4096) (by decide)).up
  have panics : roundUp debug (2 ^ 64 - 4096) = none := rfl
  cases panics.symm.trans rounded

end AlloyStack.Visor.PageRounding
