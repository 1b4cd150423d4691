import Mathlib.Data.List.Basic
import Mathlib.Data.Nat.ModEq
import AlloyStack.Library.Rounding
import AlloyStack.Library.Rust

/-! The arguments of a user function: `UserStack::write_args` puts them at the top of the user
stack, and `args::get` looks for them from its own stack pointer. The memory is seen by pages:
what a page holds at its start, read as the vector of arguments, which is smaller than a page. -/
namespace AlloyStack.Visor.FunctionArgs

/-- `heapless::String<32>`. -/
def ShortString := { s : String // s.utf8ByteSize ≤ 32 }

structure ArgsItem where
  key : ShortString
  val : ShortString

/-- `heapless::Vec<ArgsItem, 16>`. -/
def ArgsVec := { items : List ArgsItem // items.length ≤ 16 }

/-- `BTreeMap<String, String>` as the sequence that its iterator yields. -/
structure ArgsMap where
  entries : List (String × String)
  sorted : entries.Pairwise fun first second => first.1 < second.1

def ArgsMap.get? (args : ArgsMap) (name : String) : Option String :=
  (args.entries.find? fun entry => entry.1 = name).map Prod.snd

def SERVICE_STACK_SIZE : Nat := 8 * 1024 * 1024

def PAGE_SIZE : Nat := 0x1000

structure UserStack where
  base : Nat
  aligned : PAGE_SIZE ∣ base
  inside : base + SERVICE_STACK_SIZE < 2 ^ 64

def UserStack.top (stack : UserStack) : Nat := stack.base + SERVICE_STACK_SIZE - PAGE_SIZE

/-- What the pages of the stack hold. -/
abbrev Pages := Nat → ArgsVec

/-- `heapless::String::from_str`. -/
def shortString (s : String) : Option ShortString :=
  if short : s.utf8ByteSize ≤ 32 then some ⟨s, short⟩ else none

/-- `ArgsItem::from_kv`; `none` is a panic. -/
def fromKv (k v : String) : Option ArgsItem :=
  (shortString k).bind fun key => (shortString v).map fun val => ⟨key, val⟩

theorem length_snoc_le {items : List ArgsItem} (room : items.length < 16) (item : ArgsItem) :
    (items ++ [item]).length ≤ 16 := by
  rw [List.length_append, List.length_singleton]
  omega

/-- `heapless::Vec::push`. -/
def ArgsVec.push (vec : ArgsVec) (item : ArgsItem) : Option ArgsVec :=
  if room : vec.1.length < 16 then some ⟨vec.1 ++ [item], length_snoc_le room item⟩ else none

/-- The loop of `write_args`. -/
def pushArgs (vec : ArgsVec) : List (String × String) → Option ArgsVec
  | [] => some vec
  | (k, v) :: rest =>
    (fromKv k v).bind fun item => (vec.push item).bind fun vec => pushArgs vec rest

def writeArgs (stack : UserStack) (args : ArgsMap) (pages : Pages) : Option Pages :=
  (pushArgs ⟨[], Nat.zero_le _⟩ args.entries).map fun vec => Function.update pages stack.top vec

/-- The address that `get` computes from its stack pointer. -/
def argsBaseAddr (rsp : BitVec 64) : BitVec 64 :=
  let pageSize := 0x1000#64
  (rsp + pageSize - 1#64) &&& (~~~pageSize + 1#64)

def get (pages : Pages) (rsp : BitVec 64) (name : String) : Option String :=
  ((pages (argsBaseAddr rsp).toNat).1.find? fun item => item.key.1 = name).map fun item =>
    item.val.1

/-- Where the stack pointer of running code is: `invoke_elf_symbol` starts sixteen bytes below
the top and pushes a return address. -/
def UserStack.Holds (stack : UserStack) (rsp : BitVec 64) : Prop :=
  stack.base ≤ rsp.toNat ∧ rsp.toNat + 24 ≤ stack.top

/-- The map is one that `write_args` accepts. -/
structure ArgsMap.Fits (args : ArgsMap) : Prop where
  few : args.entries.length ≤ 16
  short : ∀ entry ∈ args.entries, entry.1.utf8ByteSize ≤ 32 ∧ entry.2.utf8ByteSize ≤ 32

/-- Page rounding by the mask of the code. -/
theorem mask_toNat (x : BitVec 64) :
    (x &&& (~~~0x1000#64 + 1#64)).toNat = x.toNat / 0x1000 * 0x1000 := by
  have mask : (~~~0x1000#64 + 1#64).toNat = (2 ^ (64 - 12) - 1) * 2 ^ 12 := by decide
  rw [BitVec.toNat_and, mask, Rounding.and_mask x.isLt]
  rfl

theorem argsBaseAddr_toNat (small : rsp.toNat + 0x1000 < 2 ^ 64) :
    (argsBaseAddr rsp).toNat = (rsp.toNat + 0xFFF) / 0x1000 * 0x1000 := by
  have sum : (rsp + 0x1000#64 - 1#64).toNat = rsp.toNat + 0xFFF := by
    rw [BitVec.toNat_sub, BitVec.toNat_add]
    simp only [BitVec.toNat_ofNat]
    omega
  rw [argsBaseAddr, mask_toNat, sum]

section Get
variable {stack : UserStack} {args : ArgsMap} {rsp : BitVec 64}

theorem top_aligned (stack : UserStack) : 0x1000 ∣ stack.top := by
  obtain ⟨k, base⟩ := stack.aligned
  refine ⟨k + 2047, ?_⟩
  simp only [UserStack.top, base, SERVICE_STACK_SIZE, PAGE_SIZE]
  omega

/-- Rounding up finds the top from the last page below it, and from nowhere else. -/
theorem argsBaseAddr_eq_top_iff (held : stack.Holds rsp) :
    (argsBaseAddr rsp).toNat = stack.top ↔ stack.top < rsp.toNat + PAGE_SIZE := by
  obtain ⟨_, below⟩ := held
  obtain ⟨k, top⟩ := top_aligned stack
  have inside := stack.inside
  have room : stack.top + PAGE_SIZE = stack.base + SERVICE_STACK_SIZE := by
    simp only [UserStack.top, SERVICE_STACK_SIZE, PAGE_SIZE]
    omega
  simp only [PAGE_SIZE] at room ⊢
  rw [argsBaseAddr_toNat (by omega)]
  omega

def ArgsItem.pair (item : ArgsItem) : String × String := (item.key.1, item.val.1)

theorem fromKv_eq (short : k.utf8ByteSize ≤ 32 ∧ v.utf8ByteSize ≤ 32) :
    ∃ item, fromKv k v = some item ∧ item.pair = (k, v) := by
  refine ⟨⟨⟨k, short.1⟩, ⟨v, short.2⟩⟩, ?_, rfl⟩
  rw [fromKv, shortString, dif_pos short.1, shortString, dif_pos short.2]
  rfl

theorem push_eq {vec : ArgsVec} (room : vec.1.length < 16) (item : ArgsItem) :
    ∃ after, vec.push item = some after ∧ after.1 = vec.1 ++ [item] :=
  ⟨⟨vec.1 ++ [item], length_snoc_le room item⟩, by simp [ArgsVec.push, room], rfl⟩

/-- The entries are appended in the order of the map. -/
theorem pushArgs_eq {entries : List (String × String)}
    (short : ∀ entry ∈ entries, entry.1.utf8ByteSize ≤ 32 ∧ entry.2.utf8ByteSize ≤ 32)
    (vec : ArgsVec) (room : vec.1.length + entries.length ≤ 16) :
    ∃ after, pushArgs vec entries = some after ∧
      after.1.map ArgsItem.pair = vec.1.map ArgsItem.pair ++ entries := by
  induction entries generalizing vec with
  | nil => exact ⟨vec, rfl, by simp⟩
  | cons entry rest ih =>
    obtain ⟨k, v⟩ := entry
    simp only [List.length_cons] at room
    obtain ⟨item, made, pair⟩ := fromKv_eq (short _ List.mem_cons_self)
    obtain ⟨next, pushed, items⟩ := push_eq (by omega : vec.1.length < 16) item
    have shorter : next.1.length + rest.length ≤ 16 := by
      rw [items, List.length_append, List.length_singleton]
      omega
    obtain ⟨after, finished, pairs⟩ :=
      ih (fun entry member => short entry (List.mem_cons_of_mem _ member)) next shorter
    refine ⟨after, by simp only [pushArgs, made, Option.bind_some, pushed, finished], ?_⟩
    rw [pairs, items, List.map_append, List.append_assoc]
    simp [pair]

theorem writeArgs_eq (stack : UserStack) (fits : args.Fits) (before : Pages) :
    ∃ written, writeArgs stack args before = some written ∧
      (written stack.top).1.map ArgsItem.pair = args.entries := by
  obtain ⟨vec, pushed, pairs⟩ :=
    pushArgs_eq fits.short ⟨[], Nat.zero_le _⟩ (by simpa using fits.few)
  refine ⟨_, by rw [writeArgs, pushed]; rfl, ?_⟩
  simpa using pairs

/-- A lookup among the items is a lookup in the map that they were made of. -/
theorem find_pair (items : List ArgsItem) (name : String) :
    (items.find? fun item => item.key.1 = name).map (fun item => item.val.1) =
      ((items.map ArgsItem.pair).find? fun entry => entry.1 = name).map Prod.snd := by
  rw [List.find?_map, Option.map_map]
  rfl

/-- `get` answers as the map does, whatever the rest of the stack holds by then. -/
def Answers (stack : UserStack) (args : ArgsMap) (rsp : BitVec 64) : Prop :=
  ∀ before written pages, writeArgs stack args before = some written →
    pages stack.top = written stack.top →
    ∀ name, get pages rsp name = args.get? name

theorem answers_of_near (near : (argsBaseAddr rsp).toNat = stack.top) (fits : args.Fits) :
    Answers stack args rsp := by
  intro before written pages wrote kept name
  obtain ⟨known, same, pairs⟩ := writeArgs_eq stack fits before
  obtain rfl := Option.some.inj (same.symm.trans wrote)
  rw [get, near, kept, find_pair, pairs]
  rfl

/-- Elsewhere the stack may hold an empty vector, or one with an argument of its own. -/
theorem not_answers_of_far (far : (argsBaseAddr rsp).toNat ≠ stack.top) (fits : args.Fits) :
    ¬ Answers stack args rsp := by
  intro answers
  obtain ⟨written, wrote, _⟩ := writeArgs_eq stack fits fun _ => ⟨[], Nat.zero_le _⟩
  have found (vec : ArgsVec) (name : String) :
      (vec.1.find? fun item => item.key.1 = name).map (fun item => item.val.1) =
        args.get? name := by
    have answer := answers _ written (Function.update written (argsBaseAddr rsp).toNat vec) wrote
      (Function.update_of_ne (Ne.symm far) _ _) name
    rwa [get, Function.update_self] at answer
  have missing := found ⟨[], Nat.zero_le _⟩ "x"
  have present := found ⟨[⟨⟨"x", by decide⟩, ⟨"y", by decide⟩⟩], by decide⟩ "x"
  rw [← missing] at present
  exact absurd present (by decide)

/-- The lookup is right exactly while the caller's stack pointer is in the last page below the
arguments. -/
theorem args_get_iff (fits : args.Fits) (held : stack.Holds rsp) :
    Answers stack args rsp ↔ stack.top < rsp.toNat + PAGE_SIZE := by
  rw [← argsBaseAddr_eq_top_iff held]
  constructor
  · intro answers
    by_contra far
    exact not_answers_of_far far fits answers
  · intro near
    exact answers_of_near near fits

end Get

def lowStack : UserStack := ⟨0x10000000, ⟨0x10000, by decide⟩, by decide⟩

def oneArg : ArgsMap := ⟨[("id", "0")], List.pairwise_singleton _ _⟩

theorem oneArg_fits : oneArg.Fits := ⟨by decide, by decide⟩

/-- A call a few frames below the top. -/
theorem args_get_shallow : Answers lowStack oneArg 0x107FEF00#64 :=
  (args_get_iff oneArg_fits ⟨by decide, by decide⟩).mpr (by decide)

/-- A call with more than a page of frames below the top. -/
theorem args_get_deep :
    ¬ ∀ stack args rsp, args.Fits → UserStack.Holds stack rsp → Answers stack args rsp := by
  intro always
  have far : (argsBaseAddr 0x107FD000#64).toNat ≠ lowStack.top := by decide
  exact not_answers_of_far far oneArg_fits (always _ _ _ oneArg_fits ⟨by decide, by decide⟩)

end AlloyStack.Visor.FunctionArgs
