import Mathlib.Data.List.Basic
import Mathlib.Order.Lattice

/-! Blocks of addresses and the contract of an allocator: a block it hands out lies in its
region and meets no block that is still live. -/
namespace Blocks

/-- A non-empty range of addresses. -/
structure Block where
  start : Nat
  size : Nat
  nonempty : 0 < size
  deriving DecidableEq

def Block.stop (b : Block) : Nat := b.start + b.size

theorem Block.start_lt_stop (b : Block) : b.start < b.stop := Nat.lt_add_of_pos_right b.nonempty

def Block.Apart (b c : Block) : Prop := b.stop ≤ c.start ∨ c.stop ≤ b.start

instance (b c : Block) : Decidable (b.Apart c) := inferInstanceAs (Decidable (_ ∨ _))

theorem Block.Apart.start_ne {b c : Block} (apart : b.Apart c) : b.start ≠ c.start := by
  have := b.start_lt_stop
  have := c.start_lt_stop
  unfold Block.Apart at apart
  omega

/-- The part of a block from an address on. -/
def Block.above (b : Block) (cut : Nat) (high : cut < b.stop) : Block :=
  ⟨max b.start cut, b.stop - max b.start cut, Nat.sub_pos_of_lt (max_lt b.start_lt_stop high)⟩

theorem Block.above_stop (b : Block) (high : cut < b.stop) : (b.above cut high).stop = b.stop :=
  Nat.add_sub_cancel' (max_lt b.start_lt_stop high).le

theorem Block.Apart.above {b c : Block} (apart : b.Apart c) (high : cut < b.stop) :
    (b.above cut high).Apart c := by
  refine apart.imp (fun left => ?_) (fun right => ?_)
  · rwa [b.above_stop]
  · exact right.trans (le_max_left _ _)

theorem Block.not_apart_above (b : Block) (high : cut < b.stop) : ¬ b.Apart (b.above cut high) := by
  have stop := b.above_stop high
  have tail := (b.above cut high).start_lt_stop
  have head := b.start_lt_stop
  unfold Block.Apart
  omega

/-- An allocator with its region and its live blocks. -/
structure Pool where
  start : Nat
  size : Nat
  live : List Block
  inside : ∀ b ∈ live, start ≤ b.start ∧ b.stop ≤ start + size
  apart : live.Pairwise Block.Apart

namespace Pool

def fresh (start size : Nat) : Pool := ⟨start, size, [], by simp, .nil⟩

/-- What the allocator promises of a block it returns. -/
structure Admits (p : Pool) (b : Block) : Prop where
  inside : p.start ≤ b.start ∧ b.stop ≤ p.start + p.size
  apart : ∀ c ∈ p.live, b.Apart c

theorem fresh_admits {start size : Nat} {b : Block}
    (inside : start ≤ b.start ∧ b.stop ≤ start + size) : (fresh start size).Admits b :=
  ⟨inside, by simp [fresh]⟩

def give (p : Pool) (b : Block) (admitted : p.Admits b) : Pool where
  start := p.start
  size := p.size
  live := b :: p.live
  inside := by simpa using ⟨admitted.inside, p.inside⟩
  apart := .cons admitted.apart p.apart

def release (p : Pool) (b : Block) : Pool where
  start := p.start
  size := p.size
  live := p.live.erase b
  inside c member := p.inside c (List.mem_of_mem_erase member)
  apart := p.apart.sublist List.erase_sublist

end Pool

end Blocks
