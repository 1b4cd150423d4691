import Mathlib.Data.List.Basic
import Mathlib.Data.Nat.ModEq
import AlloyStack.Library.Text

/-! More of Rust's `str`: words, lines, and hexadecimal numbers with their printed form. -/
namespace Text

/-- `str::split_whitespace` -/
def splitWhitespace (s : List Char) : List (List Char) := (s.splitOnP isWhitespace).filter (· ≠ [])

/-- A word that stands between spaces. -/
def IsWord (s : List Char) : Prop := s ≠ [] ∧ ∀ c ∈ s, isWhitespace c = false

/-- A form that can be evaluated. -/
theorem IsWord.of_all (word : (!s.isEmpty && s.all fun c => !isWhitespace c) = true) :
    IsWord s := by
  rw [Bool.and_eq_true, Bool.not_eq_true', List.isEmpty_eq_false_iff, List.all_eq_true] at word
  exact ⟨word.1, fun c member => by simpa using word.2 c member⟩

theorem splitWhitespace_nil : splitWhitespace [] = [] := rfl

theorem splitWhitespace_append (first second : List Char) (space : isWhitespace c = true) :
    splitWhitespace (first ++ c :: second) = splitWhitespace first ++ splitWhitespace second := by
  rw [splitWhitespace, List.splitOnP_append_cons first second space, List.filter_append]
  rfl

theorem splitWhitespace_word (one : IsWord s) : splitWhitespace s = [s] := by
  rw [splitWhitespace, List.splitOnP_eq_singleton one.2]
  simp [one.1]

theorem splitWhitespace_spaces (n : Nat) (s : List Char) :
    splitWhitespace (List.replicate n ' ' ++ s) = splitWhitespace s := by
  induction n with
  | zero => rfl
  | succ n ih =>
    have cut := splitWhitespace_append [] (List.replicate n ' ' ++ s) (c := ' ') (by decide)
    rw [splitWhitespace_nil, List.nil_append, List.nil_append, ih] at cut
    exact cut

/-- What `str::lines` does to a line that ends in a carriage return. -/
def dropReturn (s : List Char) : List Char := if s.getLast? = some '\r' then s.dropLast else s

theorem splitWhitespace_dropReturn (s : List Char) :
    splitWhitespace (dropReturn s) = splitWhitespace s := by
  unfold dropReturn
  split
  · rename_i last
    obtain ⟨front, rfl⟩ := List.getLast?_eq_some_iff.mp last
    have cut := splitWhitespace_append front [] (c := '\r') (by decide)
    rw [splitWhitespace_nil, List.append_nil] at cut
    rw [List.dropLast_concat, cut]
  · rfl

/-- `lines` gives back texts without newlines that were each ended by one. -/
theorem lines_flatMap (texts : List (List Char)) (clean : ∀ s ∈ texts, '\n' ∉ s) :
    lines (texts.flatMap (· ++ ['\n'])) = texts := by
  have pieces : split '\n' (texts.flatMap (· ++ ['\n'])) = texts ++ [[]] := by
    induction texts with
    | nil => rfl
    | cons s rest ih =>
      have later := ih fun t member => clean t (List.mem_cons_of_mem _ member)
      rw [List.flatMap_cons, List.append_assoc, List.singleton_append]
      rw [split, List.splitOn_append_cons_self_of_not_mem (clean s List.mem_cons_self)]
      rw [split] at later
      rw [later]
      rfl
  rw [lines, pieces]
  simp

def hexDigit (c : Char) : Option Nat :=
  let n := c.toNat
  if 48 ≤ n ∧ n ≤ 57 then some (n - 48)
  else if 97 ≤ n ∧ n ≤ 102 then some (n - 87)
  else if 65 ≤ n ∧ n ≤ 70 then some (n - 55)
  else none

/-- The value of hexadecimal digits after `acc`. -/
def hexValue : Nat → List Char → Option Nat
  | acc, [] => some acc
  | acc, c :: rest => (hexDigit c).bind fun d => hexValue (16 * acc + d) rest

def dropPlus : List Char → List Char
  | '+' :: rest => rest
  | s => s

/-- `usize::from_str_radix(s, 16)` -/
def fromStrRadix16 (s : List Char) : Option Nat :=
  if dropPlus s = [] then none
  else (hexValue 0 (dropPlus s)).bind fun n => if n < 2 ^ 64 then some n else none

/-- `{:08x}` -/
def hex8 (n : Nat) : List Char :=
  List.replicate (8 - (Nat.toDigits 16 n).length) '0' ++ Nat.toDigits 16 n

theorem hexValue_append (first second : List Char) (acc : Nat) :
    hexValue acc (first ++ second) = (hexValue acc first).bind fun n => hexValue n second := by
  induction first generalizing acc with
  | nil => rfl
  | cons c rest ih =>
    rw [List.cons_append, hexValue, hexValue]
    cases hexDigit c with
    | none => rfl
    | some d => exact ih _

theorem hexDigit_digitChar : ∀ d < 16, hexDigit (Nat.digitChar d) = some d := by decide

theorem hexValue_toDigits (n : Nat) : hexValue 0 (Nat.toDigits 16 n) = some n := by
  induction n using Nat.strongRecOn with
  | ind n ih =>
    by_cases small : n < 16
    · rw [Nat.toDigits_of_lt_base small, hexValue, hexDigit_digitChar n small]
      simp [hexValue]
    · have big : 16 ≤ n := Nat.le_of_not_lt small
      rw [Nat.toDigits_of_base_le (by decide) big, hexValue_append, ih (n / 16) (by omega),
        Option.bind_some, hexValue, hexDigit_digitChar _ (Nat.mod_lt n (by decide)),
        Option.bind_some, hexValue]
      congr 1
      omega

theorem hexValue_zeros (k : Nat) (s : List Char) :
    hexValue 0 (List.replicate k '0' ++ s) = hexValue 0 s := by
  induction k with
  | zero => rfl
  | succ k ih =>
    rw [List.replicate_succ, List.cons_append, hexValue, show hexDigit '0' = some 0 by decide]
    exact ih

theorem digitChar_lower : ∀ d < 16, (Nat.digitChar d) ∈ "0123456789abcdef".toList := by decide

/-- The printed number consists of these characters, so no sign and no space is among them. -/
theorem mem_hex8 (member : c ∈ hex8 n) : c ∈ "0123456789abcdef".toList := by
  rcases List.mem_append.mp member with zero | digit
  · rw [(List.mem_replicate.mp zero).2]
    decide
  · induction n using Nat.strongRecOn with
    | ind n ih =>
      by_cases small : n < 16
      · rw [Nat.toDigits_of_lt_base small, List.mem_singleton] at digit
        rw [digit]
        exact digitChar_lower n small
      · rw [Nat.toDigits_of_base_le (by decide) (Nat.le_of_not_lt small), List.mem_append,
          List.mem_singleton] at digit
        rcases digit with front | rfl
        · exact ih (n / 16) (by omega) (List.mem_append_right _ front) front
        · exact digitChar_lower _ (Nat.mod_lt n (by decide))

theorem hex8_ne_nil (n : Nat) : hex8 n ≠ [] := by
  simp [hex8, Nat.toDigits_ne_nil]

theorem fromStrRadix16_hex8 (small : n < 2 ^ 64) : fromStrRadix16 (hex8 n) = some n := by
  have unsigned : dropPlus (hex8 n) = hex8 n := by
    unfold dropPlus
    split
    · rename_i rest signed
      have member : '+' ∈ hex8 n := by
        rw [signed]
        exact List.mem_cons_self
      exact absurd (mem_hex8 member) (by decide)
    · rfl
  rw [fromStrRadix16, unsigned, if_neg (hex8_ne_nil n), hex8, hexValue_zeros, hexValue_toDigits,
    Option.bind_some, if_pos small]

end Text
