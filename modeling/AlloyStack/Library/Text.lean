import Mathlib.Data.List.Basic
import Mathlib.Data.List.Induction
import Mathlib.Data.Nat.ModEq

/-! Text as lists of characters, with the functions of Rust's `str` on it, and names that carry
decimal numbers. -/
namespace Text

/-- `char::is_whitespace`: the Unicode property `White_Space`. -/
def isWhitespace (c : Char) : Bool :=
  let n := c.toNat
  9 ≤ n && n ≤ 13 || n == 0x20 || n == 0x85 || n == 0xa0 || n == 0x1680 || 0x2000 ≤ n && n ≤
    0x200a || n == 0x2028 ||
    n == 0x2029 || n == 0x202f || n == 0x205f || n == 0x3000

/-- `str::trim` -/
def trim (s : List Char) : List Char :=
  ((s.dropWhile isWhitespace).reverse.dropWhile isWhitespace).reverse

/-- `str::split` at a character -/
def split (separator : Char) (s : List Char) : List (List Char) := s.splitOn separator

/-- `str::lines`. A carriage return at the end of a line is kept. -/
def lines (s : List Char) : List (List Char) :=
  let pieces := split '\n' s
  if pieces.getLast? = some [] then pieces.dropLast else pieces

/-- `str::parse::<u32>`: digits after an optional plus sign. -/
def parseU32 (s : List Char) : Option (Fin (2 ^ 32)) :=
  let digits := match s with
    | '+' :: rest => rest
    | s => s
  if digits = [] ∨ ¬ digits.all Char.isDigit then none
  else
    let n := Nat.ofDigitChars 10 digits 0
    if small : n < 2 ^ 32 then some ⟨n, small⟩ else none

theorem numbered_toList (head : String) (n : Nat) :
    (head ++ toString n).toList = head.toList ++ Nat.toDigits 10 n := by
  rw [String.toList_append, Nat.toString_eq_repr, Nat.toList_repr]

theorem numbered_numbered_toList (head middle : String) (n k : Nat) :
    (head ++ toString n ++ middle ++ toString k).toList =
      head.toList ++ (Nat.toDigits 10 n ++ (middle.toList ++ Nat.toDigits 10 k)) := by
  rw [numbered_toList, String.toList_append, numbered_toList, List.append_assoc, List.append_assoc]

theorem digits_injective : Function.Injective (Nat.toDigits 10) := by
  intro n k same
  have back := congrArg (fun digits => Nat.ofDigitChars 10 digits 0) same
  simpa only [Nat.ofDigitChars_ten_toDigits] using back

theorem takeWhile_digits (n : Nat) {s : List Char} (ends : ∀ c ∈ s.head?, c.isDigit = false) :
    (Nat.toDigits 10 n ++ s).takeWhile Char.isDigit = Nat.toDigits 10 n := by
  rw [List.takeWhile_append_of_pos fun c member =>
    Nat.isDigit_of_mem_toDigits (by decide) (by decide) member]
  cases s with
  | nil => simp
  | cons c s => simp [ends c (by simp)]

/-- A number at the front of a text can be read back when no digit follows it. -/
theorem digits_append_inj {n k : Nat} {s t : List Char} (ends : ∀ c ∈ s.head?, c.isDigit = false)
    (ends' : ∀ c ∈ t.head?, c.isDigit = false)
    (same : Nat.toDigits 10 n ++ s = Nat.toDigits 10 k ++ t) :
    n = k ∧ s = t := by
  have fronts := congrArg (List.takeWhile Char.isDigit) same
  rw [takeWhile_digits n ends, takeWhile_digits k ends'] at fronts
  obtain rfl := digits_injective fronts
  exact ⟨rfl, List.append_cancel_left same⟩

section Solid

theorem dropWhile_eq_self_of_all {p : Char → Bool} {s : List Char}
    (none_drops : ∀ c ∈ s, p c = false) : s.dropWhile p = s := by
  cases s with
  | nil => rfl
  | cons c s => rw [List.dropWhile_cons_of_neg (by simp [none_drops c])]

theorem trim_of_solid (solid : ∀ c ∈ s, isWhitespace c = false) : trim s = s := by
  rw [trim, dropWhile_eq_self_of_all solid, dropWhile_eq_self_of_all (by simpa using solid),
    List.reverse_reverse]

theorem isWhitespace_of_isDigit (digit : c.isDigit = true) : isWhitespace c = false := by
  simp only [Char.isDigit, Bool.and_eq_true, decide_eq_true_eq, UInt32.le_iff_toNat_le] at digit
  obtain ⟨low, high⟩ : 48 ≤ c.toNat ∧ c.toNat ≤ 57 := digit
  simp only [isWhitespace, Bool.or_eq_false_iff, Bool.and_eq_false_iff, decide_eq_false_iff_not,
    beq_eq_false_iff_ne]
  omega

theorem mem_toDigits_isDigit (member : c ∈ Nat.toDigits 10 n) : c.isDigit = true :=
  Nat.isDigit_of_mem_toDigits (by decide) (by decide) member

theorem trim_toDigits (n : Nat) : trim (Nat.toDigits 10 n) = Nat.toDigits 10 n :=
  trim_of_solid fun _ member => isWhitespace_of_isDigit (mem_toDigits_isDigit member)

/-- A printed number is read back. -/
theorem parseU32_toDigits (small : n < 2 ^ 32) :
    parseU32 (Nat.toDigits 10 n) = some ⟨n, small⟩ := by
  have digits : ∀ c ∈ Nat.toDigits 10 n, c.isDigit = true :=
    fun _ member => mem_toDigits_isDigit member
  have value : Nat.ofDigitChars 10 (Nat.toDigits 10 n) 0 = n := Nat.ofDigitChars_ten_toDigits
  cases front : Nat.toDigits 10 n with
  | nil => exact absurd front Nat.toDigits_ne_nil
  | cons c rest =>
    rw [front] at digits value
    have unsigned : c ≠ '+' := by
      rintro rfl
      exact absurd (digits '+' List.mem_cons_self) (by decide)
    have all : (c :: rest).all Char.isDigit = true := List.all_eq_true.mpr digits
    have bound : n < 4294967296 := small
    simp [parseU32, unsigned, value, bound, all]

end Solid

section Printed

theorem digitChar_of_isDigit (digit : c.isDigit = true) :
    c.toNat - '0'.toNat < 10 ∧ Nat.digitChar (c.toNat - '0'.toNat) = c := by
  simp only [Char.isDigit, Bool.and_eq_true, decide_eq_true_eq, UInt32.le_iff_toNat_le] at digit
  obtain ⟨low, high⟩ : 48 ≤ c.toNat ∧ c.toNat ≤ 57 := digit
  have zero : '0'.toNat = 48 := rfl
  refine ⟨by omega, ?_⟩
  obtain ⟨d, value, small⟩ : ∃ d, c.toNat = 48 + d ∧ d < 10 := ⟨c.toNat - 48, by omega, by omega⟩
  have same : c = Char.ofNat (48 + d) := by rw [← value, Char.ofNat_toNat]
  have printed : ∀ d < 10, Nat.digitChar d = Char.ofNat (48 + d) := by decide
  rw [zero, value, Nat.add_sub_cancel_left, same, printed d small]

/-- Digits without a leading zero are the printed form of their number. -/
theorem toDigits_ofDigitChars {digits : List Char} (nonempty : digits ≠ [])
    (all : ∀ c ∈ digits, c.isDigit = true) (plain : digits.head? = some '0' → digits.length ≤ 1) :
    Nat.toDigits 10 (Nat.ofDigitChars 10 digits 0) = digits := by
  induction digits using List.reverseRecOn with
  | nil => exact absurd rfl nonempty
  | append_singleton front c ih =>
    obtain ⟨small, char⟩ := digitChar_of_isDigit (all c (by simp))
    rw [Nat.ofDigitChars_append, Nat.ofDigitChars_cons, Nat.ofDigitChars_nil]
    by_cases empty : front = []
    · subst empty
      rw [Nat.ofDigitChars_nil, Nat.mul_zero, Nat.zero_add, Nat.toDigits_of_lt_base small, char]
      rfl
    · have long := List.length_pos_iff.mpr empty
      have nonzero : front.head? ≠ some '0' := by
        intro zero
        have short := plain (by rw [List.head?_append, zero]; rfl)
        simp only [List.length_append, List.length_singleton] at short
        omega
      have printed := ih empty (fun d member => all d (by simp [member])) (absurd · nonzero)
      have positive : 0 < Nat.ofDigitChars 10 front 0 := by
        by_contra zero
        rw [Nat.le_zero.mp (Nat.le_of_not_lt zero)] at printed
        rw [← printed] at nonzero
        exact nonzero rfl
      rw [← Nat.toDigits_append_toDigits (by decide) positive small, printed,
        Nat.toDigits_of_lt_base small, char]

/-- A positive number is printed without a leading zero. -/
theorem toDigits_head {n : Nat} (positive : 0 < n) : (Nat.toDigits 10 n).head? ≠ some '0' := by
  induction n using Nat.base_induction 10 (by decide) with
  | single m small =>
    rw [Nat.toDigits_of_lt_base small]
    have nonzero : ∀ m < 10, 0 < m → Nat.digitChar m ≠ '0' := by decide
    simpa using nonzero m small positive
  | digit m k small above ih =>
    rw [← Nat.toDigits_append_toDigits (by decide) above small,
      List.head?_append_of_ne_nil _ Nat.toDigits_ne_nil]
    exact ih above

end Printed
end Text
