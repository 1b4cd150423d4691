import Mathlib.Data.List.TakeWhile
import Mathlib.Data.UInt
import AlloyStack.Library.Text

/-! The text that a mapper of the C++ word count hands to a reducer: one line for each word with its
count, read back with the stream operators of C++. -/
namespace AlloyStack.User.WasmWordCount

abbrev Bytes := List UInt8

/-- `isspace` in the C locale: space, and tab to carriage return. -/
def isSpace (c : UInt8) : Bool := c == 32 || 9 ≤ c && c ≤ 13

def isDigit (c : UInt8) : Bool := 48 ≤ c && c ≤ 57

/-- `to_string` of a non-negative number -/
def digits (n : Nat) : Bytes := (Nat.toDigits 10 n).map fun c => UInt8.ofNat c.toNat

/-- `to_string` of an `int` -/
def intText : Int → Bytes
  | .ofNat n => digits n
  | .negSucc n => 45 :: digits (n + 1)

/-- `pair.first + " " + to_string(pair.second) + "\n"` -/
def encode (word : Bytes) (count : Int) : Bytes := word ++ 32 :: (intText count ++ [10])

/-- `iss >> word` -/
def readWord (s : Bytes) : Option (Bytes × Bytes) :=
  let s := s.dropWhile isSpace
  let word := s.takeWhile fun c => !isSpace c
  if word = [] then none else some (word, s.dropWhile fun c => !isSpace c)

def readSign (s : Bytes) : Bool × Bytes :=
  if s.head? = some 45 then (true, s.tail) else if s.head? = some 43 then (false, s.tail)
  else (false, s)

def signedValue (negative : Bool) (number : Bytes) : Int :=
  let value := Nat.ofDigitChars 10 (number.map fun c => Char.ofNat c.toNat) 0
  if negative then -value else value

/-- `iss >> num`: a number that does not fit into an `int` fails. -/
def readInt (s : Bytes) : Option (Int × Bytes) :=
  let sign := readSign (s.dropWhile isSpace)
  let number := sign.2.takeWhile isDigit
  let value := signedValue sign.1 number
  if number = [] ∨ value < -2 ^ 31 ∨ 2 ^ 31 ≤ value then none
  else some (value, sign.2.dropWhile isDigit)

theorem readWord_lt (found : readWord s = some (word, rest)) : rest.length < s.length := by
  simp only [readWord] at found
  split at found
  · cases found
  next nonempty =>
    obtain ⟨rfl, rfl⟩ : _ = word ∧ _ = rest := by simpa using found
    have parts :=
      congrArg List.length (List.takeWhile_append_dropWhile (p := fun c => !isSpace c)
        (l := s.dropWhile isSpace))
    have short := (List.dropWhile_sublist isSpace (l := s)).length_le
    have some_word := List.length_pos_iff.mpr nonempty
    rw [List.length_append] at parts
    omega

theorem readSign_le (s : Bytes) : (readSign s).2.length ≤ s.length := by
  simp only [readSign]
  split
  · simp
  split
  · simp
  · exact le_refl _

theorem readInt_le (found : readInt s = some (num, rest)) : rest.length ≤ s.length := by
  simp only [readInt] at found
  generalize sign : readSign (s.dropWhile isSpace) = signed at found
  split at found
  · cases found
  · obtain ⟨-, rfl⟩ := Prod.mk.inj (Option.some.inj found)
    have short := (List.dropWhile_sublist isSpace (l := s)).length_le
    have unsigned := readSign_le (s.dropWhile isSpace)
    have last := (List.dropWhile_sublist isDigit (l := signed.2)).length_le
    rw [sign] at unsigned
    omega

/-- `while (iss >> word >> num)` -/
def decode (s : Bytes) : List (Bytes × Int) :=
  match _first : readWord s with
  | none => []
  | some (word, s') =>
    match _second : readInt s' with
    | none => []
    | some (num, s'') => (word, num) :: decode s''
termination_by s.length
decreasing_by
  have shorter := readWord_lt _first
  have short := readInt_le _second
  omega

section Digits

theorem digit_range {d : Char} (digit : d.isDigit = true) : 48 ≤ d.toNat ∧ d.toNat ≤ 57 := by
  simp only [Char.isDigit, Bool.and_eq_true, decide_eq_true_eq, UInt32.le_iff_toNat_le] at digit
  exact digit

theorem digits_byte (member : c ∈ digits n) : isDigit c = true := by
  obtain ⟨d, inside, rfl⟩ := List.mem_map.mp member
  have range := digit_range (Nat.isDigit_of_mem_toDigits (by decide) (by decide) inside)
  have small : d.toNat % 2 ^ 8 = d.toNat := Nat.mod_eq_of_lt (by omega)
  simp only [isDigit, UInt8.le_iff_toNat_le, UInt8.toNat_ofNat', small, Bool.and_eq_true,
    decide_eq_true_eq]
  exact range

theorem isSpace_of_isDigit (digit : isDigit c = true) : isSpace c = false := by
  simp only [isDigit, Bool.and_eq_true, decide_eq_true_eq, UInt8.le_iff_toNat_le] at digit
  simp only [isSpace, Bool.or_eq_false_iff, Bool.and_eq_false_iff, decide_eq_false_iff_not,
    beq_eq_false_iff_ne, UInt8.le_iff_toNat_le]
  refine ⟨?_, .inr ?_⟩
  · rintro rfl
    simp at digit
  · have first := digit.1
    simp at first ⊢
    omega

theorem digits_ne_nil (n : Nat) : digits n ≠ [] := by
  simp [digits, Nat.toDigits_ne_nil]

theorem digits_value (n : Nat) :
    Nat.ofDigitChars 10 ((digits n).map fun c => Char.ofNat c.toNat) 0 = n := by
  have chars : (digits n).map (fun c => Char.ofNat c.toNat) = Nat.toDigits 10 n := by
    rw [digits, List.map_map]
    refine (List.map_congr_left fun d inside => ?_).trans (List.map_id _)
    have range := digit_range (Nat.isDigit_of_mem_toDigits (by decide) (by decide) inside)
    have small : d.toNat % 2 ^ 8 = d.toNat := Nat.mod_eq_of_lt (by omega)
    simp only [Function.comp_apply, UInt8.toNat_ofNat', small, Char.ofNat_toNat, id_eq]
  rw [chars, Nat.ofDigitChars_ten_toDigits]

end Digits

section Reading
variable {p : UInt8 → Bool} {l r rest : Bytes} {c : UInt8}

theorem takeWhile_append_of_ends (all : ∀ c ∈ l, p c = true) (ends : ∀ c ∈ r.head?, p c = false) :
    (l ++ r).takeWhile p = l ∧ (l ++ r).dropWhile p = r := by
  rw [List.takeWhile_append_of_pos all, List.dropWhile_append_of_pos all]
  cases r with
  | nil => simp
  | cons c r =>
    have stops := ends c (by simp)
    simp [stops]

theorem readWord_space (space : isSpace c = true) (s : Bytes) : readWord (c :: s) = readWord s := by
  simp only [readWord, List.dropWhile_cons_of_pos space]

theorem readWord_append (nonempty : word ≠ []) (solid : ∀ c ∈ word, isSpace c = false)
    (ends : ∀ c ∈ rest.head?, isSpace c = true) : readWord (word ++ rest) = some (word, rest) := by
  have start : (word ++ rest).dropWhile isSpace = word ++ rest := by
    cases word with
    | nil => exact absurd rfl nonempty
    | cons c word => simp [solid c (by simp)]
  obtain ⟨taken, dropped⟩ :=
    takeWhile_append_of_ends (p := fun c => !isSpace c) (l := word) (r := rest)
    (by simpa using solid) (by simpa using ends)
  simp only [readWord, start, taken, dropped, if_neg nonempty]

theorem readInt_space (space : isSpace c = true) (s : Bytes) : readInt (c :: s) = readInt s := by
  simp only [readInt, List.dropWhile_cons_of_pos space]

theorem readInt_intText {n : Int} (low : -2 ^ 31 ≤ n) (high : n < 2 ^ 31)
    (ends : ∀ c ∈ rest.head?, isDigit c = false) :
    readInt (intText n ++ rest) = some (n, rest) := by
  have solid (k : Nat) : (digits k ++ rest).dropWhile isSpace = digits k ++ rest := by
    cases front : digits k with
    | nil => exact absurd front (digits_ne_nil k)
    | cons c l =>
      have digit := digits_byte (n := k) (c := c) (by simp [front])
      simp [isSpace_of_isDigit digit]
  have parts (k : Nat) := takeWhile_append_of_ends (p := isDigit) (l := digits k) (r := rest)
    (fun _ member => digits_byte member) ends
  cases n with
  | ofNat k =>
    have sign : readSign (digits k ++ rest) = (false, digits k ++ rest) := by
      cases front : digits k with
      | nil => exact absurd front (digits_ne_nil k)
      | cons c l =>
        have digit := digits_byte (n := k) (c := c) (by simp [front])
        have minus : c ≠ 45 := by rintro rfl; exact absurd digit (by decide)
        have plus : c ≠ 43 := by rintro rfl; exact absurd digit (by decide)
        simp [readSign, minus, plus]
    have value : signedValue false (digits k) = Int.ofNat k := by simp [signedValue, digits_value]
    have fits : ¬ (digits k = [] ∨ Int.ofNat k < -2 ^ 31 ∨ 2 ^ 31 ≤ Int.ofNat k) := by
      rintro (empty | below | above)
      · exact digits_ne_nil k empty
      · omega
      · omega
    simp only [readInt, intText, solid, sign, (parts k).1, (parts k).2, value, if_neg fits]
  | negSucc k =>
    have sign : readSign (45 :: (digits (k + 1) ++ rest)) = (true, digits (k + 1) ++ rest) := rfl
    have first : (45 :: (digits (k + 1) ++ rest)).dropWhile isSpace =
        45 :: (digits (k + 1) ++ rest) :=
      rfl
    have value : signedValue true (digits (k + 1)) = Int.negSucc k := by
      simp only [signedValue, digits_value, if_true]
      rfl
    have fits : ¬ (digits (k + 1) = [] ∨ Int.negSucc k < -2 ^ 31 ∨ 2 ^ 31 ≤ Int.negSucc k) := by
      rintro (empty | below | above)
      · exact digits_ne_nil (k + 1) empty
      · omega
      · omega
    simp only [readInt, intText, List.cons_append, first, sign, (parts (k + 1)).1,
      (parts (k + 1)).2, value, if_neg fits]

theorem decode_stop (stops : ∀ word s', readWord s = some (word, s') → readInt s' = none) :
    decode s = [] := by
  rw [decode]
  split
  · rfl
  next word s' first =>
    split
    · rfl
    next num s'' second => simp [stops word s' first] at second

theorem decode_step (first : readWord s = some (word, s')) (second : readInt s' = some (num, s'')) :
    decode s = (word, num) :: decode s'' := by
  rw [decode]
  split
  next none => simp [first] at none
  next word' t first' =>
    obtain ⟨rfl, rfl⟩ : word = word' ∧ s' = t := by simpa [first] using first'
    split
    next none => simp [second] at none
    next num' u second' =>
      obtain ⟨rfl, rfl⟩ : num = num' ∧ s'' = u := by simpa [second] using second'
      rfl

theorem decode_space (space : isSpace c = true) (s : Bytes) : decode (c :: s) = decode s := by
  have same := readWord_space space s
  by_cases steps : ∃ word s' num s'', readWord s = some (word, s') ∧ readInt s' = some (num, s'')
  · obtain ⟨word, s', num, s'', first, second⟩ := steps
    rw [decode_step first second, decode_step (same.trans first) second]
  · have stops : ∀ word s', readWord s = some (word, s') → readInt s' = none := by
      intro word s' first
      cases second : readInt s' with
      | none => rfl
      | some found => exact absurd ⟨word, s', found.1, found.2, first, second⟩ steps
    rw [decode_stop stops, decode_stop (same ▸ stops)]

theorem decode_encode_append {n : Int} (nonempty : word ≠ [])
    (solid : ∀ c ∈ word, isSpace c = false) (low : -2 ^ 31 ≤ n) (high : n < 2 ^ 31) (rest : Bytes) :
    decode (encode word n ++ rest) = (word, n) :: decode rest := by
  have first : readWord (encode word n ++ rest) = some (word, 32 :: (intText n ++ 10 :: rest)) := by
    rw [encode, List.append_assoc, List.cons_append, List.append_assoc]
    exact readWord_append nonempty solid (by simp; decide)
  have second : readInt (32 :: (intText n ++ 10 :: rest)) = some (n, 10 :: rest) := by
    rw [readInt_space (by decide)]
    exact readInt_intText low high (by simp; decide)
  rw [decode_step first second, decode_space (by decide)]

/-- A text without white space has no entry. -/
theorem decode_solid (solid : ∀ c ∈ s, isSpace c = false) : decode s = [] := by
  refine decode_stop fun word s' first => ?_
  by_cases empty : s = []
  · simp [readWord, empty] at first
  · have all : readWord (s ++ []) = some (s, []) := readWord_append empty solid (by simp)
    rw [List.append_nil, first] at all
    obtain ⟨-, rfl⟩ : _ ∧ s' = [] := by simpa using all
    rfl

/-- Lines that were written are read back, and the padding behind them is not. -/
theorem decode_encode (entries : List (Bytes × Int)) (zeros : Nat)
    (solid : ∀ e ∈ entries, e.1 ≠ [] ∧ ∀ c ∈ e.1, isSpace c = false)
    (ints : ∀ e ∈ entries, -2 ^ 31 ≤ e.2 ∧ e.2 < 2 ^ 31) :
    decode (entries.flatMap (fun e => encode e.1 e.2) ++ List.replicate zeros 0) = entries := by
  induction entries with
  | nil =>
    refine decode_solid fun c member => ?_
    rw [(List.mem_replicate.mp member).2]
    rfl
  | cons e entries ih =>
    have rest :=
      ih (fun e member => solid e (by simp [member])) (fun e member => ints e (by simp [member]))
    obtain ⟨nonempty, word⟩ := solid e (by simp)
    obtain ⟨low, high⟩ := ints e (by simp)
    rw [List.flatMap_cons, List.append_assoc, decode_encode_append nonempty word low high, rest]

end Reading
end AlloyStack.User.WasmWordCount
