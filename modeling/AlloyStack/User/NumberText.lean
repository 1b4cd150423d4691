import AlloyStack.Library.CInts
import AlloyStack.User.CountText

/-! The text in which the C++ functions of the parallel sort hand numbers on. The writer formats
each number with a space behind it into a scratch buffer of twelve bytes, and the reader scans a
number and goes to the next space. -/
namespace AlloyStack.User.WasmSort
open C
open WasmWordCount (Bytes isSpace isDigit digits intText readSign signedValue)

def MAX_ARRAY_LENGTH : Nat := 3805441

def MAX_BUFFER_SIZE : Nat := 25 * 1024 * 1024 + 3805441

/-- `snprintf(temp, sizeof(temp), "%d ", n)` with `char temp[12]`: eleven characters at most. -/
def snprintf (n : Int) : Bytes := (intText n ++ [32]).take 11

/-- The loop that appends the numbers. -/
def encode (numbers : List Int) : Bytes := numbers.flatMap snprintf

/-- `sscanf(ptr, "%d", &num) == 1`, with the number. -/
def sscanf (int : Ints) (ptr : Bytes) : Option Int :=
  let sign := readSign (ptr.dropWhile isSpace)
  let number := sign.2.takeWhile isDigit
  if number = [] then none else some (int.result (signedValue sign.1 number))

/-- `while (*ptr && *ptr != ' ') ptr++; if (*ptr == ' ') ptr++;` -/
def nextNumber (ptr : Bytes) : Bytes :=
  match ptr.dropWhile fun c => c ≠ 0 ∧ c ≠ 32 with
  | 32 :: rest => rest
  | rest => rest

theorem nextNumber_lt (scanned : sscanf int ptr = some num) :
    (nextNumber ptr).length < ptr.length := by
  cases ptr with
  | nil => simp [sscanf, readSign] at scanned
  | cons c rest =>
    have short := (List.dropWhile_sublist (fun c => c ≠ 0 ∧ c ≠ 32) (l := rest)).length_le
    by_cases space : c = 32
    · subst space
      simp [nextNumber]
    by_cases zero : c = 0
    · subst zero
      simp [sscanf, readSign, isSpace, isDigit] at scanned
    · simp only [nextNumber]
      rw [List.dropWhile_cons_of_pos (by simp [space, zero])]
      split
      next more =>
        rw [more] at short
        simp at short ⊢
        omega
      · simp only [List.length_cons]
        omega

/-- The loop of the splitter and the merger, into an array of so many numbers; `none` is a write
behind its end. -/
def decodeLoop (int : Ints) (capacity : Nat) (ptr : Bytes) (array : List Int) : Option (List Int) :=
  match _scanned : sscanf int ptr with
  | none => some array
  | some num =>
    if array.length < capacity then decodeLoop int capacity (nextNumber ptr) (array ++ [num])
    else none
termination_by ptr.length
decreasing_by exact nextNumber_lt _scanned

def decode (int : Ints) (buffer : Bytes) : Option (List Int) :=
  decodeLoop int MAX_ARRAY_LENGTH buffer []

/-- The registered buffer: the text and its end in the memory of `malloc`; `none` is a write behind
it. -/
def register (memory : Bytes) (numbers : List Int) : Option Bytes :=
  let text := encode numbers
  if text.length + 1 ≤ MAX_BUFFER_SIZE then some (text ++ 0 :: memory.drop (text.length + 1))
  else none

/-- The numbers arrive. -/
def Transports (int : Ints) (memory : Bytes) (numbers : List Int) : Prop :=
  (register memory numbers).bind (decode int) = some numbers

section Format
variable {n : Int}

theorem digits_length (k : Nat) : (digits k).length = (Nat.toDigits 10 k).length := by
  rw [digits, List.length_map]

/-- The space is cut off behind a number of eleven characters. -/
theorem snprintf_eq (fits : IsInt n) :
    snprintf n = if -10 ^ 9 < n then intText n ++ [32] else intText n := by
  obtain ⟨low, high⟩ := fits
  cases n with
  | ofNat k =>
    have value : Int.ofNat k = (k : Int) := rfl
    have length : (digits k).length ≤ 10 := by
      rw [digits_length, Nat.length_toDigits_le_iff (by decide) (by decide)]
      omega
    have large : -10 ^ 9 < Int.ofNat k := by omega
    rw [if_pos large, snprintf, List.take_of_length_le (by simp [intText]; omega)]
  | negSucc k =>
    by_cases small : -10 ^ 9 < Int.negSucc k
    · have length : (digits (k + 1)).length ≤ 9 := by
        rw [digits_length, Nat.length_toDigits_le_iff (by decide) (by decide)]
        omega
      rw [if_pos small, snprintf, List.take_of_length_le (by simp [intText]; omega)]
    · have most : (digits (k + 1)).length ≤ 10 := by
        rw [digits_length, Nat.length_toDigits_le_iff (by decide) (by decide)]
        omega
      have least : ¬ (digits (k + 1)).length ≤ 9 := by
        rw [digits_length, Nat.length_toDigits_le_iff (by decide) (by decide)]
        omega
      rw [if_neg small, snprintf, List.take_left' (by simp [intText]; omega)]

theorem intText_solid (n : Int) : ∀ c ∈ intText n, c ≠ 0 ∧ c ≠ 32 := by
  have digit {k : Nat} {c : UInt8} (member : c ∈ digits k) : c ≠ 0 ∧ c ≠ 32 := by
    have range := WasmWordCount.digits_byte member
    constructor <;>
    · rintro rfl
      exact absurd range (by decide)
  intro c member
  cases n with
  | ofNat k => exact digit member
  | negSucc k =>
    rcases List.mem_cons.mp member with rfl | later
    · decide
    · exact digit later

end Format

section Scanning
variable {int : Ints} {capacity : Nat} {n : Int} {word rest ptr behind : Bytes}
  {array result : List Int}

theorem sscanf_intText (fits : IsInt n) (ends : ∀ c ∈ rest.head?, isDigit c = false) :
    sscanf int (intText n ++ rest) = some n := by
  have read := WasmWordCount.readInt_intText fits.1 fits.2 ends
  simp only [WasmWordCount.readInt] at read
  split at read
  · cases read
  next found =>
    obtain ⟨value, -⟩ := Prod.mk.inj (Option.some.inj read)
    rw [sscanf, if_neg fun empty => found (.inl empty), value, int.exact n fits]

theorem sscanf_end (behind : Bytes) : sscanf int (0 :: behind) = none := by
  simp [sscanf, readSign, isSpace, isDigit]

/-- The pointer passes a word and the space behind it, but not the end of the text. -/
theorem nextNumber_word (solid : ∀ c ∈ word, c ≠ 0 ∧ c ≠ 32) (rest : Bytes) :
    nextNumber (word ++ 32 :: rest) = rest ∧ nextNumber (word ++ 0 :: rest) = 0 :: rest := by
  have passes : ∀ c ∈ word, decide (c ≠ 0 ∧ c ≠ 32) = true := by simpa using solid
  simp only [nextNumber, List.dropWhile_append_of_pos passes]
  exact ⟨rfl, rfl⟩

theorem decodeLoop_stop (stops : sscanf int ptr = none) :
    decodeLoop int capacity ptr array = some array := by
  rw [decodeLoop]
  split
  · rfl
  next more => simp [stops] at more

theorem decodeLoop_step (scanned : sscanf int ptr = some n) :
    decodeLoop int capacity ptr array =
    if array.length < capacity then decodeLoop int capacity (nextNumber ptr) (array ++ [n])
      else none := by
  rw [decodeLoop]
  split
  next none_left => simp [scanned] at none_left
  next num found =>
    obtain rfl : n = num := by simpa [scanned] using found
    rfl

/-- A word with a space behind it gives one number at most. -/
theorem decodeLoop_word (solid : ∀ c ∈ word, c ≠ 0 ∧ c ≠ 32)
    (decoded : decodeLoop int capacity (word ++ 32 :: rest) array = some result) :
    result = array ∨ ∃ num, decodeLoop int capacity rest (array ++ [num]) = some result := by
  cases scanned : sscanf int (word ++ 32 :: rest) with
  | none =>
    rw [decodeLoop_stop scanned] at decoded
    exact .inl (Option.some.inj decoded).symm
  | some num =>
    rw [decodeLoop_step scanned, (nextNumber_word solid rest).1] at decoded
    split at decoded
    · exact .inr ⟨num, decoded⟩
    · cases decoded

theorem decodeLoop_last (solid : ∀ c ∈ word, c ≠ 0 ∧ c ≠ 32)
    (decoded : decodeLoop int capacity (word ++ 0 :: behind) array = some result) :
    result.length ≤ array.length + 1 := by
  cases scanned : sscanf int (word ++ 0 :: behind) with
  | none =>
    rw [decodeLoop_stop scanned] at decoded
    rw [Option.some.inj decoded]
    omega
  | some num =>
    rw [decodeLoop_step scanned, (nextNumber_word solid behind).2,
      decodeLoop_stop (sscanf_end behind)] at decoded
    split at decoded
    · rw [← Option.some.inj decoded, List.length_append, List.length_singleton]
    · cases decoded

end Scanning

section Transport
variable {int : Ints} {capacity : Nat} {word behind : Bytes} {array numbers result : List Int}

theorem encode_cons (n : Int) (numbers : List Int) (fits : IsInt n) (rest : Bytes) :
    encode (n :: numbers) ++ rest =
      if -10 ^ 9 < n then intText n ++ 32 :: (encode numbers ++ rest)
        else intText n ++ (encode numbers ++ rest) := by
  rw [encode, List.flatMap_cons, ← encode, snprintf_eq fits]
  split <;> simp

/-- Numbers that keep their spaces are read back, and the last one needs none. -/
theorem decodeLoop_encode (ints : ∀ n ∈ numbers, IsInt n)
    (spaced : ∀ n ∈ numbers.dropLast, -10 ^ 9 < n) (start : array.length ≤ capacity) :
    decodeLoop int capacity (encode numbers ++ 0 :: behind) array =
      if array.length + numbers.length ≤ capacity then some (array ++ numbers) else none := by
  induction numbers generalizing array with
  | nil =>
    rw [encode, List.flatMap_nil, List.nil_append, decodeLoop_stop (sscanf_end behind),
      List.length_nil, Nat.add_zero,
      if_pos start, List.append_nil]
  | cons n numbers ih =>
    have fits := ints n (by simp)
    have rest := fun k member => ints k (List.mem_cons_of_mem n member)
    have kept : ∀ k ∈ numbers.dropLast, -10 ^ 9 < k := by
      intro k member
      have more : numbers ≠ [] := by
        rintro rfl
        simp at member
      exact spaced k (by simp [List.dropLast_cons_of_ne_nil more, member])
    -- what comes after the number, and what is left when the pointer has passed it
    obtain ⟨after, text, ends, passed⟩ : ∃ after,
        encode (n :: numbers) ++ 0 :: behind = intText n ++ after ∧
        (∀ c ∈ after.head?, isDigit c = false) ∧
          nextNumber (intText n ++ after) = encode numbers ++ 0 :: behind := by
      rw [encode_cons n numbers fits]
      by_cases space : -10 ^ 9 < n
      · rw [if_pos space]
        exact ⟨_, rfl, by simp; decide, (nextNumber_word (intText_solid n) _).1⟩
      · have last : numbers = [] := by
          by_contra more
          exact space (spaced n (by simp [List.dropLast_cons_of_ne_nil more]))
        rw [if_neg space, last]
        exact ⟨_, rfl, by simp [encode]; decide, (nextNumber_word (intText_solid n) _).2⟩
    rw [text, decodeLoop_step (sscanf_intText fits ends), passed, List.length_cons]
    by_cases room : array.length < capacity
    · rw [if_pos room, ih rest kept (by simp; omega), List.length_append, List.length_singleton,
        List.append_assoc, List.singleton_append, Nat.add_assoc, Nat.add_comm 1]
    · rw [if_neg room, if_neg (by omega)]

/-- With a word that waits for its space, the reader gets no more numbers than there are after
it. -/
theorem decodeLoop_glued (ints : ∀ n ∈ numbers, IsInt n) (solid : ∀ c ∈ word, c ≠ 0 ∧ c ≠ 32)
    (decoded : decodeLoop int capacity (word ++ (encode numbers ++ 0 :: behind)) array =
      some result) :
    result.length ≤ array.length + max numbers.length 1 ∧
      (word = [] → result.length ≤ array.length + numbers.length) := by
  induction numbers generalizing word array with
  | nil =>
    rw [encode, List.flatMap_nil, List.nil_append] at decoded
    refine ⟨decodeLoop_last solid decoded, ?_⟩
    rintro rfl
    rw [List.nil_append, decodeLoop_stop (sscanf_end behind)] at decoded
    rw [Option.some.inj decoded]
    exact Nat.le_add_right ..
  | cons n numbers ih =>
    have fits := ints n (by simp)
    have rest := fun k member => ints k (List.mem_cons_of_mem n member)
    have joined : ∀ c ∈ word ++ intText n, c ≠ 0 ∧ c ≠ 32 := by
      intro c member
      rcases List.mem_append.mp member with old | new
      · exact solid c old
      · exact intText_solid n c new
    suffices bound : result.length ≤ array.length + (n :: numbers).length by
      rw [List.length_cons] at bound ⊢
      exact ⟨by omega, fun _ => bound⟩
    rw [encode_cons n numbers fits] at decoded
    split at decoded
    · rw [← List.append_assoc] at decoded
      rcases decodeLoop_word joined decoded with rfl | ⟨num, decoded⟩
      · exact Nat.le_add_right ..
      · rw [← List.nil_append (encode numbers ++ 0 :: behind)] at decoded
        have bound := (ih rest (by simp) decoded).2 rfl
        rw [List.length_append, List.length_singleton] at bound
        rw [List.length_cons]
        omega
    · rw [← List.append_assoc] at decoded
      have bound := (ih rest joined decoded).1
      rw [List.length_cons]
      omega

/-- A number that has lost its space takes the next one with it. -/
theorem decodeLoop_lost (ints : ∀ n ∈ numbers, IsInt n) (lost : ∃ n ∈ numbers.dropLast, n ≤ -10 ^ 9)
    (decoded : decodeLoop int capacity (encode numbers ++ 0 :: behind) array = some result) :
    result.length < array.length + numbers.length := by
  induction numbers generalizing array with
  | nil => simp at lost
  | cons n numbers ih =>
    have fits := ints n (by simp)
    have rest := fun k member => ints k (List.mem_cons_of_mem n member)
    cases numbers with
    | nil => simp at lost
    | cons next numbers =>
      rw [encode_cons n _ fits] at decoded
      rw [List.length_cons]
      split at decoded
      next space =>
        rcases decodeLoop_word (intText_solid n) decoded with rfl | ⟨num, decoded⟩
        · omega
        · have later : ∃ k ∈ (next :: numbers).dropLast, k ≤ -10 ^ 9 := by
            obtain ⟨k, member, low⟩ := lost
            rw [List.dropLast_cons_cons] at member
            rcases List.mem_cons.mp member with rfl | inside
            · omega
            · exact ⟨k, inside, low⟩
          have bound := ih rest later decoded
          rw [List.length_append, List.length_singleton] at bound
          omega
      · have bound := (decodeLoop_glued rest (intText_solid n) decoded).1
        rw [List.length_cons] at bound ⊢
        omega

/-- The numbers arrive exactly when they fit the array of the reader and only the last one may be so
small that its space is cut off. -/
theorem transports_iff (int : Ints) (memory : Bytes) (numbers : List Int)
    (ints : ∀ n ∈ numbers, IsInt n) (fits : (encode numbers).length + 1 ≤ MAX_BUFFER_SIZE) :
    Transports int memory numbers ↔
      numbers.length ≤ MAX_ARRAY_LENGTH ∧ ∀ n ∈ numbers.dropLast, -10 ^ 9 < n := by
  rw [Transports, register, if_pos fits, Option.bind_some, decode]
  by_cases spaced : ∀ n ∈ numbers.dropLast, -10 ^ 9 < n
  · rw [decodeLoop_encode ints spaced (Nat.zero_le _), List.length_nil, Nat.zero_add,
      List.nil_append]
    by_cases room : numbers.length ≤ MAX_ARRAY_LENGTH
    · exact iff_of_true (if_pos room) ⟨room, spaced⟩
    · rw [if_neg room]
      exact iff_of_false (by simp) fun both => room both.1
  · push Not at spaced
    refine iff_of_false (fun decoded => ?_) fun both => ?_
    · have short := decodeLoop_lost ints spaced decoded
      simp at short
    · obtain ⟨n, member, low⟩ := spaced
      have := both.2 n member
      omega

end Transport

theorem threeNumbers_arrive : Transports wrapping [] [7, 2147483647, -1000000000] :=
  (transports_iff wrapping [] [7, 2147483647, -1000000000] (by decide) (by decide)).mpr
    ⟨by decide, by decide⟩

/-- The space behind the first number is cut off, and the digit of the second one is read as its
own. -/
theorem glued_number_lost :
    ¬ ∀ int memory numbers, (∀ n ∈ numbers, IsInt n) →
      (encode numbers).length + 1 ≤ MAX_BUFFER_SIZE →
    Transports int memory numbers := by
  intro all
  have ints : ∀ n ∈ [-1000000000, 5], IsInt n := by decide
  have arrives := all wrapping [] [-1000000000, 5] ints (by decide)
  rw [Transports, register, if_pos (by decide), Option.bind_some, decode] at arrives
  have short := decodeLoop_lost ints ⟨-1000000000, by decide, by decide⟩ arrives
  simp at short

end AlloyStack.User.WasmSort
