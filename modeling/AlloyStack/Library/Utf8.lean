import Mathlib.Data.List.Basic

/-! UTF-8 as bytes in a list, with the lossy decoder of Rust's `String::from_utf8_lossy`. -/
namespace Utf8

/-- The bytes of a text. -/
def encode (text : String) : List UInt8 := text.toList.flatMap String.utf8EncodeChar

def continues (byte : UInt8) : Bool := byte &&& 0xC0 == 0x80

/-- The second byte of a sequence of three or of four bytes; some first bytes restrict it. -/
def second3 (first second : UInt8) : Bool :=
  (first == 0xE0 && 0xA0 ≤ second && second ≤ 0xBF) ||
    (0xE1 ≤ first && first ≤ 0xEC && continues second) ||
    (first == 0xED && 0x80 ≤ second && second ≤ 0x9F) ||
      (0xEE ≤ first && first ≤ 0xEF && continues second)

def second4 (first second : UInt8) : Bool :=
  (first == 0xF0 && 0x90 ≤ second && second ≤ 0xBF) ||
    (0xF1 ≤ first && first ≤ 0xF3 && continues second) ||
    (first == 0xF4 && 0x80 ≤ second && second ≤ 0x8F)

/-- How many bytes after the first one belong to a sequence that breaks off. -/
def brokenTail (first : UInt8) (rest : List UInt8) : Nat :=
  if second3 first (rest.getD 0 0) then 1
  else if second4 first (rest.getD 0 0) then if continues (rest.getD 1 0) then 2 else 1
  else 0

/-- Characters as far as the bytes are valid, and one U+FFFD for each sequence that breaks off. -/
def lossyChars : List UInt8 → List Char
  | [] => []
  | first :: rest =>
    match (first :: rest).toByteArray.utf8DecodeChar? 0 with
    | some c => c :: lossyChars (rest.drop (c.utf8Size - 1))
    | none => '\uFFFD' :: lossyChars (rest.drop (brokenTail first rest))
termination_by bytes => bytes.length
decreasing_by all_goals simp only [List.length_drop, List.length_cons]; omega

def fromUtf8Lossy (bytes : List UInt8) : String := String.ofList (lossyChars bytes)

theorem lossyChars_cons (c : Char) (bytes : List UInt8) :
    lossyChars (String.utf8EncodeChar c ++ bytes) = c :: lossyChars bytes := by
  have decoded : (String.utf8EncodeChar c ++ bytes).toByteArray.utf8DecodeChar? 0 = some c := by
    rw [List.toByteArray_append, ByteArray.utf8DecodeChar?_utf8EncodeChar_append]
  have size : (String.utf8EncodeChar c).length = c.utf8Size := String.length_utf8EncodeChar c
  cases encoded : String.utf8EncodeChar c with
  | nil => exact absurd encoded String.utf8EncodeChar_ne_nil
  | cons first rest =>
    rw [encoded] at decoded size
    rw [List.cons_append] at decoded ⊢
    rw [lossyChars]
    simp only [decoded]
    rw [← size, List.length_cons, Nat.add_sub_cancel, List.drop_left]

theorem lossyChars_encode (chars : List Char) :
    lossyChars (chars.flatMap String.utf8EncodeChar) = chars := by
  induction chars with
  | nil => rw [List.flatMap_nil, lossyChars]
  | cons c chars ih => rw [List.flatMap_cons, lossyChars_cons, ih]

/-- Nothing is replaced in valid bytes. -/
theorem fromUtf8Lossy_encode (text : String) : fromUtf8Lossy (encode text) = text := by
  rw [fromUtf8Lossy, encode, lossyChars_encode, String.ofList_toList]

end Utf8
