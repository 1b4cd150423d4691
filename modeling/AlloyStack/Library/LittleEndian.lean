import Mathlib.Data.UInt
import Mathlib.Data.Nat.ModEq

/-! Numbers as bytes, from the lowest byte on. -/
namespace LittleEndian

/-- The lowest `width` bytes of a number. -/
def encode : (width value : Nat) → List UInt8
  | 0, _ => []
  | width + 1, value => .ofNat value :: encode width (value / 256)

def decode : List UInt8 → Nat
  | [] => 0
  | byte :: bytes => byte.toNat + 256 * decode bytes

@[simp]
theorem encode_length (width value : Nat) : (encode width value).length = width := by
  induction width generalizing value with
  | zero => rfl
  | succ width ih => simp [encode, ih]

theorem decode_encode (width value : Nat) : decode (encode width value) = value % 256 ^ width := by
  induction width generalizing value with
  | zero => simp [encode, decode, Nat.mod_one]
  | succ width ih =>
    have powers : 256 ^ (width + 1) = 256 * 256 ^ width := by rw [Nat.pow_succ, Nat.mul_comm]
    rw [encode, decode, ih, UInt8.toNat_ofNat', powers, Nat.mod_mul]

theorem decode_encode_of_lt (fits : value < 256 ^ width) : decode (encode width value) = value := by
  rw [decode_encode, Nat.mod_eq_of_lt fits]

end LittleEndian
