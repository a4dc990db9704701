import Crossnet.Bytes

/-!
# Little-endian numbers

Integers are written least significant byte first.  `encode` takes the width;
`decode` reads any byte string.
-/

namespace Crossnet.LittleEndian

/-- The `width` lowest base-256 digits of a number, least significant first. -/
def encode : Nat → Nat → Bytes
  | 0, _ => []
  | width + 1, n => UInt8.ofNat n :: encode width (n / 256)

/-- The number whose base-256 digits are given, least significant first. -/
def decode : Bytes → Nat
  | [] => 0
  | b :: rest => b.toNat + 256 * decode rest

@[simp] theorem length_encode (width n : Nat) : (encode width n).length = width := by
  induction width generalizing n with
  | zero => rfl
  | succ width ih => simp [encode, ih]

end Crossnet.LittleEndian
