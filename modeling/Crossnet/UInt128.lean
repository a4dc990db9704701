import Crossnet.Bytes.LittleEndian

/-!
# 128-bit words

Amounts and asset identifiers are 128-bit words.  Arithmetic on amounts is
checked: a sum or a product is worked out as a natural number, and `ofNat?`
turns it back into a word when it fits.  A share of an amount is worked out in
256-bit words, where the product of two amounts has room, and cut back when no
more than 128 bits of the quotient are in use.
-/

namespace Crossnet

/-- A 128-bit word. -/
abbrev UInt128 := BitVec 128

/-- A 256-bit word. -/
abbrev UInt256 := BitVec 256

/-- The number of binary digits of a word.  Zero has none. -/
def UInt256.bits (a : UInt256) : Nat :=
  if a = 0 then 0 else a.toNat.log2 + 1

namespace UInt128

/-- The largest word. -/
def max : UInt128 := BitVec.allOnes 128

/-- The word of a number that fits. -/
def ofNat? (n : Nat) : Option UInt128 :=
  if h : n < 2 ^ 128 then some (BitVec.ofNatLT n h) else none

/-- The sum, when it fits. -/
def add? (a b : UInt128) : Option UInt128 :=
  ofNat? (a.toNat + b.toNat)

/-- The product, when it fits. -/
def mul? (a b : UInt128) : Option UInt128 :=
  ofNat? (a.toNat * b.toNat)

/-- The same number as a 256-bit word. -/
def widen (a : UInt128) : UInt256 :=
  a.setWidth 256

/-- `floor (value * numerator / denominator)`, when the denominator is not zero and the quotient
fits.  Product and quotient are 256-bit words. -/
def mulDiv? (value numerator denominator : UInt128) : Option UInt128 :=
  if denominator = 0 then none
  else
    let quotient := value.widen * numerator.widen / denominator.widen
    if 128 < quotient.bits then none else some (quotient.setWidth 128)

/-- Sixteen bytes, least significant first. -/
def toBytes (a : UInt128) : Bytes :=
  LittleEndian.encode 16 a.toNat

/-- Decimal digits. -/
def text (a : UInt128) : String :=
  toString a.toNat

theorem ofNat?_eq_some {n : Nat} {a : UInt128} : ofNat? n = some a ↔ n = a.toNat := by
  unfold ofNat?
  constructor
  · intro h
    split at h
    · cases h; simp
    · cases h
  · rintro rfl
    rw [dif_pos a.isLt]
    simp

theorem ofNat?_eq_none {n : Nat} : ofNat? n = none ↔ max.toNat < n := by
  unfold ofNat? max
  rw [BitVec.toNat_allOnes]
  split <;> simp <;> omega

end UInt128

end Crossnet
