import Crossnet.Asset
import Crossnet.Proofs.Program.Acceptance

/-!
# Amounts in unbounded numbers

What a selector means is a number, worked out without a bound and rounded down.
Amounts are 128-bit words, so a number above the largest word is refused.  A part
that does not fit makes the whole not fit, so it makes no difference that each
step is checked on its own.

* `UInt128.mulDiv?_of_ne`: 256 bits are enough for a product, so the quotient is
  the exact one and is refused exactly when it does not fit.
* `UInt128.mul?_bind_add?`: two checked steps are one check of the number they make.
* `Selector.exact`: the number that a selector means.
* `Selector.Proper.amount_eq`: **a proper selector selects the number it means, as
  far as 128 bits can say it.**
* `Selector.Proper.amount_ne`: it selects an amount or too much.
-/

namespace Crossnet

/-- The word of a number that fits. -/
def UInt128.checked (n : Nat) : Except AmountError UInt128 :=
  match ofNat? n with
  | some amount => .ok amount
  | none => .error .overflow

namespace UInt128

theorem le_max (a : UInt128) : a.toNat ≤ max.toNat := by
  have hlt := a.isLt
  rw [max, BitVec.toNat_allOnes]
  omega

theorem checked_toNat (a : UInt128) : checked a.toNat = .ok a := by
  rw [checked, ofNat?_eq_some.mpr rfl]

theorem checked_of_gt {n : Nat} (h : max.toNat < n) : checked n = .error .overflow := by
  rw [checked, ofNat?_eq_none.mpr h]

theorem checked_ne_zeroDenominator (n : Nat) : checked n ≠ .error .zeroDenominator := by
  unfold checked
  split
  · exact nofun
  · exact nofun

theorem exists_of_le_max {n : Nat} (h : n ≤ max.toNat) : ∃ a : UInt128, a.toNat = n := by
  cases hword : ofNat? n with
  | some a => exact ⟨a, (ofNat?_eq_some.mp hword).symm⟩
  | none => exact absurd (ofNat?_eq_none.mp hword) (Nat.not_lt.mpr h)

end UInt128

/-! ## 256-bit words -/

theorem UInt256.bits_le_iff {a : UInt256} {n : Nat} : a.bits ≤ n ↔ a.toNat < 2 ^ n := by
  rw [bits]
  by_cases hzero : a = 0
  · subst hzero
    rw [if_pos rfl]
    exact iff_of_true (Nat.zero_le n) (Nat.two_pow_pos n)
  · have hne : a.toNat ≠ 0 := fun h => hzero (BitVec.eq_of_toNat_eq h)
    rw [if_neg hzero, Nat.add_one_le_iff, Nat.log2_lt hne]

namespace UInt128

theorem toNat_widen (a : UInt128) : a.widen.toNat = a.toNat :=
  BitVec.toNat_setWidth_of_le (by decide)

/-- The product of two 128-bit words has room in 256 bits. -/
theorem toNat_widen_mul_widen (a b : UInt128) :
    (a.widen * b.widen).toNat = a.toNat * b.toNat := by
  have hlt : a.toNat * b.toNat < 2 ^ 128 * 2 ^ 128 := Nat.mul_lt_mul'' a.isLt b.isLt
  rw [BitVec.toNat_mul, toNat_widen, toNat_widen]
  exact Nat.mod_eq_of_lt hlt

/-- The quotient is worked out exactly, and refused when it does not fit. -/
theorem mulDiv?_of_ne {denominator : UInt128} (h : denominator ≠ 0) (value numerator : UInt128) :
    value.mulDiv? numerator denominator =
      ofNat? (value.toNat * numerator.toNat / denominator.toNat) := by
  have hquotient : (value.widen * numerator.widen / denominator.widen).toNat =
      value.toNat * numerator.toNat / denominator.toNat := by
    rw [BitVec.toNat_udiv, toNat_widen_mul_widen, toNat_widen]
  rw [mulDiv?, if_neg h, ← hquotient]
  generalize value.widen * numerator.widen / denominator.widen = quotient
  by_cases hfits : quotient.toNat < 2 ^ 128
  · have hlow : (quotient.setWidth 128).toNat = quotient.toNat := by
      rw [BitVec.toNat_setWidth, Nat.mod_eq_of_lt hfits]
    rw [ofNat?_eq_some.mpr hlow.symm]
    exact if_neg (Nat.not_lt.mpr (UInt256.bits_le_iff.mpr hfits))
  · have hmany : 128 < quotient.bits :=
      Nat.not_le.mp fun hle => hfits (UInt256.bits_le_iff.mp hle)
    rw [ofNat?, dif_neg hfits]
    exact if_pos hmany

/-- A product that does not fit makes the sum not fit. -/
theorem mul?_bind_add? (a b c : UInt128) :
    ((a.mul? b).bind fun product => product.add? c) = ofNat? (a.toNat * b.toNat + c.toNat) := by
  rw [mul?]
  cases hproduct : ofNat? (a.toNat * b.toNat) with
  | some product =>
    rw [ofNat?_eq_some.mp hproduct]
    rfl
  | none =>
    have hgt := ofNat?_eq_none.mp hproduct
    exact (ofNat?_eq_none.mpr (hgt.trans_le (Nat.le_add_right _ _))).symm

end UInt128

/-! ## Shares and selectors -/

/-- The number that a share of a value is, rounded down. -/
def Ratio.exact (share : Ratio) (value : UInt128) : Nat :=
  value.toNat * share.numerator.toNat / share.denominator.toNat

theorem Ratio.of_eq {share : Ratio} (h : share.denominator ≠ 0) (value : UInt128) :
    share.of value = UInt128.checked (share.exact value) := by
  rw [Ratio.of, if_neg h, UInt128.mulDiv?_of_ne h]
  rfl

theorem Ratio.of_ne_zeroDenominator {share : Ratio} (h : share.denominator ≠ 0)
    (value : UInt128) : share.of value ≠ .error .zeroDenominator := by
  rw [Ratio.of_eq h]
  exact UInt128.checked_ne_zeroDenominator _

namespace Selector

/-- The number that a selector means, where `held` is what there is and `unitScale` is what one
unit is worth. -/
def exact (held unitScale : UInt128) : Selector → Nat
  | absolute amount => amount.toNat
  | ratio share => share.exact held
  | unit whole fraction => whole.toNat * unitScale.toNat + fraction.exact unitScale

/-- **A proper selector selects the number it means, as far as 128 bits can say it.** -/
theorem Proper.amount_eq {selector : Selector} (h : selector.Proper) (held unitScale : UInt128) :
    selector.amount held unitScale = UInt128.checked (selector.exact held unitScale) := by
  cases selector with
  | absolute amount => exact (UInt128.checked_toNat amount).symm
  | ratio share => exact Ratio.of_eq h held
  | unit whole fraction =>
    rw [amount, Ratio.of_eq h, exact]
    rcases Nat.lt_or_ge UInt128.max.toNat (fraction.exact unitScale) with hgt | hle
    · -- The fraction alone is too much, and the whole units only add to it.
      rw [UInt128.checked_of_gt hgt, UInt128.checked_of_gt (hgt.trans_le (Nat.le_add_left _ _))]
      rfl
    · obtain ⟨part, hpart⟩ := UInt128.exists_of_le_max hle
      rw [← hpart, UInt128.checked_toNat, UInt128.checked, ← UInt128.mul?_bind_add?]
      rfl

theorem Proper.amount_ne {selector : Selector} (h : selector.Proper) (held unitScale : UInt128) :
    selector.amount held unitScale ≠ .error .zeroDenominator := by
  rw [h.amount_eq]
  exact UInt128.checked_ne_zeroDenominator _

end Selector

end Crossnet
