import Crossnet.Proofs.Amount

/-!
# Which amounts are selected

An amount is selected exactly when the number that is meant fits into 128 bits, and
then it is that number.  A share that is no more than the whole always fits.  It grows
with what it is a share of and with its numerator, and it and the rest of the whole
lose at most one to rounding.

* `UInt128.mulDiv?_eq_some_iff`, `UInt128.mulDiv?_eq_none_iff`: the quotients that are
  worked out and those that are refused.
* `Selector.amount_eq_ok_iff` and its siblings: the three ends of working out an amount.
* `Ratio.exact_add_exact_rest`: **a share and the rest add up to the whole, or to one
  less.**
* `Selector.amount_exact`: the arithmetic of amounts is that of unbounded numbers.
-/

namespace Crossnet

/-! ## Words -/

namespace UInt128

theorem ofNat?_eq_none_iff {n : Nat} : ofNat? n = none ↔ 2 ^ 128 ≤ n := by
  rw [ofNat?_eq_none, max, BitVec.toNat_allOnes]
  omega

theorem mulDiv?_eq_some_iff {value numerator denominator quotient : UInt128} :
    value.mulDiv? numerator denominator = some quotient ↔
      denominator ≠ 0 ∧
        quotient.toNat = value.toNat * numerator.toNat / denominator.toNat := by
  by_cases hzero : denominator = 0
  · simp [mulDiv?, hzero]
  · rw [mulDiv?_of_ne hzero, ofNat?_eq_some, and_iff_right hzero, eq_comm]

theorem mulDiv?_eq_none_iff {value numerator denominator : UInt128} :
    value.mulDiv? numerator denominator = none ↔
      denominator = 0 ∨ 2 ^ 128 ≤ value.toNat * numerator.toNat / denominator.toNat := by
  by_cases hzero : denominator = 0
  · simp [mulDiv?, hzero]
  · rw [mulDiv?_of_ne hzero, ofNat?_eq_none_iff, or_iff_right hzero]

theorem checked_eq_ok_iff {n : Nat} {a : UInt128} : checked n = .ok a ↔ a.toNat = n := by
  rw [checked]
  cases hword : ofNat? n with
  | some b =>
    have hb := ofNat?_eq_some.mp hword
    rw [Except.ok.injEq, hb, BitVec.toNat_inj, eq_comm]
  | none =>
    have hgt := ofNat?_eq_none.mp hword
    have hle := a.le_max
    simp only [reduceCtorEq, false_iff]
    omega

theorem checked_eq_overflow_iff {n : Nat} : checked n = .error .overflow ↔ 2 ^ 128 ≤ n := by
  rw [← ofNat?_eq_none_iff, checked]
  cases ofNat? n with
  | some b => simp
  | none => simp

end UInt128

/-! ## Selectors -/

namespace Selector

variable {selector : Selector} {held unitScale : UInt128}

theorem amount_of_not_proper (h : ¬selector.Proper) :
    selector.amount held unitScale = .error .zeroDenominator := by
  cases selector with
  | absolute amount => exact absurd trivial h
  | ratio share =>
    rw [Proper, not_not] at h
    rw [amount, Ratio.of, if_pos h]
  | unit whole fraction =>
    rw [Proper, not_not] at h
    rw [amount, Ratio.of, if_pos h]
    rfl

theorem amount_eq_zeroDenominator_iff :
    selector.amount held unitScale = .error .zeroDenominator ↔ ¬selector.Proper := by
  refine ⟨fun h hproper => ?_, amount_of_not_proper⟩
  exact hproper.amount_ne held unitScale h

theorem amount_eq_overflow_iff :
    selector.amount held unitScale = .error .overflow ↔
      selector.Proper ∧ 2 ^ 128 ≤ selector.exact held unitScale := by
  by_cases hproper : selector.Proper
  · rw [hproper.amount_eq, UInt128.checked_eq_overflow_iff, and_iff_right hproper]
  · simp [amount_of_not_proper hproper, hproper]

theorem amount_eq_ok_iff {amount : UInt128} :
    selector.amount held unitScale = .ok amount ↔
      selector.Proper ∧ amount.toNat = selector.exact held unitScale := by
  by_cases hproper : selector.Proper
  · rw [hproper.amount_eq, UInt128.checked_eq_ok_iff, and_iff_right hproper]
  · simp [amount_of_not_proper hproper, hproper]

end Selector

/-! ## Shares of a whole -/

namespace Ratio

variable {share : Ratio} {value more : UInt128}

/-- A share that is no more than the whole. -/
structure Partial (share : Ratio) : Prop where
  denominator_ne_zero : share.denominator ≠ 0
  numerator_le : share.numerator ≤ share.denominator

/-- What a share leaves of the whole. -/
def rest (share : Ratio) : Ratio :=
  ⟨share.denominator - share.numerator, share.denominator⟩

namespace Partial

theorem denominator_pos (h : share.Partial) : 0 < share.denominator.toNat :=
  Nat.pos_of_ne_zero fun hzero => h.denominator_ne_zero (BitVec.eq_of_toNat_eq hzero)

theorem toNat_numerator_le (h : share.Partial) :
    share.numerator.toNat ≤ share.denominator.toNat :=
  BitVec.le_def.mp h.numerator_le

theorem toNat_numerator_rest (h : share.Partial) :
    share.rest.numerator.toNat = share.denominator.toNat - share.numerator.toNat :=
  BitVec.toNat_sub_of_le h.numerator_le

theorem rest (h : share.Partial) : share.rest.Partial where
  denominator_ne_zero := h.denominator_ne_zero
  numerator_le := by
    rw [BitVec.le_def, h.toNat_numerator_rest]
    exact Nat.sub_le _ _

theorem exact_le (h : share.Partial) : share.exact value ≤ value.toNat := by
  rw [exact]
  refine Nat.div_le_of_le_mul ?_
  rw [Nat.mul_comm]
  exact Nat.mul_le_mul_right _ h.toNat_numerator_le

/-- Such a share of a value is selected, whatever is held. -/
theorem exists_amount (h : share.Partial) (value unitScale : UInt128) :
    ∃ amount, (Selector.ratio share).amount value unitScale = .ok amount ∧
      amount.toNat = share.exact value := by
  obtain ⟨amount, hamount⟩ :=
    UInt128.exists_of_le_max (h.exact_le.trans value.le_max)
  exact ⟨amount, Selector.amount_eq_ok_iff.mpr ⟨h.denominator_ne_zero, hamount⟩, hamount⟩

end Partial

theorem exact_of_numerator_eq (h : share.Partial) (hwhole : share.numerator = share.denominator) :
    share.exact value = value.toNat := by
  rw [exact, hwhole, Nat.mul_div_cancel _ h.denominator_pos]

/-- A share of more is more. -/
theorem exact_le_exact_of_le (hle : value ≤ more) : share.exact value ≤ share.exact more :=
  Nat.div_le_div_right (Nat.mul_le_mul_right _ (BitVec.le_def.mp hle))

/-- A larger share is more. -/
theorem exact_le_exact_of_numerator_le {larger : UInt128} (hle : share.numerator ≤ larger) :
    share.exact value ≤ (Ratio.mk larger share.denominator).exact value :=
  Nat.div_le_div_right (Nat.mul_le_mul_left _ (BitVec.le_def.mp hle))

/-- **A share and the rest add up to the whole, or to one less.** -/
theorem exact_add_exact_rest (h : share.Partial) (value : UInt128) :
    share.exact value + share.rest.exact value = value.toNat ∨
      share.exact value + share.rest.exact value + 1 = value.toNat := by
  have hproducts : value.toNat * share.numerator.toNat +
      value.toNat * share.rest.numerator.toNat = value.toNat * share.denominator.toNat := by
    rw [h.toNat_numerator_rest, ← Nat.mul_add, Nat.add_sub_cancel' h.toNat_numerator_le]
  -- the remainders of the two quotients make at most one more
  have hsplit := Nat.add_div (a := value.toNat * share.numerator.toNat)
    (b := value.toNat * share.rest.numerator.toNat) h.denominator_pos
  rw [hproducts, Nat.mul_div_cancel _ h.denominator_pos] at hsplit
  rw [hsplit]
  show share.exact value + share.rest.exact value = share.exact value + share.rest.exact value + _ ∨
    share.exact value + share.rest.exact value + 1 =
      share.exact value + share.rest.exact value + _
  split
  · exact .inr rfl
  · exact .inl rfl

end Ratio

/-! ## The whole -/

/-- **The arithmetic of amounts is that of unbounded numbers.**  A quotient is refused exactly when
the denominator is zero or the number does not fit into 128 bits, and is that number otherwise.  An
amount is refused for a zero denominator exactly when the selector has one, is refused as too large
exactly when it has none and the number that is meant does not fit, and is that number otherwise.
So a share that is no more than the whole is always selected.  It is no more than what it is a share
of, all of it when the share is the whole, grows with it and with the numerator, and adds up with
the rest to the whole or to one less. -/
theorem Selector.amount_exact :
    (∀ value numerator denominator : UInt128,
      (value.mulDiv? numerator denominator = none ↔
        denominator = 0 ∨ 2 ^ 128 ≤ value.toNat * numerator.toNat / denominator.toNat) ∧
      ∀ quotient, value.mulDiv? numerator denominator = some quotient ↔
        denominator ≠ 0 ∧
          quotient.toNat = value.toNat * numerator.toNat / denominator.toNat) ∧
    (∀ (selector : Selector) (held unitScale : UInt128),
      (selector.amount held unitScale = .error .zeroDenominator ↔ ¬selector.Proper) ∧
      (selector.amount held unitScale = .error .overflow ↔
        selector.Proper ∧ 2 ^ 128 ≤ selector.exact held unitScale) ∧
      ∀ amount, selector.amount held unitScale = .ok amount ↔
        selector.Proper ∧ amount.toNat = selector.exact held unitScale) ∧
    ∀ share : Ratio, share.denominator ≠ 0 → share.numerator ≤ share.denominator →
      ∀ held unitScale, ∃ amount rest,
        (ratio share).amount held unitScale = .ok amount ∧
        (ratio share.rest).amount held unitScale = .ok rest ∧
        amount ≤ held ∧
        (share.numerator = share.denominator → amount = held) ∧
        (amount.toNat + rest.toNat = held.toNat ∨
          amount.toNat + rest.toNat + 1 = held.toNat) ∧
        (∀ more, held ≤ more → ∃ other,
          (ratio share).amount more unitScale = .ok other ∧ amount ≤ other) ∧
        ∀ larger, share.numerator ≤ larger → larger ≤ share.denominator → ∃ other,
          (ratio ⟨larger, share.denominator⟩).amount held unitScale = .ok other ∧
            amount ≤ other := by
  refine ⟨fun value numerator denominator => ⟨UInt128.mulDiv?_eq_none_iff, fun quotient =>
      UInt128.mulDiv?_eq_some_iff⟩,
    fun selector held unitScale => ⟨amount_eq_zeroDenominator_iff, amount_eq_overflow_iff,
      fun amount => amount_eq_ok_iff⟩, ?_⟩
  intro share hne hle held unitScale
  have hpartial : share.Partial := ⟨hne, hle⟩
  obtain ⟨amount, hamount, hexact⟩ := hpartial.exists_amount held unitScale
  obtain ⟨rest, hrest, hrestExact⟩ := hpartial.rest.exists_amount held unitScale
  refine ⟨amount, rest, hamount, hrest, ?_, ?_, ?_, ?_, ?_⟩
  · rw [BitVec.le_def, hexact]
    exact hpartial.exact_le
  · intro hwhole
    rw [Ratio.exact_of_numerator_eq hpartial hwhole] at hexact
    exact BitVec.eq_of_toNat_eq hexact
  · rw [hexact, hrestExact]
    exact Ratio.exact_add_exact_rest hpartial held
  · intro more hmore
    obtain ⟨other, hother, hotherExact⟩ := hpartial.exists_amount more unitScale
    refine ⟨other, hother, ?_⟩
    rw [BitVec.le_def, hexact, hotherExact]
    exact Ratio.exact_le_exact_of_le hmore
  · intro larger hlarger hlargerLe
    have hother : (Ratio.mk larger share.denominator).Partial := ⟨hne, hlargerLe⟩
    obtain ⟨other, hother, hotherExact⟩ := hother.exists_amount held unitScale
    refine ⟨other, hother, ?_⟩
    rw [BitVec.le_def, hexact, hotherExact]
    exact Ratio.exact_le_exact_of_numerator_le hlarger

/-- A third and two thirds of seven are two and four, and twice the largest word is refused. -/
theorem Selector.amount_exact_third :
    (∃ third rest, (ratio ⟨1, 3⟩).amount 7 1 = .ok third ∧ (ratio ⟨2, 3⟩).amount 7 1 = .ok rest ∧
        third.toNat + rest.toNat + 1 = 7) ∧
      UInt128.max.mulDiv? 2 1 = none := by
  obtain ⟨hquotients, -, hshares⟩ := amount_exact
  obtain ⟨third, rest, hthird, hrest, -, -, hsum, -⟩ := hshares ⟨1, 3⟩ (by decide) (by decide) 7 1
  refine ⟨⟨third, rest, hthird, hrest, hsum.resolve_left fun hall => ?_⟩,
    (hquotients _ _ _).1.mpr (.inr (by decide))⟩
  obtain rfl : third = 2 := Except.ok.inj hthird.symm
  obtain rfl : rest = 4 := Except.ok.inj hrest.symm
  exact absurd hall (by decide)

end Crossnet
