import Crossnet.Proofs.Amount
import Crossnet.Proofs.Interpreter.Locality

/-!
# How much a withdrawal moves

A withdrawal compares the number that its selector means with what the
interpreter holds.  The comparison is of words, and a number above the largest
word stands in it as the largest word.  So the comparison is right as long as
less than the largest word is held.  Where the largest word itself is held, a
number above it counts as held and the holding is moved instead of the number
that was meant.

* `quote_of_proper`: the amount of a withdrawal is the number that is meant, cut
  to the largest word.
* `Delivers`: what comes of a withdrawal of a number that is held.
* `withdraw_exact`: **a withdrawal moves the number that is meant or is refused,
  except where the largest word is held.**
* `withdraw_above_largest`: there more is asked for than is held, and the withdrawal
  ends well.
-/

namespace Crossnet.Interpreter

variable {σ : Type} [Storage σ] {interp : Interpreter} {env : Environment} {s : σ}
  {payee token : Address} {portion : Portion} {held had : UInt128}

/-- The amount of a withdrawal is the number that is meant, cut to the largest word. -/
theorem quote_of_proper (hhandle : env.host.assetHandle portion.asset = some token)
    (hheld : Ledger.amountAt? s (Ledger.key token interp.address) = some held)
    (hproper : portion.selector.Proper) :
    ∃ amount : UInt128,
      amount.toNat = min (portion.selector.exact held env.unitScale) UInt128.max.toNat ∧
      (interp.quote env portion).run s = (covered portion token held amount).run s := by
  have hchecked := hproper.amount_eq held env.unitScale
  rcases Nat.lt_or_ge UInt128.max.toNat (portion.selector.exact held env.unitScale) with hgt | hle
  · rw [UInt128.checked_of_gt hgt] at hchecked
    exact ⟨UInt128.max, (Nat.min_eq_right hgt.le).symm,
      run_quote_of_held hhandle hheld (.inr ⟨hchecked, rfl⟩)⟩
  · obtain ⟨amount, hamount⟩ := UInt128.exists_of_le_max hle
    rw [← hamount, UInt128.checked_toNat] at hchecked
    rw [← hamount]
    exact ⟨amount, (Nat.min_eq_left amount.le_max).symm,
      run_quote_of_held hhandle hheld (.inl hchecked)⟩

variable (interp env payee portion token had s) in
/-- What comes of a withdrawal of `n` that is held: `n` is answered and moved, or the payee would
have more than an amount can say. -/
def Delivers (n : Nat) : Prop :=
  (∃ (amount : UInt128) (t : σ), amount.toNat = n ∧
    (interp.withdraw env payee portion).run s = .ok amount t ∧
    Ledger.Moves token interp.address payee n s t) ∨
  (Ledger.key token interp.address ≠ Ledger.key token payee ∧
    UInt128.max.toNat < had.toNat + n ∧
    ∃ t : σ, (interp.withdraw env payee portion).run s =
      .error (.ledger (.overflow token payee)) t)

section Lawful

variable [LawfulStorage σ]

theorem delivers_of_quote_le {amount : UInt128}
    (hquote : (interp.quote env portion).run s = (covered portion token held amount).run s)
    (hheld : Ledger.amountAt? s (Ledger.key token interp.address) = some held)
    (hhad : Ledger.amountAt? s (Ledger.key token payee) = some had) (hle : amount ≤ held) :
    Delivers interp env s payee token portion had amount.toNat := by
  have hcovered : (interp.quote env portion).run s = .ok (token, amount) s :=
    hquote.trans (run_covered_of_le hle s)
  rcases Ledger.transfer_of_covered hheld hle hhad with ⟨t, hmove, hmoves⟩ |
    ⟨hkey, hfull, t, hmove⟩
  · exact .inl ⟨amount, t, rfl, run_withdraw_iff_quote.mpr ⟨token, hcovered, hmove⟩, hmoves⟩
  · refine .inr ⟨hkey, hfull, t, ?_⟩
    rw [withdraw_eq, Script.run_bind_of_ok hcovered]
    refine Script.run_bind_eq_error.mpr (.inl ?_)
    exact Script.run_mapError_eq_error.mpr ⟨_, hmove, rfl⟩

/-- **A withdrawal moves the number that is meant, or is refused.**  A number above what is held is
refused as long as less than the largest word is held.  Where the largest word is held, a number
above it is taken for the largest word and as much is moved. -/
theorem withdraw_exact (hhandle : env.host.assetHandle portion.asset = some token)
    (hheld : Ledger.amountAt? s (Ledger.key token interp.address) = some held)
    (hhad : Ledger.amountAt? s (Ledger.key token payee) = some had)
    (hproper : portion.selector.Proper) :
    let meant := portion.selector.exact held env.unitScale
    (held.toNat < meant → held ≠ UInt128.max →
      ∃ required : UInt128, required.toNat = min meant UInt128.max.toNat ∧
        (interp.withdraw env payee portion).run s =
          .error (.insufficientBalance portion.asset required held) s) ∧
    (meant ≤ held.toNat → Delivers interp env s payee token portion had meant) ∧
    (held.toNat < meant → held = UInt128.max →
      Delivers interp env s payee token portion had UInt128.max.toNat) := by
  intro meant
  obtain ⟨amount, hamount, hquote⟩ := quote_of_proper hhandle hheld hproper
  have hheldle := held.le_max
  refine ⟨fun hlt hne => ?_, fun hle => ?_, fun hlt hmax => ?_⟩
  · have hroom : held.toNat ≠ UInt128.max.toNat := fun h => hne (BitVec.eq_of_toNat_eq h)
    refine ⟨amount, hamount, run_withdraw_of_quote_lt hquote ?_⟩
    show held.toNat < amount.toNat
    omega
  · have hwhole : amount.toNat = meant := by omega
    rw [← hwhole]
    refine delivers_of_quote_le hquote hheld hhad ?_
    show amount.toNat ≤ held.toNat
    omega
  · have hcut : amount.toNat = UInt128.max.toNat := by
      rw [hmax] at hlt
      omega
    rw [← hcut]
    refine delivers_of_quote_le hquote hheld hhad ?_
    rw [hmax]
    exact amount.le_max

end Lawful

/-! ## A courier who holds the largest word -/

/-- A store in which the courier has as much as an amount can say. -/
def hoard : Store := Ledger.setAmount Store.empty (Ledger.key .zero courier.address) UInt128.max

theorem amountAt?_hoard :
    Ledger.amountAt? hoard (Ledger.key .zero courier.address) = some UInt128.max := by
  rw [hoard, Ledger.amountAt?_setAmount, if_pos rfl]

theorem amountAt?_hoard_resident :
    Ledger.amountAt? hoard (Ledger.key .zero (resident 4)) = some 0 := by
  rw [hoard, Ledger.amountAt?_setAmount, if_neg errand_keys.2.2, Ledger.amountAt?_empty]

/-- A share of what is held of the one asset. -/
def share (numerator denominator : UInt128) : Portion := ⟨⟨0⟩, .ratio ⟨numerator, denominator⟩⟩

/-- Half of the largest word is meant, and as much is moved. -/
theorem withdraw_exact_half :
    ∃ (amount : UInt128) (t : Store), amount.toNat = UInt128.max.toNat / 2 ∧
      (courier.withdraw village (resident 4) (share 1 2)).run hoard = .ok amount t ∧
      Ledger.Moves .zero courier.address (resident 4) (UInt128.max.toNat / 2) hoard t := by
  have hmeant : (share 1 2).selector.exact UInt128.max village.unitScale =
      UInt128.max.toNat / 2 := by decide
  have hhandle : village.host.assetHandle (share 1 2).asset = some .zero := rfl
  have hproper : (share 1 2).selector.Proper := show (2 : UInt128) ≠ 0 by decide
  obtain ⟨-, hcovered, -⟩ :=
    withdraw_exact hhandle amountAt?_hoard amountAt?_hoard_resident hproper
  rw [hmeant] at hcovered
  rcases hcovered (by decide) with hdone | ⟨-, hfull, -⟩
  · exact hdone
  · exact absurd hfull (by decide)

/-- **More than is held is asked for, and the withdrawal ends well**: twice the largest word is
meant, and the largest word is moved. -/
theorem withdraw_above_largest :
    Ledger.amountAt? hoard (Ledger.key .zero courier.address) = some UInt128.max ∧
      UInt128.max.toNat < (share 2 1).selector.exact UInt128.max village.unitScale ∧
      ∃ t : Store,
        (courier.withdraw village (resident 4) (share 2 1)).run hoard = .ok UInt128.max t ∧
        Ledger.amountAt? t (Ledger.key .zero courier.address) = some 0 ∧
        Ledger.amountAt? t (Ledger.key .zero (resident 4)) = some UInt128.max := by
  have hhandle : village.host.assetHandle (share 2 1).asset = some .zero := rfl
  have hquote : (courier.quote village (share 2 1)).run hoard =
      .ok (.zero, UInt128.max) hoard := run_quote_of_held hhandle amountAt?_hoard (.inr ⟨rfl, rfl⟩)
  have hmove := Ledger.run_transfer_of_ne errand_keys.2.2 amountAt?_hoard
    (BitVec.le_refl UInt128.max) amountAt?_hoard_resident (Nat.zero_add _)
  refine ⟨amountAt?_hoard, by decide, _,
    run_withdraw_iff_quote.mpr ⟨.zero, hquote, hmove⟩, ?_, ?_⟩
  · rw [Ledger.amountAt?_setAmount, if_neg errand_keys.2.2.symm, Ledger.amountAt?_setAmount,
      if_pos rfl]
    rfl
  · rw [Ledger.amountAt?_setAmount, if_pos rfl]

end Crossnet.Interpreter
