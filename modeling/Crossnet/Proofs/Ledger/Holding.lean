import Crossnet.Ledger
import Crossnet.Proofs.Storage.Transparent
import Crossnet.Proofs.Wire.Lawful

/-!
# Holdings

`amountAt? s k` is the amount under the key `k`, where the entry is an amount or
absent.  A run of a ledger operation that ends well reads and sets amounts and
does nothing else, so it is told by one equation for each key:

* `amountAt?_credit`: **a credit adds to one key**;
* `amountAt?_debit`: **a debit takes from one key**;
* `amountAt?_transfer`: a transfer does both, also when the two keys are one.

A credit that fails writes nothing (`run_credit_of_error`), but a transfer whose
credit fails leaves its debit.  `transfer_of_covered` says which transfers end
well: where the payer has the amount, the payee alone can be in the way.

No key is assumed to differ from another here.
-/

namespace Crossnet.Ledger

variable {σ : Type} [Storage σ]

/-- The amount under a key.  An entry that is no amount has none. -/
def amountAt? (s : σ) (key : Digest) : Option UInt128 :=
  match Storage.get? s key with
  | none => some 0
  | some raw => (Wire.decode raw : Except DecodeError UInt128).toOption

/-- The storage with an amount under a key. -/
def setAmount (s : σ) (key : Digest) (amount : UInt128) : σ :=
  Storage.put s key (if amount = 0 then none else some (Wire.encode amount))

theorem amountAt?_empty (key : Digest) : amountAt? Store.empty key = some 0 := by
  simp [amountAt?, Storage.get?, Store.empty]

theorem amountAt?_of_get? {s : σ} {key : Digest} {amount : UInt128}
    (hget : Storage.get? s key = some (Wire.encode amount)) : amountAt? s key = some amount := by
  unfold amountAt?
  rw [hget]
  dsimp only
  rw [Wire.decode_encode trivial]
  rfl

/-- An amount other than zero is stored in its byte form. -/
theorem get?_of_amountAt? {s : σ} {key : Digest} {amount : UInt128}
    (h : amountAt? s key = some amount) (hne : amount ≠ 0) :
    Storage.get? s key = some (Wire.encode amount) := by
  unfold amountAt? at h
  cases hget : Storage.get? s key with
  | none =>
    rw [hget] at h
    cases h
    exact absurd rfl hne
  | some raw =>
    rw [hget] at h
    dsimp only at h
    cases hdecode : (Wire.decode raw : Except DecodeError UInt128) with
    | error e =>
      rw [hdecode] at h
      cases h
    | ok found =>
      rw [hdecode] at h
      cases h
      rw [(Wire.decode_eq_ok.mp hdecode).2]

section Lawful

variable [LawfulStorage σ]

theorem amountAt?_setAmount (s : σ) (key : Digest) (amount : UInt128) (other : Digest) :
    amountAt? (setAmount s key amount) other =
      if key = other then some amount else amountAt? s other := by
  unfold amountAt? setAmount
  rw [LawfulStorage.get?_put]
  by_cases hkey : key = other
  · rw [if_pos hkey, if_pos hkey]
    by_cases hzero : amount = 0
    · rw [if_pos hzero, hzero]
    · rw [if_neg hzero]
      show (Wire.decode (Wire.encode amount) : Except DecodeError UInt128).toOption = _
      rw [Wire.decode_encode trivial]
      rfl
  · rw [if_neg hkey, if_neg hkey]

/-- Writing any other entry leaves an amount as it is. -/
theorem amountAt?_put_of_ne (s : σ) {key other : Digest} (h : key ≠ other)
    (value : Option Bytes) : amountAt? (Storage.put s key value) other = amountAt? s other := by
  unfold amountAt?
  rw [LawfulStorage.get?_put, if_neg h]

end Lawful

/-! ## Runs -/

theorem run_readAt (key : Digest) (s : σ) :
    (readAt key).run s =
      match amountAt? s key with
      | some amount => .ok amount s
      | none => .error (.corruptEntry key) s := by
  unfold readAt amountAt?
  rw [Script.run_bind_of_ok (Script.run_get? key s)]
  cases Storage.get? s key with
  | none => rfl
  | some raw =>
    dsimp only
    cases (Wire.decode raw : Except DecodeError UInt128) with
    | ok amount => rfl
    | error e => rfl

theorem run_readAt_eq_ok {key : Digest} {s t : σ} {amount : UInt128} :
    (readAt key).run s = .ok amount t ↔ t = s ∧ amountAt? s key = some amount := by
  rw [run_readAt]
  cases amountAt? s key with
  | none => simp
  | some held => simp [and_comm, eq_comm]

@[simp] theorem run_writeAt (key : Digest) (amount : UInt128) (s : σ) :
    (writeAt key amount).run s = .ok () (setAmount s key amount) := rfl

theorem run_credit_eq_ok {token holder : Address} {amount : UInt128} {s t : σ} :
    (credit token holder amount).run s = .ok () t ↔
      ∃ held sum, amountAt? s (key token holder) = some held ∧
        held.toNat + amount.toNat = sum.toNat ∧ t = setAmount s (key token holder) sum := by
  unfold credit
  rw [Script.run_bind_eq_ok]
  constructor
  · rintro ⟨held, u, hread, h⟩
    obtain ⟨rfl, hheld⟩ := run_readAt_eq_ok.mp hread
    cases hsum : held.add? amount with
    | none =>
      rw [hsum] at h
      cases h
    | some sum =>
      rw [hsum] at h
      cases h
      exact ⟨held, sum, hheld, UInt128.ofNat?_eq_some.mp hsum, rfl⟩
  · rintro ⟨held, sum, hheld, hsum, rfl⟩
    refine ⟨held, s, run_readAt_eq_ok.mpr ⟨rfl, hheld⟩, ?_⟩
    have hadd : held.add? amount = some sum := UInt128.ofNat?_eq_some.mpr hsum
    rw [hadd]
    rfl

theorem run_readAt_of_error {key : Digest} {s t : σ} {e : LedgerError}
    (h : (readAt key).run s = .error e t) : t = s := by
  rw [run_readAt] at h
  cases hheld : amountAt? s key with
  | some amount =>
    rw [hheld] at h
    cases h
  | none =>
    rw [hheld] at h
    cases h
    rfl

/-- A credit that fails writes nothing: the sum is worked out before it is kept. -/
theorem run_credit_of_error {token holder : Address} {amount : UInt128} {s t : σ} {e : LedgerError}
    (h : (credit token holder amount).run s = .error e t) : t = s := by
  unfold credit at h
  rcases Script.run_bind_eq_error.mp h with hread | ⟨held, u, hread, hrest⟩
  · exact run_readAt_of_error hread
  · have hsame := (run_readAt_eq_ok.mp hread).1
    cases hsum : held.add? amount with
    | none =>
      rw [hsum] at hrest
      cases hrest
      exact hsame
    | some sum =>
      rw [hsum] at hrest
      cases hrest

theorem run_credit_of_overflow {token holder : Address} {amount had : UInt128} {s : σ}
    (hhad : amountAt? s (key token holder) = some had)
    (hfull : UInt128.max.toNat < had.toNat + amount.toNat) :
    (credit token holder amount).run s = .error (.overflow token holder) s := by
  unfold credit
  rw [Script.run_bind_of_ok (run_readAt_eq_ok.mpr ⟨rfl, hhad⟩)]
  have hadd : had.add? amount = none := UInt128.ofNat?_eq_none.mpr hfull
  rw [hadd]
  rfl

theorem run_debit_eq_ok {token holder : Address} {amount : UInt128} {s t : σ} :
    (debit token holder amount).run s = .ok () t ↔
      ∃ held, amountAt? s (key token holder) = some held ∧ amount ≤ held ∧
        t = setAmount s (key token holder) (held - amount) := by
  unfold debit
  rw [Script.run_bind_eq_ok]
  constructor
  · rintro ⟨held, u, hread, h⟩
    obtain ⟨rfl, hheld⟩ := run_readAt_eq_ok.mp hread
    by_cases hlt : held < amount
    · rw [if_pos hlt] at h
      cases h
    · rw [if_neg hlt] at h
      cases h
      exact ⟨held, hheld, BitVec.not_lt.mp hlt, rfl⟩
  · rintro ⟨held, hheld, hle, rfl⟩
    refine ⟨held, s, run_readAt_eq_ok.mpr ⟨rfl, hheld⟩, ?_⟩
    rw [if_neg (BitVec.not_lt.mpr hle)]
    rfl

theorem run_debit_of_lt {token holder : Address} {amount held : UInt128} {s : σ}
    (hheld : amountAt? s (key token holder) = some held) (hlt : held < amount) :
    (debit token holder amount).run s =
      .error (.insufficientBalance token holder amount held) s := by
  unfold debit
  rw [Script.run_bind_of_ok (run_readAt_eq_ok.mpr ⟨rfl, hheld⟩), if_pos hlt]
  rfl

/-- A debit that fails writes nothing. -/
theorem run_debit_of_error {token holder : Address} {amount : UInt128} {s t : σ} {e : LedgerError}
    (h : (debit token holder amount).run s = .error e t) : t = s := by
  unfold debit at h
  rcases Script.run_bind_eq_error.mp h with hread | ⟨held, u, hread, hrest⟩
  · exact run_readAt_of_error hread
  · have hsame := (run_readAt_eq_ok.mp hread).1
    by_cases hlt : held < amount
    · rw [if_pos hlt] at hrest
      cases hrest
      exact hsame
    · rw [if_neg hlt] at hrest
      cases hrest

theorem run_transfer_eq_ok {token payer payee : Address} {amount : UInt128} {s t : σ} :
    (transfer token payer payee amount).run s = .ok () t ↔
      ∃ u, (debit token payer amount).run s = .ok () u ∧
        (credit token payee amount).run u = .ok () t := by
  unfold transfer
  rw [Script.run_bind_eq_ok]
  constructor
  · rintro ⟨⟨⟩, u, h⟩
    exact ⟨u, h⟩
  · rintro ⟨u, h⟩
    exact ⟨(), u, h⟩

/-! ## What runs do to the amount under a key -/

variable [LawfulStorage σ] {token holder payer payee : Address} {amount : UInt128} {s t : σ}

/-- **A credit adds to one key.** -/
theorem amountAt?_credit (h : (credit token holder amount).run s = .ok () t) {k : Digest}
    {x : UInt128} (hx : amountAt? s k = some x) :
    ∃ y, amountAt? t k = some y ∧
      y.toNat = x.toNat + if key token holder = k then amount.toNat else 0 := by
  obtain ⟨held, sum, hheld, hsum, rfl⟩ := run_credit_eq_ok.mp h
  rw [amountAt?_setAmount]
  by_cases hk : key token holder = k
  · rw [if_pos hk, if_pos hk]
    rw [hk, hx] at hheld
    cases hheld
    exact ⟨sum, rfl, hsum.symm⟩
  · rw [if_neg hk, if_neg hk]
    exact ⟨x, hx, rfl⟩

/-- **A debit takes from one key.** -/
theorem amountAt?_debit (h : (debit token holder amount).run s = .ok () t) {k : Digest}
    {x : UInt128} (hx : amountAt? s k = some x) :
    ∃ y, amountAt? t k = some y ∧
      (y.toNat + if key token holder = k then amount.toNat else 0) = x.toNat := by
  obtain ⟨held, hheld, hle, rfl⟩ := run_debit_eq_ok.mp h
  rw [amountAt?_setAmount]
  by_cases hk : key token holder = k
  · rw [if_pos hk, if_pos hk]
    rw [hk, hx] at hheld
    cases hheld
    refine ⟨x - amount, rfl, ?_⟩
    rw [BitVec.toNat_sub_of_le hle]
    have hle : amount.toNat ≤ x.toNat := hle
    omega
  · rw [if_neg hk, if_neg hk]
    exact ⟨x, hx, rfl⟩

/-- A transfer takes from one key and adds to one, which may be the same. -/
theorem amountAt?_transfer (h : (transfer token payer payee amount).run s = .ok () t) {k : Digest}
    {x : UInt128} (hx : amountAt? s k = some x) :
    ∃ y, amountAt? t k = some y ∧
      (y.toNat + if key token payer = k then amount.toNat else 0) =
        x.toNat + if key token payee = k then amount.toNat else 0 := by
  obtain ⟨u, hdebit, hcredit⟩ := run_transfer_eq_ok.mp h
  obtain ⟨z, hz, hzx⟩ := amountAt?_debit hdebit hx
  obtain ⟨y, hy, hyz⟩ := amountAt?_credit hcredit hz
  exact ⟨y, hy, by omega⟩

/-- A transfer from a payer who holds as much, to a payee under another key. -/
theorem run_transfer_of_ne {held had sum : UInt128} (hne : key token payer ≠ key token payee)
    (hpayer : amountAt? s (key token payer) = some held) (hle : amount ≤ held)
    (hpayee : amountAt? s (key token payee) = some had)
    (hsum : had.toNat + amount.toNat = sum.toNat) :
    (transfer token payer payee amount).run s = .ok ()
      (setAmount (setAmount s (key token payer) (held - amount)) (key token payee) sum) := by
  refine run_transfer_eq_ok.mpr ⟨_, run_debit_eq_ok.mpr ⟨held, hpayer, hle, rfl⟩, ?_⟩
  refine run_credit_eq_ok.mpr ⟨had, sum, ?_, hsum, rfl⟩
  rw [amountAt?_setAmount, if_neg hne]
  exact hpayee

/-! ## Covered transfers -/

theorem get?_setAmount_of_ne {key other : Digest} (h : key ≠ other) (amount : UInt128) :
    Storage.get? (setAmount s key amount) other = Storage.get? s other := by
  rw [setAmount, LawfulStorage.get?_put, if_neg h]

/-- From `s` to `t`, as much as `n` is taken from the payer and given to the payee, and nothing
else is done. -/
structure Moves (token payer payee : Address) (n : Nat) (s t : σ) : Prop where
  amount : ∀ {k x}, amountAt? s k = some x → ∃ y, amountAt? t k = some y ∧
    (y.toNat + if key token payer = k then n else 0) =
      x.toNat + if key token payee = k then n else 0
  other : ∀ {k}, k ≠ key token payer → k ≠ key token payee → Storage.get? t k = Storage.get? s k

theorem moves_of_transfer (h : (transfer token payer payee amount).run s = .ok () t) :
    Moves token payer payee amount.toNat s t := by
  refine ⟨amountAt?_transfer h, fun hpayer hpayee => ?_⟩
  obtain ⟨u, hdebit, hcredit⟩ := run_transfer_eq_ok.mp h
  obtain ⟨held, -, -, rfl⟩ := run_debit_eq_ok.mp hdebit
  obtain ⟨had, sum, -, -, rfl⟩ := run_credit_eq_ok.mp hcredit
  rw [get?_setAmount_of_ne (Ne.symm hpayee), get?_setAmount_of_ne (Ne.symm hpayer)]

/-- **A transfer that the payer covers moves the amount, unless the payee would have too much.**
Who pays himself never has too much. -/
theorem transfer_of_covered {held had : UInt128}
    (hpayer : amountAt? s (key token payer) = some held) (hle : amount ≤ held)
    (hpayee : amountAt? s (key token payee) = some had) :
    (∃ t, (transfer token payer payee amount).run s = .ok () t ∧
      Moves token payer payee amount.toNat s t) ∨
    (key token payer ≠ key token payee ∧ UInt128.max.toNat < had.toNat + amount.toNat ∧
      ∃ t, (transfer token payer payee amount).run s = .error (.overflow token payee) t) := by
  have hdebit : (debit token payer amount).run s =
      .ok () (setAmount s (key token payer) (held - amount)) :=
    run_debit_eq_ok.mpr ⟨held, hpayer, hle, rfl⟩
  have hends (left sum : UInt128)
      (hleft : amountAt? (setAmount s (key token payer) (held - amount)) (key token payee) =
        some left) (hsum : left.toNat + amount.toNat = sum.toNat) :
      ∃ t, (transfer token payer payee amount).run s = .ok () t ∧
        Moves token payer payee amount.toNat s t := by
    have hcredit := run_credit_eq_ok.mpr ⟨left, sum, hleft, hsum, rfl⟩
    have hrun := run_transfer_eq_ok.mpr ⟨_, hdebit, hcredit⟩
    exact ⟨_, hrun, moves_of_transfer hrun⟩
  by_cases hkey : key token payer = key token payee
  · -- What was taken is given back, so the sum is what was held.
    refine .inl (hends (held - amount) held ?_ ?_)
    · rw [amountAt?_setAmount, if_pos hkey]
    · have hle' : amount.toNat ≤ held.toNat := hle
      rw [BitVec.toNat_sub_of_le hle]
      omega
  · have hhad : amountAt? (setAmount s (key token payer) (held - amount)) (key token payee) =
        some had := by
      rw [amountAt?_setAmount, if_neg hkey, hpayee]
    cases hsum : UInt128.ofNat? (had.toNat + amount.toNat) with
    | some sum => exact .inl (hends had sum hhad (UInt128.ofNat?_eq_some.mp hsum))
    | none =>
      have hfull := UInt128.ofNat?_eq_none.mp hsum
      have hcredit := run_credit_of_overflow hhad hfull
      refine .inr ⟨hkey, hfull, setAmount s (key token payer) (held - amount), ?_⟩
      rw [transfer, Script.run_bind_of_ok hdebit, hcredit]

end Crossnet.Ledger
