import Mathlib.Logic.Function.Basic
import Crossnet.Ledger.History
import Crossnet.Proofs.Identity
import Crossnet.Proofs.Ledger.Holding
import Crossnet.Storage.Layers

/-!
# A ledger is a map of amounts

A ledger keeps amounts as optional byte strings under hashes, and a transfer reads
and writes twice.  Seen from outside it is a map from accounts to amounts, in
which a transfer is one change.  `Accounts` is that map.  The two answer alike as
long as the hash tells the accounts apart that the operations name.

* `Shows.perform`: **an operation keeps the ledger in line with the map**, and is
  answered alike.
* `eq_or_paid_of_error`: what an operation that fails leaves.
* `refines_accounts`: **a ledger is a map of amounts.**
-/

namespace Crossnet

/-! ## A map of amounts -/

/-- What there is on each account: a number below `2 ^ 128` for each token and holder. -/
abbrev Accounts := Address × Address → UInt128

namespace Accounts

open Ledger (Operation Answer)

/-- The map with another amount on an account. -/
def set (b : Accounts) (account : Address × Address) (amount : UInt128) : Accounts :=
  Function.update b account amount

/-- What an operation answers, and the map after it.  A credit needs room below `2 ^ 128`, a debit
needs as much as it takes.  A transfer needs both, but none of the room when payer and payee are
one, and where only the room is missing the payer has paid. -/
def perform (b : Accounts) : Operation → Except LedgerError Answer × Accounts
  | .balance token holder => (.ok (.amount (b (token, holder))), b)
  | .credit token holder amount =>
    if h : (b (token, holder)).toNat + amount.toNat < 2 ^ 128 then
      (.ok .done, b.set (token, holder) (BitVec.ofNatLT _ h))
    else (.error (.overflow token holder), b)
  | .debit token holder amount =>
    if amount ≤ b (token, holder) then
      (.ok .done, b.set (token, holder) (b (token, holder) - amount))
    else (.error (.insufficientBalance token holder amount (b (token, holder))), b)
  | .transfer token payer payee amount =>
    if amount ≤ b (token, payer) then
      let paid := b.set (token, payer) (b (token, payer) - amount)
      if payer = payee then (.ok .done, b)
      else if h : (b (token, payee)).toNat + amount.toNat < 2 ^ 128 then
        (.ok .done, paid.set (token, payee) (BitVec.ofNatLT _ h))
      else (.error (.overflow token payee), paid)
    else (.error (.insufficientBalance token payer amount (b (token, payer))), b)

/-- Performs operations in order, and lists what they answered. -/
def replay (b : Accounts) : List Operation → List (Except LedgerError Answer) × Accounts
  | [] => ([], b)
  | op :: rest =>
    let (answer, after) := b.perform op
    let (answers, last) := replay after rest
    (answer :: answers, last)

variable {b : Accounts} {token payer : Address} {amount : UInt128}

/-- A covered transfer is a debit and then a credit.  Who pays himself has room for what he has
paid, and then as much as before. -/
theorem perform_transfer_of_le (payee : Address) (hle : amount ≤ b (token, payer)) :
    b.perform (.transfer token payer payee amount) =
      (b.set (token, payer) (b (token, payer) - amount)).perform (.credit token payee amount) := by
  have hcovered : b.perform (.transfer token payer payee amount) = _ := if_pos hle
  rw [hcovered]
  by_cases hself : payer = payee
  · subst hself
    have hleft : b.set (token, payer) (b (token, payer) - amount) (token, payer) =
        b (token, payer) - amount := Function.update_self _ _ _
    have hsum : (b (token, payer) - amount).toNat + amount.toNat = (b (token, payer)).toNat := by
      have hle' : amount.toNat ≤ (b (token, payer)).toNat := hle
      rw [BitVec.toNat_sub_of_le hle]
      omega
    have hback (sum : UInt128) (h : sum.toNat = (b (token, payer)).toNat) :
        (b.set (token, payer) (b (token, payer) - amount)).set (token, payer) sum = b := by
      rw [BitVec.eq_of_toNat_eq h, set, set, Function.update_idem, Function.update_eq_self]
    rw [if_pos rfl, perform]
    split
    next hroom => rw [hback _ (by rw [BitVec.toNat_ofNatLT, hleft, hsum])]
    next hfull =>
      rw [hleft, hsum] at hfull
      exact absurd (b (token, payer)).isLt hfull
  · have hother : b.set (token, payer) (b (token, payer) - amount) (token, payee) =
        b (token, payee) :=
      Function.update_of_ne (fun heq => hself (Prod.mk.inj heq).2.symm) _ _
    rw [if_neg hself, perform]
    simp only [hother]

end Accounts

namespace Ledger

variable {σ : Type} [Storage σ]

/-- The key of an account. -/
abbrev keyOf (account : Address × Address) : Digest := key account.1 account.2

/-- The amounts that a storage shows.  An entry that is no amount counts as zero. -/
def shown (s : σ) : Accounts := fun account => (amountAt? s (keyOf account)).getD 0

/-- The accounts that operations name. -/
def named (ops : List Operation) : List (Address × Address) := ops.flatMap Operation.accounts

/-- No two of the accounts have one key. -/
def Distinct (known : List (Address × Address)) : Prop :=
  ∀ a ∈ known, ∀ c ∈ known, keyOf a = keyOf c → a = c

theorem distinct_of_collisionFree {known : List (Address × Address)}
    (hsha : CollisionFree (known.map fun a => .balance a.1 a.2)) : Distinct known := by
  intro a ha c hc hkey
  have hpreimage := hsha _ (List.mem_map_of_mem ha) _ (List.mem_map_of_mem hc) hkey
  have hsame : Identity.balance a.1 a.2 = .balance c.1 c.2 :=
    Identity.preimage_inj trivial trivial hpreimage
  rw [Identity.balance.injEq] at hsame
  exact Prod.ext hsame.1 hsame.2

/-! ## Storages in line with a map -/

/-- On the known accounts the storage shows what the map says. -/
def Shows (known : List (Address × Address)) (s : σ) (b : Accounts) : Prop :=
  ∀ a ∈ known, amountAt? s (keyOf a) = some (b a)

/-- From `s` to `t` nothing is written but entries of the known accounts. -/
def Spares (known : List (Address × Address)) (s t : σ) : Prop :=
  ∀ key, key ∉ known.map keyOf → Storage.get? t key = Storage.get? s key

variable {known : List (Address × Address)} {s t u : σ} {b c : Accounts}
  {a : Address × Address} {token holder payer payee : Address} {op : Operation}

theorem shows_shown (hdecode : ∀ a ∈ known, (amountAt? s (keyOf a)).isSome) :
    Shows known s (shown s) := by
  intro a ha
  rw [shown, ← Option.some_get (hdecode a ha), Option.getD_some]

theorem Spares.refl (known : List (Address × Address)) (s : σ) : Spares known s s :=
  fun _ _ => rfl

theorem Spares.trans (hst : Spares known s t) (htu : Spares known t u) : Spares known s u :=
  fun key hkey => (htu key hkey).trans (hst key hkey)

/-- What an operation answers and leaves on the storage is what it answers and leaves in the map,
and it writes entries of the known accounts only. -/
structure Follows (known : List (Address × Address)) (s : σ) (b : Accounts) (op : Operation) :
    Prop where
  answer : (perform s op).1 = (b.perform op).1
  shows : Shows known (perform s op).2 (b.perform op).2
  spares : Spares known s (perform s op).2

theorem Follows.of_eq {answer : Except LedgerError Answer} (hperform : perform s op = (answer, t))
    (hmap : b.perform op = (answer, c)) (hshows : Shows known t c) (hspares : Spares known s t) :
    Follows known s b op := by
  constructor
  · rw [hperform, hmap]
  · rw [hperform, hmap]
    exact hshows
  · rw [hperform]
    exact hspares

/-! ## Single operations -/

section Perform

variable {α : Type} {script : Script LedgerError α} {result : α → Answer}

theorem perform_of_ok (hscript : op.script = script >>= fun x => pure (result x)) {x : α}
    (h : script.run s = .ok x t) : perform s op = (.ok (result x), t) := by
  rw [perform, hscript, Script.run_bind_of_ok h]
  rfl

theorem perform_of_error {e : LedgerError}
    (hscript : op.script = script >>= fun x => pure (result x)) (h : script.run s = .error e t) :
    perform s op = (.error e, t) := by
  rw [perform, hscript, Script.run_bind_eq_error.mpr (.inl h)]

theorem run_of_perform_error {e : LedgerError}
    (hscript : op.script = script >>= fun x => pure (result x))
    (h : perform s op = (.error e, t)) : script.run s = .error e t := by
  cases hrun : script.run s with
  | ok x u =>
    rw [perform_of_ok hscript hrun] at h
    cases h
  | error d u =>
    rw [perform_of_error hscript hrun] at h
    cases h
    rfl

end Perform

/-- Once the payer has paid, a transfer is a credit. -/
theorem perform_transfer_of_debit {amount : UInt128} (payee : Address)
    (h : (debit token payer amount).run s = .ok () t) :
    perform s (.transfer token payer payee amount) = perform t (.credit token payee amount) := by
  have hscript : (Operation.transfer token payer payee amount).script.run s =
      (Operation.credit token payee amount).script.run t := by
    show ((debit token payer amount >>= fun _ => credit token payee amount) >>= _).run s = _
    rw [bind_assoc, Script.run_bind_of_ok h]
    rfl
  rw [perform, hscript]
  rfl

theorem follows_balance (h : Shows known s b) (hmem : (token, holder) ∈ known) :
    Follows known s b (.balance token holder) := by
  have hheld : amountAt? s (key token holder) = some (b (token, holder)) := h (token, holder) hmem
  have hread : (Ledger.balance token holder).run s = .ok (b (token, holder)) s :=
    run_readAt_eq_ok.mpr ⟨rfl, hheld⟩
  exact .of_eq (perform_of_ok rfl hread) rfl h (.refl _ _)

section Lawful

variable [LawfulStorage σ]

theorem Spares.setAmount (ha : a ∈ known) (s : σ) (amount : UInt128) :
    Spares known s (setAmount s (keyOf a) amount) := by
  intro key hkey
  refine get?_setAmount_of_ne (fun heq => hkey ?_) amount
  rw [← heq]
  exact List.mem_map_of_mem ha

theorem Shows.setAmount (hdistinct : Distinct known) (h : Shows known s b) (ha : a ∈ known)
    (amount : UInt128) : Shows known (setAmount s (keyOf a) amount) (b.set a amount) := by
  intro c hc
  rw [amountAt?_setAmount, Accounts.set]
  by_cases hkey : keyOf a = keyOf c
  · rw [if_pos hkey, hdistinct a ha c hc hkey, Function.update_self]
  · have hne : c ≠ a := fun heq => hkey (by rw [heq])
    rw [if_neg hkey, h c hc, Function.update_of_ne hne]

variable {amount : UInt128}

theorem follows_credit (hdistinct : Distinct known) (h : Shows known s b)
    (hmem : (token, holder) ∈ known) : Follows known s b (.credit token holder amount) := by
  have hheld := h (token, holder) hmem
  by_cases hroom : (b (token, holder)).toNat + amount.toNat < 2 ^ 128
  · have hrun := run_credit_eq_ok.mpr
      ⟨b (token, holder), BitVec.ofNatLT _ hroom, hheld, (BitVec.toNat_ofNatLT _ _).symm, rfl⟩
    have hscript : (Operation.credit token holder amount).script =
        credit token holder amount >>= fun _ => pure .done := rfl
    exact .of_eq (perform_of_ok hscript hrun) (dif_pos hroom) (h.setAmount hdistinct hmem _)
      (.setAmount hmem _ _)
  · have hfull : UInt128.max.toNat < (b (token, holder)).toNat + amount.toNat := by
      rw [UInt128.max, BitVec.toNat_allOnes]
      omega
    have hrun := run_credit_of_overflow hheld hfull
    exact .of_eq (perform_of_error rfl hrun) (dif_neg hroom) h (.refl _ _)

theorem follows_debit (hdistinct : Distinct known) (h : Shows known s b)
    (hmem : (token, holder) ∈ known) : Follows known s b (.debit token holder amount) := by
  have hheld := h (token, holder) hmem
  by_cases hle : amount ≤ b (token, holder)
  · have hrun := run_debit_eq_ok.mpr ⟨b (token, holder), hheld, hle, rfl⟩
    have hscript : (Operation.debit token holder amount).script =
        debit token holder amount >>= fun _ => pure .done := rfl
    exact .of_eq (perform_of_ok hscript hrun) (if_pos hle) (h.setAmount hdistinct hmem _)
      (.setAmount hmem _ _)
  · have hrun := run_debit_of_lt hheld (BitVec.not_le.mp hle)
    exact .of_eq (perform_of_error rfl hrun) (if_neg hle) h (.refl _ _)

theorem follows_transfer (hdistinct : Distinct known) (h : Shows known s b)
    (hpayer : (token, payer) ∈ known) (hpayee : (token, payee) ∈ known) :
    Follows known s b (.transfer token payer payee amount) := by
  have hheld := h (token, payer) hpayer
  by_cases hle : amount ≤ b (token, payer)
  · have hdebit := run_debit_eq_ok.mpr ⟨b (token, payer), hheld, hle, rfl⟩
    have hpaid := h.setAmount hdistinct hpayer (b (token, payer) - amount)
    have hcredit : Follows known _ _ (.credit token payee amount) :=
      follows_credit hdistinct hpaid hpayee
    have hperform := perform_transfer_of_debit payee hdebit
    have hmap := Accounts.perform_transfer_of_le payee hle
    constructor
    · rw [hperform, hmap]
      exact hcredit.answer
    · rw [hperform, hmap]
      exact hcredit.shows
    · rw [hperform]
      exact (Spares.setAmount hpayer s _).trans hcredit.spares
  · have hdebit := run_debit_of_lt hheld (BitVec.not_le.mp hle)
    have hrun : (transfer token payer payee amount).run s = .error _ s :=
      Script.run_bind_eq_error.mpr (.inl hdebit)
    exact .of_eq (perform_of_error rfl hrun) (if_neg hle) h (.refl _ _)

/-- **An operation on known accounts keeps the storage in line with the map**, and is answered
alike. -/
theorem Shows.perform (hdistinct : Distinct known) (h : Shows known s b)
    (hop : op.accounts ⊆ known) : Follows known s b op := by
  cases op with
  | balance token holder => exact follows_balance h (hop List.mem_cons_self)
  | credit token holder amount => exact follows_credit hdistinct h (hop List.mem_cons_self)
  | debit token holder amount => exact follows_debit hdistinct h (hop List.mem_cons_self)
  | transfer token payer payee amount =>
    exact follows_transfer hdistinct h (hop List.mem_cons_self)
      (hop (List.mem_cons_of_mem _ List.mem_cons_self))

/-! ## Runs -/

theorem Shows.replay (hdistinct : Distinct known) (h : Shows known s b) {ops : List Operation}
    (hops : named ops ⊆ known) :
    (replay s ops).1 = (b.replay ops).1 ∧
      Shows known (Ledger.replay s ops).2 (b.replay ops).2 ∧
      Spares known s (Ledger.replay s ops).2 := by
  induction ops generalizing s b with
  | nil => exact ⟨rfl, h, .refl _ _⟩
  | cons op rest ih =>
    obtain ⟨hop, hrest⟩ := List.append_subset.mp hops
    have hfirst := h.perform hdistinct hop
    obtain ⟨hanswers, hshows, hspares⟩ := ih hfirst.shows hrest
    refine ⟨?_, hshows, hfirst.spares.trans hspares⟩
    show (Ledger.perform s op).1 :: (Ledger.replay (Ledger.perform s op).2 rest).1 = _
    rw [hfirst.answer, hanswers]
    rfl

end Lawful

/-- **An operation that fails changes nothing**, but for a transfer whose payer has paid. -/
theorem eq_or_paid_of_error {e : LedgerError} (h : perform s op = (.error e, t)) :
    t = s ∨ ∃ token payer payee amount, op = .transfer token payer payee amount ∧
      (debit token payer amount).run s = .ok () t := by
  cases op with
  | balance token holder => exact .inl (run_readAt_of_error (run_of_perform_error rfl h))
  | credit token holder amount => exact .inl (run_credit_of_error (run_of_perform_error rfl h))
  | debit token holder amount => exact .inl (run_debit_of_error (run_of_perform_error rfl h))
  | transfer token payer payee amount =>
    have hrun : (transfer token payer payee amount).run s = .error e t :=
      run_of_perform_error rfl h
    rcases Script.run_bind_eq_error.mp hrun with hdebit | ⟨⟨⟩, u, hdebit, hcredit⟩
    · exact .inl (run_debit_of_error hdebit)
    · refine .inr ⟨token, payer, payee, amount, rfl, ?_⟩
      rw [hdebit, run_credit_of_error hcredit]

/-- **A ledger is a map of amounts.**  On a store, or on overlays over it, whatever operations
follow each other: where the entries of the accounts that they name are amounts, and the hash tells
these accounts apart, the operations are answered as the map of these amounts answers them, and the
storage shows the amounts of the map in the end.  All other entries are as they were.  An operation
that fails leaves the storage as it was, but for a transfer that the payee has no room for, which
leaves what the debit makes of it. -/
theorem refines_accounts [LawfulStorage σ] {s : σ} {ops : List Operation}
    (hsha : CollisionFree ((named ops).map fun a => .balance a.1 a.2))
    (hdecode : ∀ a ∈ named ops, (amountAt? s (keyOf a)).isSome) :
    let last := (replay s ops).2
    let reference := (shown s).replay ops
    (replay s ops).1 = reference.1 ∧
      (∀ a ∈ named ops, amountAt? last (keyOf a) = some (reference.2 a)) ∧
      (∀ key, key ∉ (named ops).map keyOf → Storage.get? last key = Storage.get? s key) ∧
      ∀ (op : Operation) (t u : σ) (e : LedgerError), perform t op = (.error e, u) →
        u = t ∨ ∃ token payer payee amount, op = .transfer token payer payee amount ∧
          (debit token payer amount).run t = .ok () u := by
  intro last reference
  obtain ⟨hanswers, hshows, hspares⟩ :=
    (shows_shown hdecode).replay (distinct_of_collisionFree hsha) (List.Subset.refl _)
  exact ⟨hanswers, hshows, hspares, fun op t u e => eq_or_paid_of_error⟩

/-! ## A lender and a borrower -/

def lender : Address := ⟨FixedBytes.replicate 20 1⟩

def borrower : Address := ⟨FixedBytes.replicate 20 2⟩

/-- The lender has all that an account can hold, and the borrower has no room for the second
loan. -/
def loans : List Operation :=
  [.credit .zero lender UInt128.max, .credit .zero lender 1, .transfer .zero lender lender 7,
    .transfer .zero lender borrower 5, .credit .zero borrower (UInt128.max - 5),
    .transfer .zero lender borrower 1, .balance .zero lender, .debit .zero lender UInt128.max]

theorem named_loans_subset :
    ((named loans).map fun a => Identity.balance a.1 a.2) ⊆
      [.balance .zero lender, .balance .zero borrower] := by
  simp [named, loans, Operation.accounts]

theorem collisionFree_loans : CollisionFree ((named loans).map fun a => .balance a.1 a.2) := by
  have hnodup : ([Identity.balance .zero lender, .balance .zero borrower].map
      Identity.digest).Nodup := Identity.nodup_digest (by decide +kernel)
  intro i hi j hj hsha
  exact collisionFree_of_nodup hnodup i (named_loans_subset hi) j (named_loans_subset hj) hsha

/-- On an overlay over an empty store: answers at the edges of what an account can hold. -/
theorem refines_accounts_loans :
    (replay (Layers.base .empty).begin loans).1 =
      [.ok .done, .error (.overflow .zero lender), .ok .done, .ok .done, .ok .done,
        .error (.overflow .zero borrower), .ok (.amount (UInt128.max - 6)),
        .error (.insufficientBalance .zero lender UInt128.max (UInt128.max - 6))] := by
  have hempty : ∀ key, amountAt? (Layers.base .empty).begin key = some 0 := fun key => by
    simp [amountAt?, Storage.get?, Layers.begin, Layers.get?, Store.empty]
  have hshown : shown (Layers.base .empty).begin = fun _ => 0 := by
    funext a
    rw [shown, hempty]
    rfl
  obtain ⟨hanswers, -⟩ := refines_accounts (s := (Layers.base .empty).begin) collisionFree_loans
    fun a _ => by rw [hempty]; rfl
  rw [hanswers, hshown]
  rfl

end Ledger

end Crossnet
