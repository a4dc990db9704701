import Crossnet.Proofs.Effect
import Crossnet.Proofs.Storage.Confined

/-!
# Effects that commute

Two lists of effects may be carried out in either order, where both orders end
well and no owners are changed in both lists.  Entries that only one list touches
are decided by that list.  A balance that both touch goes through other amounts in
the one order than in the other, and may be absent in between; in the end it is
the old amount with all credits and debits, and an amount is stored in one way
only.

* `agreeOn_of_leads`: what effects leave under a key depends on what was there.
* `settled_of_leads`: a balance that is touched was an amount, and is stored as
  one.
* `leads_comm`: **lists of effects commute.**
-/

namespace Crossnet

namespace Ledger

variable {σ : Type} [Storage σ] {s t : σ} {key : Digest}

/-- How an amount is stored. -/
def entry (amount : UInt128) : Option Bytes :=
  if amount = 0 then none else some (Wire.encode amount)

theorem setAmount_eq (s : σ) (key : Digest) (amount : UInt128) :
    setAmount s key amount = Storage.put s key (entry amount) := rfl

theorem amountAt?_congr (h : Storage.get? s key = Storage.get? t key) :
    amountAt? s key = amountAt? t key := by
  unfold amountAt?
  rw [h]

theorem amountAt?_of_entry {amount : UInt128} (h : Storage.get? s key = entry amount) :
    amountAt? s key = some amount := by
  unfold amountAt?
  rw [h]
  unfold entry
  by_cases hzero : amount = 0
  · rw [if_pos hzero, hzero]
  · rw [if_neg hzero]
    show (Wire.decode (Wire.encode amount) : Except DecodeError UInt128).toOption = _
    rw [Wire.decode_encode trivial]
    rfl

variable [LawfulStorage σ] {s' t' : σ} {token holder : Address} {amount : UInt128}

theorem get?_credit_congr (hs : (credit token holder amount).run s = .ok () s')
    (ht : (credit token holder amount).run t = .ok () t')
    (h : Storage.get? s key = Storage.get? t key) :
    Storage.get? s' key = Storage.get? t' key := by
  obtain ⟨held, sum, hheld, hsum, rfl⟩ := run_credit_eq_ok.mp hs
  obtain ⟨held', sum', hheld', hsum', rfl⟩ := run_credit_eq_ok.mp ht
  rw [setAmount_eq, setAmount_eq, LawfulStorage.get?_put, LawfulStorage.get?_put]
  by_cases hkey : Ledger.key token holder = key
  · rw [if_pos hkey, if_pos hkey]
    rw [hkey] at hheld hheld'
    rw [amountAt?_congr h, hheld'] at hheld
    cases hheld
    have heq : sum = sum' := BitVec.eq_of_toNat_eq (by omega)
    rw [heq]
  · rw [if_neg hkey, if_neg hkey]
    exact h

theorem get?_debit_congr (hs : (debit token holder amount).run s = .ok () s')
    (ht : (debit token holder amount).run t = .ok () t')
    (h : Storage.get? s key = Storage.get? t key) :
    Storage.get? s' key = Storage.get? t' key := by
  obtain ⟨held, hheld, -, rfl⟩ := run_debit_eq_ok.mp hs
  obtain ⟨held', hheld', -, rfl⟩ := run_debit_eq_ok.mp ht
  rw [setAmount_eq, setAmount_eq, LawfulStorage.get?_put, LawfulStorage.get?_put]
  by_cases hkey : Ledger.key token holder = key
  · rw [if_pos hkey, if_pos hkey]
    rw [hkey] at hheld hheld'
    rw [amountAt?_congr h, hheld'] at hheld
    cases hheld
    rfl
  · rw [if_neg hkey, if_neg hkey]
    exact h

end Ledger

/-- Where the hash has no collision among entries, each of them has its key for itself. -/
theorem CollisionFree.alone_of_mem {identities : List Identity} (h : CollisionFree identities)
    (hentries : ∀ {j}, j ∈ identities → j.IsEntry) {i : Identity} (hi : i ∈ identities) :
    i.Alone identities :=
  fun j hj hdigest => Identity.preimage_inj (hentries hj) (hentries hi) (h j hj i hi hdigest)

namespace Effect

open Storage (Alike AgreeOn)

variable {σ : Type} [Storage σ] [LawfulStorage σ] {s t s' t' u v w : σ} {key : Digest}
  {xs ys es : List Effect}

/-! ## Key by key -/

theorem get?_of_run_congr {e : Effect} (hs : e.script.run s = .ok () s')
    (ht : e.script.run t = .ok () t') (h : Storage.get? s key = Storage.get? t key) :
    Storage.get? s' key = Storage.get? t' key := by
  cases e with
  | credit token holder amount =>
    exact Ledger.get?_credit_congr (Script.run_mapError_eq_ok.mp hs)
      (Script.run_mapError_eq_ok.mp ht) h
  | move token payer payee amount =>
    obtain ⟨u, hdebit, hcredit⟩ :=
      Ledger.run_transfer_eq_ok.mp (Script.run_mapError_eq_ok.mp hs)
    obtain ⟨v, hdebit', hcredit'⟩ :=
      Ledger.run_transfer_eq_ok.mp (Script.run_mapError_eq_ok.mp ht)
    exact Ledger.get?_credit_congr hcredit hcredit' (Ledger.get?_debit_congr hdebit hdebit' h)
  | found interpreter owner =>
    cases hs
    cases ht
    rw [LawfulStorage.get?_put, LawfulStorage.get?_put, h]
  | manage interpreter call =>
    obtain ⟨-, owners, howners, rfl⟩ := Owners.run_apply_eq_ok.mp hs
    obtain ⟨-, owners', howners', rfl⟩ := Owners.run_apply_eq_ok.mp ht
    rw [Owners.setOwners, Owners.setOwners, LawfulStorage.get?_put, LawfulStorage.get?_put]
    by_cases hkey : Owners.key interpreter = key
    · rw [if_pos hkey, if_pos hkey]
      rw [hkey] at howners howners'
      unfold Owners.setAt? at howners howners'
      rw [h, howners'] at howners
      cases howners
      rfl
    · rw [if_neg hkey, if_neg hkey]
      exact h

/-- **What effects leave under a key depends on what was there.** -/
theorem agreeOn_of_leads {keys : Set Digest} (hs : Leads es s s') (ht : Leads es t t')
    (h : AgreeOn keys s t) : AgreeOn keys s' t' := by
  induction es generalizing s t with
  | nil =>
    cases hs
    cases ht
    exact h
  | cons e rest ih =>
    obtain ⟨u, he, hrest⟩ := hs
    obtain ⟨v, he', hrest'⟩ := ht
    refine ih hrest hrest' fun key hkey => ?_
    exact get?_of_run_congr he he' (h key hkey)

theorem get?_of_run_of_ne {e : Effect} (h : e.script.run s = .ok () t)
    (hne : ∀ i ∈ e.identities, i.digest ≠ key) : Storage.get? t key = Storage.get? s key := by
  cases e with
  | credit token holder amount =>
    obtain ⟨held, sum, -, -, rfl⟩ := Ledger.run_credit_eq_ok.mp (Script.run_mapError_eq_ok.mp h)
    exact (LawfulStorage.get?_put ..).trans (if_neg (hne _ List.mem_cons_self))
  | move token payer payee amount =>
    obtain ⟨u, hdebit, hcredit⟩ :=
      Ledger.run_transfer_eq_ok.mp (Script.run_mapError_eq_ok.mp h)
    obtain ⟨held, -, -, rfl⟩ := Ledger.run_debit_eq_ok.mp hdebit
    obtain ⟨-, sum, -, -, rfl⟩ := Ledger.run_credit_eq_ok.mp hcredit
    have hpayer : Ledger.key token payer ≠ key := hne _ List.mem_cons_self
    have hpayee : Ledger.key token payee ≠ key :=
      hne _ (List.mem_cons_of_mem _ List.mem_cons_self)
    rw [Ledger.setAmount, LawfulStorage.get?_put, if_neg hpayee, Ledger.setAmount,
      LawfulStorage.get?_put, if_neg hpayer]
  | found interpreter owner =>
    cases h
    exact (LawfulStorage.get?_put ..).trans (if_neg (hne _ List.mem_cons_self))
  | manage interpreter call =>
    obtain ⟨-, owners, -, rfl⟩ := Owners.run_apply_eq_ok.mp h
    exact (LawfulStorage.get?_put ..).trans (if_neg (hne _ List.mem_cons_self))

/-- Keys of no entry in the list keep their value. -/
theorem get?_of_leads_of_ne (h : Leads es s t)
    (hne : ∀ i ∈ es.flatMap identities, i.digest ≠ key) :
    Storage.get? t key = Storage.get? s key := by
  induction es generalizing s with
  | nil =>
    cases h
    rfl
  | cons e rest ih =>
    obtain ⟨u, he, hrest⟩ := h
    rw [List.flatMap_cons] at hne
    have hfirst := get?_of_run_of_ne he fun i hi => hne i (List.mem_append_left _ hi)
    exact (ih hrest fun i hi => hne i (List.mem_append_right _ hi)).trans hfirst

/-! ## Balances that are touched -/

variable {token holder : Address}

/-- A balance that an effect touches was an amount, and is stored as one. -/
theorem settled_of_run {e : Effect} (h : e.script.run s = .ok () t)
    (hmem : Identity.balance token holder ∈ e.identities) :
    (∃ x, Ledger.amountAt? s (Ledger.key token holder) = some x) ∧
      ∃ y, Storage.get? t (Ledger.key token holder) = Ledger.entry y := by
  cases e with
  | credit t' h' amount =>
    obtain ⟨held, sum, hheld, -, rfl⟩ := Ledger.run_credit_eq_ok.mp (Script.run_mapError_eq_ok.mp h)
    cases List.mem_singleton.mp hmem
    exact ⟨⟨held, hheld⟩, sum, (LawfulStorage.get?_put ..).trans (if_pos rfl)⟩
  | move t' payer payee amount =>
    obtain ⟨u, hdebit, hcredit⟩ :=
      Ledger.run_transfer_eq_ok.mp (Script.run_mapError_eq_ok.mp h)
    obtain ⟨held, hheld, -, rfl⟩ := Ledger.run_debit_eq_ok.mp hdebit
    obtain ⟨held', sum, hheld', -, rfl⟩ := Ledger.run_credit_eq_ok.mp hcredit
    rw [Ledger.amountAt?_setAmount] at hheld'
    simp only [Ledger.setAmount_eq, LawfulStorage.get?_put]
    by_cases hkeys : Ledger.key t' payee = Ledger.key token holder
    · rw [if_pos hkeys]
      rw [hkeys] at hheld'
      by_cases hpayer : Ledger.key t' payer = Ledger.key token holder
      · rw [hpayer] at hheld
        exact ⟨⟨held, hheld⟩, sum, rfl⟩
      · rw [if_neg hpayer] at hheld'
        exact ⟨⟨held', hheld'⟩, sum, rfl⟩
    · rw [if_neg hkeys]
      rcases List.mem_pair.mp hmem with heq | heq
      · cases heq
        rw [if_pos rfl]
        exact ⟨⟨held, hheld⟩, held - amount, rfl⟩
      · cases heq
        exact absurd rfl hkeys
  | found interpreter owner => cases List.mem_singleton.mp hmem
  | manage interpreter call => cases List.mem_singleton.mp hmem

/-- **A balance that effects touch was an amount, and is stored as one.** -/
theorem settled_of_leads (h : Leads es s t)
    (halone : (Identity.balance token holder).Alone (es.flatMap identities))
    (hmem : Identity.balance token holder ∈ es.flatMap identities) :
    (∃ x, Ledger.amountAt? s (Ledger.key token holder) = some x) ∧
      ∃ y, Storage.get? t (Ledger.key token holder) = Ledger.entry y := by
  induction es generalizing s with
  | nil => cases hmem
  | cons e rest ih =>
    obtain ⟨u, he, hrest⟩ := h
    rw [List.flatMap_cons] at halone hmem
    have hsame : ∀ {zs : List Identity}, zs ⊆ e.identities ++ rest.flatMap identities →
        Identity.balance token holder ∉ zs → ∀ i ∈ zs, i.digest ≠ Ledger.key token holder := by
      intro zs hsub hnot i hi hdigest
      rw [halone i (hsub hi) hdigest] at hi
      exact hnot hi
    -- It is stored by the last effect that touches it, and was an amount before the first one.
    by_cases hlater : Identity.balance token holder ∈ rest.flatMap identities
    · obtain ⟨⟨x, hx⟩, hy⟩ := ih hrest (halone.mono (List.subset_append_right _ _)) hlater
      by_cases hfirst : Identity.balance token holder ∈ e.identities
      · exact ⟨(settled_of_run he hfirst).1, hy⟩
      · have hkept := get?_of_run_of_ne he (hsame (List.subset_append_left _ _) hfirst)
        exact ⟨⟨x, (Ledger.amountAt?_congr hkept).symm.trans hx⟩, hy⟩
    · have hfirst := (List.mem_append.mp hmem).resolve_right hlater
      obtain ⟨hx, y, hy⟩ := settled_of_run he hfirst
      have hkept := get?_of_leads_of_ne hrest (hsame (List.subset_append_right _ _) hlater)
      exact ⟨hx, y, hkept.trans hy⟩

/-- A balance is stored alike after two lists with the same credits and debits that touch it. -/
theorem get?_eq_of_sums {zs : List Effect} (hy : Leads ys s t) (hz : Leads zs s u)
    (halone : (Identity.balance token holder).Alone (ys.flatMap identities))
    (halone' : (Identity.balance token holder).Alone (zs.flatMap identities))
    (hmem : Identity.balance token holder ∈ ys.flatMap identities)
    (hmem' : Identity.balance token holder ∈ zs.flatMap identities)
    (hperm : ys.Perm zs) :
    Storage.get? t (Ledger.key token holder) = Storage.get? u (Ledger.key token holder) := by
  obtain ⟨⟨x, hx⟩, y, hy'⟩ := settled_of_leads hy halone hmem
  obtain ⟨-, z, hz'⟩ := settled_of_leads hz halone' hmem'
  obtain ⟨y', hafter, hsum⟩ := amountAt?_of_leads hy halone hx
  obtain ⟨z', hafter', hsum'⟩ := amountAt?_of_leads hz halone' hx
  rw [Ledger.amountAt?_of_entry hy'] at hafter
  rw [Ledger.amountAt?_of_entry hz'] at hafter'
  cases hafter
  cases hafter'
  rw [(hperm.map _).sum_eq, (hperm.map (credited token holder)).sum_eq] at hsum
  have heq : y = z := BitVec.eq_of_toNat_eq (by omega)
  rw [hy', hz', heq]

/-! ## Two lists -/

/-- A key that the first list does not touch is decided by the second one. -/
theorem get?_eq_of_untouched (hxs : Leads xs s v) (hys : Leads ys v t) (hys' : Leads ys s w)
    (hxs' : Leads xs w u) (hne : ∀ i ∈ xs.flatMap identities, i.digest ≠ key) :
    Storage.get? t key = Storage.get? u key := by
  have hfirst : AgreeOn {k | k = key} s v := by
    rintro k rfl
    exact (get?_of_leads_of_ne hxs hne).symm
  have hsecond : Storage.get? w key = Storage.get? t key :=
    agreeOn_of_leads hys' hys hfirst key rfl
  exact hsecond.symm.trans (get?_of_leads_of_ne hxs' hne).symm

omit [Storage σ] [LawfulStorage σ] in
theorem isEntry_of_mem_flatMap {i : Identity} (h : i ∈ es.flatMap identities) : i.IsEntry := by
  obtain ⟨e, -, hi⟩ := List.mem_flatMap.mp h
  exact isEntry_of_mem hi

/-- **Lists of effects commute**, where both orders end well, no owners are changed in both lists,
and the hash takes their entries to different keys. -/
theorem leads_comm (hxy : Leads (xs ++ ys) s t) (hyx : Leads (ys ++ xs) s u)
    (hsha : CollisionFree (xs.flatMap identities ++ ys.flatMap identities))
    (howners : ∀ i, .owners i ∈ xs.flatMap identities → .owners i ∉ ys.flatMap identities) :
    Alike t u := by
  intro key
  obtain ⟨v, hxs, hys⟩ := leads_append.mp hxy
  obtain ⟨w, hys', hxs'⟩ := leads_append.mp hyx
  -- A key that one list leaves alone is decided by the other one; if both touch it, they mean one
  -- entry by it, and that is no set of owners.
  by_cases hx : ∃ i ∈ xs.flatMap identities, i.digest = key
  · by_cases hy : ∃ j ∈ ys.flatMap identities, j.digest = key
    · obtain ⟨i, hi, rfl⟩ := hx
      obtain ⟨j, hj, hdigest⟩ := hy
      have hentries : ∀ {k}, k ∈ xs.flatMap identities ++ ys.flatMap identities → k.IsEntry := by
        intro k hk
        rw [← List.flatMap_append] at hk
        exact isEntry_of_mem_flatMap hk
      have halone := hsha.alone_of_mem hentries (List.mem_append_left _ hi)
      obtain rfl : j = i := halone j (List.mem_append_right _ hj) hdigest
      have hentry : j.IsEntry := isEntry_of_mem_flatMap hi
      cases j with
      | balance token holder =>
        refine get?_eq_of_sums hxy hyx ?_ ?_ ?_ ?_ List.perm_append_comm
        · rw [List.flatMap_append]
          exact halone
        · rw [List.flatMap_append]
          exact halone.mono (List.append_subset.mpr
            ⟨List.subset_append_right _ _, List.subset_append_left _ _⟩)
        · rw [List.flatMap_append]
          exact List.mem_append_left _ hi
        · rw [List.flatMap_append]
          exact List.mem_append_left _ hj
      | owners interpreter => exact absurd hj (howners interpreter hi)
      | interpreter => cases hentry
      | escrow => cases hentry
      | delivery => cases hentry
      | program => cases hentry
    · exact (get?_eq_of_untouched hys' hxs' hxs hys fun j hj hdigest => hy ⟨j, hj, hdigest⟩).symm
  · exact get?_eq_of_untouched hxs hys hys' hxs' fun i hi hdigest => hx ⟨i, hi, hdigest⟩

end Effect

end Crossnet
