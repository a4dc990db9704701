import Mathlib.Algebra.BigOperators.Group.Finset.Piecewise
import Mathlib.Algebra.GroupWithZero.Nat
import Crossnet.Proofs.Identity
import Crossnet.Proofs.Ledger.Holding
import Crossnet.Proofs.Owners.Stored

/-!
# Effects

All that a call without contracts does to a store is a list of effects: amounts
that a holder is given or that move, and owners that are set or changed.
`Leads` says that a list of effects, one after the other, takes one storage to
another.

What a list of effects does to one entry is read off the list.  For that the
digest of the entry must not be the digest of another entry in the list, which
`Identity.Alone` says; it is asked of the identities in the list only.

* `amountAt?_of_leads`: **an amount and what was debited make the old amount and
  what was credited.**
* `sum_amountAt?_of_leads`: **what holders have together is what they had and
  what was minted**, where they include all parties.
* `setAt?_of_leads`: **a set of owners is the old one after the changes in the
  list.**
-/

namespace Crossnet

/-- What is nothing for each element is nothing for all of them. -/
theorem sum_map_eq_zero {α : Type} {f : α → Nat} {xs : List α} (h : ∀ x ∈ xs, f x = 0) :
    (xs.map f).sum = 0 :=
  List.sum_eq_zero (List.forall_mem_map.mpr h)

/-! ## Effects and where they lead -/

/-- What a call does to one or two entries of a store. -/
inductive Effect
  /-- A holder is given more of a token. -/
  | credit (token holder : Address) (amount : UInt128)
  /-- An amount of a token moves. -/
  | move (token payer payee : Address) (amount : UInt128)
  /-- A new interpreter has its first owner. -/
  | found (interpreter owner : Address)
  /-- An interpreter changes its owners. -/
  | manage (interpreter : Address) (call : OwnerCall)

namespace Effect

/-- The script that has the effect. -/
def script : Effect → Script ExecutionError Unit
  | credit token holder amount => (Ledger.credit token holder amount).mapError .ledger
  | move token payer payee amount => (Ledger.transfer token payer payee amount).mapError .ledger
  | found interpreter owner => Owners.init interpreter owner
  | manage interpreter call => Owners.apply interpreter interpreter call

/-- The entries that are read and written. -/
def identities : Effect → List Identity
  | credit token holder _ => [.balance token holder]
  | move token payer payee _ => [.balance token payer, .balance token payee]
  | found interpreter _ => [.owners interpreter]
  | manage interpreter _ => [.owners interpreter]

theorem isEntry_of_mem {e : Effect} {i : Identity} (h : i ∈ e.identities) : i.IsEntry := by
  cases e with
  | credit token holder amount =>
    obtain rfl := List.mem_singleton.mp h
    trivial
  | move token payer payee amount =>
    rcases List.mem_pair.mp h with rfl | rfl
    · trivial
    · trivial
  | found interpreter owner =>
    obtain rfl := List.mem_singleton.mp h
    trivial
  | manage interpreter call =>
    obtain rfl := List.mem_singleton.mp h
    trivial

/-- What a holder is given of a token. -/
def credited (token holder : Address) : Effect → Nat
  | credit t payee amount => if t = token ∧ payee = holder then amount.toNat else 0
  | move t _ payee amount => if t = token ∧ payee = holder then amount.toNat else 0
  | found .. => 0
  | manage .. => 0

/-- What is taken of a token from a holder. -/
def debited (token holder : Address) : Effect → Nat
  | move t payer _ amount => if t = token ∧ payer = holder then amount.toNat else 0
  | _ => 0

/-- How much more of a token there is. -/
def minted (token : Address) : Effect → Nat
  | credit t _ amount => if t = token then amount.toNat else 0
  | _ => 0

/-- The owners of an interpreter after the effect. -/
def owners (interpreter : Address) (before : AddressSet) : Effect → AddressSet
  | found i owner => if i = interpreter then Std.ExtTreeSet.ofList [owner] else before
  | manage i call => if i = interpreter then call.change before else before
  | _ => before

/-- Effects, one after the other, take one storage to another. -/
def Leads {σ : Type} [Storage σ] : List Effect → σ → σ → Prop
  | [], s, t => t = s
  | e :: rest, s, t => ∃ u, e.script.run s = .ok () u ∧ Leads rest u t

variable {σ : Type} [Storage σ] {s t : σ} {token holder : Address}

theorem leads_append {xs ys : List Effect} :
    Leads (xs ++ ys) s t ↔ ∃ u, Leads xs s u ∧ Leads ys u t := by
  induction xs generalizing s with
  | nil =>
    constructor
    · intro h
      exact ⟨s, rfl, h⟩
    · rintro ⟨u, rfl, h⟩
      exact h
  | cons e rest ih =>
    constructor
    · rintro ⟨u, he, h⟩
      obtain ⟨v, hrest, hys⟩ := ih.mp h
      exact ⟨v, ⟨u, he, hrest⟩, hys⟩
    · rintro ⟨v, ⟨u, he, hrest⟩, hys⟩
      exact ⟨u, he, ih.mpr ⟨v, hrest, hys⟩⟩

theorem leads_singleton {e : Effect} : Leads [e] s t ↔ e.script.run s = .ok () t := by
  constructor
  · rintro ⟨u, he, rfl⟩
    exact he
  · intro h
    exact ⟨t, h, rfl⟩

/-! ## Amounts -/

theorem key_eq_iff {others : List Identity}
    (halone : (Identity.balance token holder).Alone others) {t' h' : Address}
    (hmem : Identity.balance t' h' ∈ others) :
    Ledger.key t' h' = Ledger.key token holder ↔ t' = token ∧ h' = holder := by
  constructor
  · intro h
    have heq := halone _ hmem h
    rw [Identity.balance.injEq] at heq
    exact heq
  · rintro ⟨rfl, rfl⟩
    rfl

variable [LawfulStorage σ]

theorem amountAt?_setOwners_of_alone {interpreter : Address}
    (halone : (Identity.balance token holder).Alone [.owners interpreter]) (s : σ)
    (owners : AddressSet) :
    Ledger.amountAt? (Owners.setOwners s (Owners.key interpreter) owners)
      (Ledger.key token holder) = Ledger.amountAt? s (Ledger.key token holder) := by
  refine Ledger.amountAt?_put_of_ne s ?_ _
  intro h
  have heq := halone _ (List.mem_singleton.mpr rfl) h
  cases heq

theorem amountAt?_of_run {e : Effect} (h : e.script.run s = .ok () t)
    (halone : (Identity.balance token holder).Alone e.identities) {x : UInt128}
    (hx : Ledger.amountAt? s (Ledger.key token holder) = some x) :
    ∃ y, Ledger.amountAt? t (Ledger.key token holder) = some y ∧
      y.toNat + e.debited token holder = x.toNat + e.credited token holder := by
  cases e with
  | credit t' h' amount =>
    obtain ⟨y, hy, hsum⟩ := Ledger.amountAt?_credit (Script.run_mapError_eq_ok.mp h) hx
    rw [if_congr (key_eq_iff halone List.mem_cons_self) rfl rfl] at hsum
    exact ⟨y, hy, hsum⟩
  | move t' payer payee amount =>
    obtain ⟨y, hy, hsum⟩ := Ledger.amountAt?_transfer (Script.run_mapError_eq_ok.mp h) hx
    rw [if_congr (key_eq_iff halone List.mem_cons_self) rfl rfl,
      if_congr (key_eq_iff halone (List.mem_cons_of_mem _ List.mem_cons_self)) rfl rfl] at hsum
    exact ⟨y, hy, hsum⟩
  | found interpreter owner =>
    cases h
    exact ⟨x, (amountAt?_setOwners_of_alone halone s _).trans hx, rfl⟩
  | manage interpreter call =>
    obtain ⟨-, owners, -, rfl⟩ := Owners.run_apply_eq_ok.mp h
    exact ⟨x, (amountAt?_setOwners_of_alone halone s _).trans hx, rfl⟩

/-- **An amount and what was debited make the old amount and what was credited.** -/
theorem amountAt?_of_leads {es : List Effect} (h : Leads es s t)
    (halone : (Identity.balance token holder).Alone (es.flatMap identities)) {x : UInt128}
    (hx : Ledger.amountAt? s (Ledger.key token holder) = some x) :
    ∃ y, Ledger.amountAt? t (Ledger.key token holder) = some y ∧
      y.toNat + (es.map (debited token holder)).sum =
        x.toNat + (es.map (credited token holder)).sum := by
  induction es generalizing s x with
  | nil =>
    cases h
    exact ⟨x, hx, rfl⟩
  | cons e rest ih =>
    obtain ⟨u, he, hrest⟩ := h
    rw [List.flatMap_cons] at halone
    obtain ⟨z, hz, hzx⟩ := amountAt?_of_run he (halone.mono (List.subset_append_left _ _)) hx
    obtain ⟨y, hy, hyz⟩ := ih hrest (halone.mono (List.subset_append_right _ _)) hz
    refine ⟨y, hy, ?_⟩
    simp only [List.map_cons, List.sum_cons]
    omega

/-! ## Sums over holders -/

omit [LawfulStorage σ] in
theorem sum_credited_eq_of_effect (e : Effect) {holders : Finset Address}
    (hholders : ∀ holder, Identity.balance token holder ∈ e.identities → holder ∈ holders) :
    ∑ holder ∈ holders, e.credited token holder =
      e.minted token + ∑ holder ∈ holders, e.debited token holder := by
  cases e with
  | credit t' payee amount =>
    simp only [credited, debited, minted, Finset.sum_const_zero, Nat.add_zero]
    by_cases ht : t' = token
    · subst ht
      have hpayee := hholders payee List.mem_cons_self
      simp only [true_and, if_true, Finset.sum_ite_eq, if_pos hpayee]
    · simp only [ht, false_and, if_false, Finset.sum_const_zero]
  | move t' payer payee amount =>
    simp only [credited, debited, minted, Nat.zero_add]
    by_cases ht : t' = token
    · subst ht
      have hpayer := hholders payer List.mem_cons_self
      have hpayee := hholders payee (List.mem_cons_of_mem _ List.mem_cons_self)
      simp only [true_and, Finset.sum_ite_eq, if_pos hpayer, if_pos hpayee]
    · simp only [ht, false_and, if_false, Finset.sum_const_zero]
  | found interpreter owner => simp [credited, debited, minted]
  | manage interpreter call => simp [credited, debited, minted]

/-- **Credits are debits and what was minted**, over holders that include all parties. -/
theorem sum_credited_eq (es : List Effect) {holders : Finset Address}
    (hholders : ∀ holder, Identity.balance token holder ∈ es.flatMap identities →
      holder ∈ holders) :
    ∑ holder ∈ holders, (es.map (credited token holder)).sum =
      (es.map (minted token)).sum + ∑ holder ∈ holders, (es.map (debited token holder)).sum := by
  induction es with
  | nil => simp
  | cons e rest ih =>
    have he := sum_credited_eq_of_effect e fun holder hmem =>
      hholders holder (List.mem_append_left _ hmem)
    have hrest := ih fun holder hmem => hholders holder (List.mem_append_right _ hmem)
    simp only [List.map_cons, List.sum_cons, Finset.sum_add_distrib]
    omega

/-- **What holders have together is what they had and what was minted**, where they include all
parties. -/
theorem sum_amountAt?_of_leads {es : List Effect} (h : Leads es s t) {holders : Finset Address}
    (hholders : ∀ holder, Identity.balance token holder ∈ es.flatMap identities →
      holder ∈ holders)
    (halone : ∀ holder ∈ holders, (Identity.balance token holder).Alone (es.flatMap identities))
    {before : Address → UInt128}
    (hbefore : ∀ holder ∈ holders,
      Ledger.amountAt? s (Ledger.key token holder) = some (before holder)) :
    ∃ after : Address → UInt128,
      (∀ holder ∈ holders, Ledger.amountAt? t (Ledger.key token holder) = some (after holder)) ∧
        ∑ holder ∈ holders, (after holder).toNat =
          ∑ holder ∈ holders, (before holder).toNat + (es.map (minted token)).sum := by
  have hafter : ∀ holder, ∃ y : UInt128, holder ∈ holders →
      Ledger.amountAt? t (Ledger.key token holder) = some y ∧
        y.toNat + (es.map (debited token holder)).sum =
          (before holder).toNat + (es.map (credited token holder)).sum := by
    intro holder
    by_cases hmem : holder ∈ holders
    · obtain ⟨y, hy⟩ := amountAt?_of_leads h (halone holder hmem) (hbefore holder hmem)
      exact ⟨y, fun _ => hy⟩
    · exact ⟨0, fun hmem' => absurd hmem' hmem⟩
  choose after hafter using hafter
  refine ⟨after, fun holder hmem => (hafter holder hmem).1, ?_⟩
  have hsum : ∑ holder ∈ holders, ((after holder).toNat + (es.map (debited token holder)).sum) =
      ∑ holder ∈ holders, ((before holder).toNat + (es.map (credited token holder)).sum) :=
    Finset.sum_congr rfl fun holder hmem => (hafter holder hmem).2
  rw [Finset.sum_add_distrib, Finset.sum_add_distrib, sum_credited_eq es hholders] at hsum
  omega

/-! ## Owners -/

section Owners

variable {interpreter : Address}

theorem setAt?_setAmount_of_alone {payee : Address}
    (halone : (Identity.owners interpreter).Alone [.balance token payee]) (s : σ)
    (amount : UInt128) :
    Owners.setAt? (Ledger.setAmount s (Ledger.key token payee) amount)
      (Owners.key interpreter) = Owners.setAt? s (Owners.key interpreter) := by
  refine Owners.setAt?_put_of_ne s ?_ _
  intro h
  have heq := halone _ (List.mem_singleton.mpr rfl) h
  cases heq

theorem setAt?_setOwners_of_alone {other : Address}
    (halone : (Identity.owners interpreter).Alone [.owners other]) (hne : other ≠ interpreter)
    (s : σ) (owners : AddressSet) :
    Owners.setAt? (Owners.setOwners s (Owners.key other) owners) (Owners.key interpreter) =
      Owners.setAt? s (Owners.key interpreter) := by
  refine Owners.setAt?_put_of_ne s ?_ _
  intro h
  have heq := halone _ (List.mem_singleton.mpr rfl) h
  rw [Identity.owners.injEq] at heq
  exact hne heq

theorem setAt?_of_run {e : Effect} (h : e.script.run s = .ok () t)
    (halone : (Identity.owners interpreter).Alone e.identities) {x : AddressSet}
    (hx : Owners.setAt? s (Owners.key interpreter) = some x)
    (hsize : (e.owners interpreter x).size < 2 ^ 64) :
    Owners.setAt? t (Owners.key interpreter) = some (e.owners interpreter x) := by
  cases e with
  | credit t' payee amount =>
    obtain ⟨-, sum, -, -, rfl⟩ := Ledger.run_credit_eq_ok.mp (Script.run_mapError_eq_ok.mp h)
    rw [setAt?_setAmount_of_alone halone]
    exact hx
  | move t' payer payee amount =>
    obtain ⟨u, hdebit, hcredit⟩ :=
      Ledger.run_transfer_eq_ok.mp (Script.run_mapError_eq_ok.mp h)
    obtain ⟨held, -, -, rfl⟩ := Ledger.run_debit_eq_ok.mp hdebit
    obtain ⟨-, sum, -, -, rfl⟩ := Ledger.run_credit_eq_ok.mp hcredit
    rw [setAt?_setAmount_of_alone (halone.mono (List.subset_cons_self _ _)),
      setAt?_setAmount_of_alone (halone.mono (by simp [identities]))]
    exact hx
  | found other owner =>
    obtain rfl : t = Owners.setOwners s (Owners.key other) (Std.ExtTreeSet.ofList [owner]) := by
      cases h
      rfl
    simp only [owners] at hsize ⊢
    by_cases heq : other = interpreter
    · subst heq
      rw [if_pos rfl] at hsize ⊢
      exact Owners.setAt?_setOwners s _ hsize
    · rw [if_neg heq, setAt?_setOwners_of_alone halone heq]
      exact hx
  | manage other call =>
    obtain ⟨-, before, hbefore, rfl⟩ := Owners.run_apply_eq_ok.mp h
    simp only [owners] at hsize ⊢
    by_cases heq : other = interpreter
    · subst heq
      rw [hx] at hbefore
      cases hbefore
      rw [if_pos rfl] at hsize ⊢
      exact Owners.setAt?_setOwners s _ hsize
    · rw [if_neg heq, setAt?_setOwners_of_alone halone heq]
      exact hx

/-- The change of an interpreter's owners in the effect. -/
def ownerCall? (interpreter : Address) : Effect → Option OwnerCall
  | manage i call => if i = interpreter then some call else none
  | _ => none

theorem ownerCall?_credit (token holder : Address) (amount : UInt128) :
    ownerCall? interpreter (credit token holder amount) = none := rfl

theorem ownerCall?_move (token payer payee : Address) (amount : UInt128) :
    ownerCall? interpreter (move token payer payee amount) = none := rfl

theorem ownerCall?_found (other owner : Address) :
    ownerCall? interpreter (found other owner) = none := rfl

theorem ownerCall?_manage (interpreter : Address) (call : OwnerCall) :
    ownerCall? interpreter (manage interpreter call) = some call := if_pos rfl

/-- Where the interpreter is not new, only changes count. -/
theorem foldl_owners_eq {es : List Effect} (hfound : ∀ owner, found interpreter owner ∉ es)
    (x : AddressSet) :
    es.foldl (owners interpreter) x =
      (es.filterMap (ownerCall? interpreter)).foldl (fun owners call => call.change owners) x := by
  induction es generalizing x with
  | nil => rfl
  | cons e rest ih =>
    have hrest := ih fun owner hmem => hfound owner (List.mem_cons_of_mem _ hmem)
    rw [List.foldl_cons, hrest, List.filterMap_cons]
    cases e with
    | credit token holder amount => rfl
    | move token payer payee amount => rfl
    | found i owner =>
      have hne : i ≠ interpreter := by
        rintro rfl
        exact hfound owner List.mem_cons_self
      simp only [owners, ownerCall?, if_neg hne]
    | manage i call =>
      by_cases heq : i = interpreter
      · simp only [owners, ownerCall?, if_pos heq, List.foldl_cons]
      · simp only [owners, ownerCall?, if_neg heq]

theorem found_notMem_of_notMem {es : List Effect}
    (h : Identity.owners interpreter ∉ es.flatMap identities) (owner : Address) :
    found interpreter owner ∉ es :=
  fun hmem => h (List.mem_flatMap.mpr ⟨_, hmem, List.mem_cons_self⟩)

theorem filterMap_ownerCall?_of_notMem {es : List Effect}
    (h : Identity.owners interpreter ∉ es.flatMap identities) :
    es.filterMap (ownerCall? interpreter) = [] := by
  refine List.filterMap_eq_nil_iff.mpr fun e he => ?_
  cases e with
  | credit token holder amount => rfl
  | move token payer payee amount => rfl
  | found i owner => rfl
  | manage i call =>
    refine if_neg ?_
    rintro rfl
    exact h (List.mem_flatMap.mpr ⟨_, he, List.mem_cons_self⟩)

/-- An interpreter that no effect names keeps its owners. -/
theorem foldl_owners_of_notMem {es : List Effect}
    (h : Identity.owners interpreter ∉ es.flatMap identities) (x : AddressSet) :
    es.foldl (owners interpreter) x = x := by
  rw [foldl_owners_eq (found_notMem_of_notMem h), filterMap_ownerCall?_of_notMem h]
  rfl

/-- **A set of owners is the old one after the changes in the list**, if no set on the way has more
owners than can be stored. -/
theorem setAt?_of_leads {es : List Effect} (h : Leads es s t)
    (halone : (Identity.owners interpreter).Alone (es.flatMap identities)) {x : AddressSet}
    (hx : Owners.setAt? s (Owners.key interpreter) = some x)
    (hsize : ∀ front, front <+: es → (front.foldl (owners interpreter) x).size < 2 ^ 64) :
    Owners.setAt? t (Owners.key interpreter) = some (es.foldl (owners interpreter) x) := by
  induction es generalizing s x with
  | nil =>
    cases h
    exact hx
  | cons e rest ih =>
    obtain ⟨u, he, hrest⟩ := h
    rw [List.flatMap_cons] at halone
    have hu := setAt?_of_run he (halone.mono (List.subset_append_left _ _)) hx
      (hsize [e] (List.prefix_append [e] rest))
    refine ih hrest (halone.mono (List.subset_append_right _ _)) hu fun front hfront => ?_
    exact hsize (e :: front) (List.cons_prefix_cons.mpr ⟨rfl, hfront⟩)

end Owners

end Effect

end Crossnet
