import Mathlib.Data.Set.Insert
import Crossnet.Proofs.Identity
import Crossnet.Proofs.Interpreter.Ends
import Crossnet.Proofs.Ledger.Holding
import Crossnet.Proofs.Owners.Stored

/-!
# Canonical storages

A storage is canonical when it holds nothing but amounts other than zero and sets
of owners, each under the key of its entry and in the byte form of its value, and
when each of some interpreters has its set.  A `Census` says which entries and
tokens there are.  In a canonical storage every entry of the census can be read, so
a program finds no corrupt entry, and it leaves the storage canonical.

A set of owners is stored with a 64-bit count of them.  What a set may grow by while
a program runs is bounded by the bytes of the program, so a canonical storage is one
with some `room` left in each set.

* `Canonical.exists_amountAt?`, `Canonical.exists_setAt?`: **every entry can be read.**
* `Canonical.get?_eq_none_iff`: an absent amount is zero, and zero is absent.
* `Canonical.setAmount`, `Canonical.setOwners`: the two kinds of writes.
* `Canonical.ends_credit`, `Canonical.ends_transfer`: the ledger finds no corrupt
  entry and leaves the storage canonical.
-/

namespace Crossnet

/-! ## Censuses -/

/-- The entries in use, no two of which share a key, and the tokens. -/
structure Census where
  entries : List Identity
  tokens : Set Address
  apart : ∀ i ∈ entries, ∀ j ∈ entries, i.digest = j.digest → i = j

/-- What may be stored for an entry: an amount of a token other than zero, or a set of owners of an
interpreter that as many more can join. -/
inductive Census.Holds (c : Census) (interpreters : Set Address) (room : Nat) :
    Identity → Bytes → Prop
  | balance {token holder : Address} {amount : UInt128} (htoken : token ∈ c.tokens)
      (hne : amount ≠ 0) :
      Holds c interpreters room (.balance token holder) (Wire.encode amount)
  | owners {interpreter : Address} {owners : AddressSet} (hfounded : interpreter ∈ interpreters)
      (hsize : owners.size + room < 2 ^ 64) :
      Holds c interpreters room (.owners interpreter) (Wire.encode owners.toList)

/-- With more tokens, more interpreters and less room, as much may be stored. -/
theorem Census.Holds.mono {c d : Census} {some more : Set Address} {room wide : Nat}
    {i : Identity} {value : Bytes} (h : c.Holds some wide i value) (htokens : c.tokens ⊆ d.tokens)
    (hsub : some ⊆ more) (hle : room ≤ wide) : d.Holds more room i value := by
  cases h with
  | balance htoken hne => exact .balance (htokens htoken) hne
  | owners hfounded hsize => exact .owners (hsub hfounded) (by omega)

variable {σ : Type} [Storage σ]

/-- Each value that is stored is one for an entry of the census, and each of the interpreters has
its owners stored. -/
structure Canonical (c : Census) (interpreters : Set Address) (room : Nat) (s : σ) : Prop where
  holds : ∀ {key value}, Storage.get? s key = some value →
    ∃ i ∈ c.entries, i.digest = key ∧ c.Holds interpreters room i value
  present : ∀ a ∈ interpreters,
    .owners a ∈ c.entries ∧ (Storage.get? s (Owners.key a)).isSome

namespace Canonical

variable {c : Census} {interpreters : Set Address} {room wide : Nat} {s t : σ}
  {token holder : Address}

/-! ## Reading -/

theorem holds_of_get? (h : Canonical c interpreters room s) {i : Identity} (hi : i ∈ c.entries)
    {value : Bytes} (hget : Storage.get? s i.digest = some value) :
    c.Holds interpreters room i value := by
  obtain ⟨j, hj, hdigest, hholds⟩ := h.holds hget
  rw [← c.apart j hj i hi hdigest]
  exact hholds

/-- **Every amount can be read.** -/
theorem exists_amountAt? (h : Canonical c interpreters room s)
    (hi : .balance token holder ∈ c.entries) :
    ∃ amount, Ledger.amountAt? s (Ledger.key token holder) = some amount := by
  cases hget : Storage.get? s (Ledger.key token holder) with
  | none => exact ⟨0, by rw [Ledger.amountAt?, hget]⟩
  | some value =>
    cases h.holds_of_get? hi hget with
    | balance htoken hne => exact ⟨_, Ledger.amountAt?_of_get? hget⟩

/-- **An absent entry means zero**, and only zero is kept as an absent entry. -/
theorem get?_eq_none_iff (h : Canonical c interpreters room s)
    (hi : .balance token holder ∈ c.entries) {amount : UInt128}
    (hamount : Ledger.amountAt? s (Ledger.key token holder) = some amount) :
    Storage.get? s (Ledger.key token holder) = none ↔ amount = 0 := by
  cases hget : Storage.get? s (Ledger.key token holder) with
  | none =>
    rw [Ledger.amountAt?, hget] at hamount
    exact iff_of_true rfl (Option.some.inj hamount).symm
  | some value =>
    cases h.holds_of_get? hi hget with
    | balance htoken hne =>
      rw [Ledger.amountAt?_of_get? hget] at hamount
      rw [← Option.some.inj hamount]
      exact iff_of_false (Option.some_ne_none _) hne

/-- **Every set of owners can be read.** -/
theorem exists_setAt? (h : Canonical c interpreters room s) {a : Address}
    (hi : .owners a ∈ c.entries) :
    ∃ owners, Owners.setAt? s (Owners.key a) = some owners := by
  cases hget : Storage.get? s (Owners.key a) with
  | none => exact ⟨∅, by rw [Owners.setAt?, hget]⟩
  | some value =>
    cases h.holds_of_get? hi hget with
    | owners hfounded hsize => exact ⟨_, Owners.setAt?_of_get? hget (by omega)⟩

/-- The owners of an interpreter are stored, and as many more can join. -/
theorem owners_of_mem (h : Canonical c interpreters room s) {a : Address}
    (ha : a ∈ interpreters) :
    ∃ owners, Storage.get? s (Owners.key a) = some (Wire.encode owners.toList) ∧
      Owners.setAt? s (Owners.key a) = some owners ∧ owners.size + room < 2 ^ 64 := by
  obtain ⟨hi, hsome⟩ := h.present a ha
  obtain ⟨value, hget⟩ := Option.isSome_iff_exists.mp hsome
  cases h.holds_of_get? hi hget with
  | owners hfounded hsize => exact ⟨_, hget, Owners.setAt?_of_get? hget (by omega), hsize⟩

/-! ## Writing -/

theorem mono (h : Canonical c interpreters wide s) (hle : room ≤ wide) :
    Canonical c interpreters room s where
  holds hget := by
    obtain ⟨i, hi, hkey, hholds⟩ := h.holds hget
    exact ⟨i, hi, hkey, hholds.mono subset_rfl subset_rfl hle⟩
  present := h.present

/-- There is as much room as the sets of owners that are stored leave. -/
theorem widen (h : Canonical c interpreters 0 s)
    (hsize : ∀ a ∈ interpreters, ∀ owners, Owners.setAt? s (Owners.key a) = some owners →
      owners.size + room < 2 ^ 64) : Canonical c interpreters room s where
  holds hget := by
    obtain ⟨i, hi, rfl, hholds⟩ := h.holds hget
    refine ⟨i, hi, rfl, ?_⟩
    cases hholds with
    | balance htoken hne => exact .balance htoken hne
    | owners hfounded hfew =>
      exact .owners hfounded (hsize _ hfounded _ (Owners.setAt?_of_get? hget hfew))
  present := h.present

/-- A storage stays canonical when there are more entries and tokens to count. -/
theorem extend (h : Canonical c interpreters room s) {d : Census} (hentries : c.entries ⊆ d.entries)
    (htokens : c.tokens ⊆ d.tokens) : Canonical d interpreters room s where
  holds hget := by
    obtain ⟨i, hi, hkey, hholds⟩ := h.holds hget
    exact ⟨i, hentries hi, hkey, hholds.mono htokens subset_rfl (Nat.le_refl _)⟩
  present a ha := (h.present a ha).imp_left fun hi => hentries hi

variable [LawfulStorage σ]

theorem setAmount (h : Canonical c interpreters room s) (hi : .balance token holder ∈ c.entries)
    (htoken : token ∈ c.tokens) (amount : UInt128) :
    Canonical c interpreters room (Ledger.setAmount s (Ledger.key token holder) amount) where
  holds {key value} hget := by
    unfold Ledger.setAmount at hget
    rw [LawfulStorage.get?_put] at hget
    by_cases hkey : Ledger.key token holder = key
    · rw [if_pos hkey] at hget
      by_cases hzero : amount = 0
      · rw [if_pos hzero] at hget
        cases hget
      · rw [if_neg hzero] at hget
        cases hget
        exact ⟨_, hi, hkey, .balance htoken hzero⟩
    · rw [if_neg hkey] at hget
      exact h.holds hget
  present a ha := by
    obtain ⟨howners, hsome⟩ := h.present a ha
    refine ⟨howners, ?_⟩
    unfold Ledger.setAmount
    rw [LawfulStorage.get?_put, if_neg fun hkey => ?_]
    · exact hsome
    · cases c.apart _ hi _ howners hkey

/-- A set of owners is stored for an interpreter, which may be a new one. -/
theorem setOwners (h : Canonical c interpreters wide s) {a : Address} (hi : .owners a ∈ c.entries)
    {owners : AddressSet} (hsize : owners.size + room < 2 ^ 64) (hle : room ≤ wide) :
    Canonical c (insert a interpreters) room (Owners.setOwners s (Owners.key a) owners) where
  holds {key value} hget := by
    unfold Owners.setOwners at hget
    rw [LawfulStorage.get?_put] at hget
    by_cases hkey : Owners.key a = key
    · rw [if_pos hkey] at hget
      cases hget
      exact ⟨_, hi, hkey, .owners (Set.mem_insert a _) hsize⟩
    · rw [if_neg hkey] at hget
      obtain ⟨j, hj, hdigest, hholds⟩ := h.holds hget
      exact ⟨j, hj, hdigest, hholds.mono subset_rfl (Set.subset_insert a _) hle⟩
  present b hb := by
    obtain ⟨hj, hold⟩ : .owners b ∈ c.entries ∧
        (Owners.key a ≠ Owners.key b → (Storage.get? s (Owners.key b)).isSome) := by
      rcases Set.mem_insert_iff.mp hb with rfl | hb
      · exact ⟨hi, fun hne => absurd rfl hne⟩
      · exact (h.present b hb).imp_right fun hsome _ => hsome
    refine ⟨hj, ?_⟩
    unfold Owners.setOwners
    rw [LawfulStorage.get?_put]
    by_cases hkey : Owners.key a = Owners.key b
    · rw [if_pos hkey]
      rfl
    · rw [if_neg hkey]
      exact hold hkey

/-- The first owner of an interpreter is stored. -/
theorem setFirst (h : Canonical c interpreters wide s) {a : Address} (hi : .owners a ∈ c.entries)
    (owner : Address) (hfirst : 1 + room < 2 ^ 64) (hle : room ≤ wide) :
    Canonical c (insert a interpreters) room
      (Owners.setOwners s (Owners.key a) (Std.ExtTreeSet.ofList [owner])) := by
  have hsize : (Std.ExtTreeSet.ofList [owner] : AddressSet).size ≤ 1 :=
    Std.ExtTreeSet.size_ofList_le
  exact h.setOwners hi (by omega) hle

/-! ## The ledger -/

open Script (Ends)

omit [LawfulStorage σ] in
theorem ends_readAt (h : Canonical c interpreters room s) (hi : .balance token holder ∈ c.entries) :
    (Ledger.readAt (Ledger.key token holder)).Ends LedgerError.IsCorruption s
      fun _ t => t = s := by
  obtain ⟨amount, hamount⟩ := h.exists_amountAt? hi
  exact Ends.of_run (Ledger.run_readAt_eq_ok.mpr ⟨rfl, hamount⟩) rfl

theorem ends_credit (h : Canonical c interpreters room s) (hi : .balance token holder ∈ c.entries)
    (htoken : token ∈ c.tokens) (amount : UInt128) :
    (Ledger.credit token holder amount).Ends LedgerError.IsCorruption s
      fun _ t => Canonical c interpreters room t := by
  refine (h.ends_readAt hi).bind fun held t _ ht => ?_
  subst ht
  cases held.add? amount with
  | some sum => exact Ends.of_run (Ledger.run_writeAt _ _ _) (h.setAmount hi htoken sum)
  | none => exact Script.ends_throw.mpr id

theorem ends_debit (h : Canonical c interpreters room s) (hi : .balance token holder ∈ c.entries)
    (htoken : token ∈ c.tokens) (amount : UInt128) :
    (Ledger.debit token holder amount).Ends LedgerError.IsCorruption s
      fun _ t => Canonical c interpreters room t := by
  refine (h.ends_readAt hi).bind fun held t _ ht => ?_
  subst ht
  dsimp only
  split
  · exact Script.ends_throw.mpr id
  · exact Ends.of_run (Ledger.run_writeAt _ _ _) (h.setAmount hi htoken _)

theorem ends_transfer {payer payee : Address} (h : Canonical c interpreters room s)
    (hpayer : .balance token payer ∈ c.entries) (hpayee : .balance token payee ∈ c.entries)
    (htoken : token ∈ c.tokens) (amount : UInt128) :
    (Interpreter.onLedger (Ledger.transfer token payer payee amount)).Ends
      ExecutionError.IsCorruption s fun _ t => Canonical c interpreters room t := by
  refine Script.ends_mapError.mpr ?_
  exact (h.ends_debit hpayer htoken amount).bind fun _ t _ ht => ht.ends_credit hpayee htoken amount

end Canonical

end Crossnet
