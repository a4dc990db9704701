import Crossnet.Proofs.Router.Canonical
import Crossnet.Proofs.Router.Conservation

/-!
# What the store of a router holds

All that a router stores are the owners of the interpreters that were created and
the amounts other than zero, each under its own key.  So the store says no more
than the owners and the balances do, and no call and no query ever meets an entry
that it cannot read.

* `Entry`: what a router keeps under a key.
* `kept_of_canonical`: a router with a canonical store keeps its entries and nothing
  else.
* `Kept.store_eq`: **routers with the same owners and balances have the same store.**
* `store_stays_canonical`: **the store of a router stays canonical.**
-/

namespace Crossnet.Router

variable {r t : Router} {origin : Origin}

/-! ## What is stored -/

/-- What a router keeps under a key: the owners of an interpreter that was created, in increasing
order, or an amount of a token that is not zero, in sixteen bytes. -/
inductive Entry (r : Router) : Digest → Bytes → Prop
  | owners {origin : Origin} {owners : List Address} (hcreated : origin ∈ r.interpreters)
      (hincreasing : owners.Pairwise fun a b => compare a b = .lt)
      (howners : r.owners origin = .ok (Std.ExtTreeSet.ofList owners)) :
      Entry r (Owners.key origin.interpreterAddress) (Wire.encode owners)
  | balance {asset : AssetId} {token holder : Address} {amount : UInt128}
      (htoken : r.registry.assetHandle? asset = some token)
      (hamount : r.balance holder asset = .ok amount) (hne : amount ≠ 0)
      (hlength : (Wire.encode amount).length = 16) :
      Entry r (Ledger.key token holder) (Wire.encode amount)

/-- The store holds the entries of the router and nothing else, the owners of each interpreter under
a key of its own, and can be read wherever an entry does not collide with one of the list. -/
structure Kept (r : Router) (entries : List Identity) : Prop where
  entry_iff : ∀ key value, Storage.get? r.store key = some value ↔ r.Entry key value
  owners_stored : ∀ origin ∈ r.interpreters,
    (Storage.get? r.store (Owners.key origin.interpreterAddress)).isSome
  owners_apart : ∀ origin ∈ r.interpreters, ∀ other ∈ r.interpreters,
    Owners.key other.interpreterAddress = Owners.key origin.interpreterAddress → other = origin
  owners_read : ∀ origin, CollisionFree (.owners origin.interpreterAddress :: entries) →
    ∃ owners, r.owners origin = .ok owners
  balance_read : ∀ asset holder, CollisionFree (r.holding asset holder ++ entries) →
    (∀ e, r.balance holder asset = .error e → e = .unknownAsset asset) ∧
      ∀ token, r.registry.assetHandle? asset = some token →
        (Storage.get? r.store (Ledger.key token holder) = none ↔ r.balance holder asset = .ok 0)

/-- A run of a new router on which no contract is registered, where the hash does not take two
entries that the run names to one key or two origins to one address, and where there always is room
for the owners that a call can add. -/
structure Regular (config : RouterConfig) (r : Router) (calls : List Call) : Prop where
  created : create config Store.empty = .ok r
  contracts : (replay r calls).2.registry.contracts = []
  unique : ∀ origin ∈ (replay r calls).2.interpreters,
    AddressUnique origin (replay r calls).2.interpreters
  sha : CollisionFree (touched r calls)
  fits : ∀ m ∈ history r calls, m.Fits

/-- Two routers have the same interpreters with the same owners, and the same balances of the same
tokens. -/
structure Tally (r t : Router) : Prop where
  interpreters : ∀ origin, origin ∈ r.interpreters ↔ origin ∈ t.interpreters
  owners : ∀ origin ∈ r.interpreters, r.owners origin = t.owners origin
  tokens : ∀ asset, r.registry.assetHandle? asset = t.registry.assetHandle? asset
  balances : ∀ holder asset, r.balance holder asset = t.balance holder asset

section Kept

variable {entries : List Identity} {config : RouterConfig} {calls : List Call}

/-- The tokens that were registered. -/
def tokens (r : Router) : Set Address := {token | token ∈ r.registry.assets.map Prod.snd}

/-- The census of entries among which the hash has no collision. -/
def census (hentries : ∀ i ∈ entries, i.IsEntry) (hsha : CollisionFree entries)
    (tokens : Set Address) : Census where
  entries := entries
  tokens := tokens
  apart i hi j hj hdigest :=
    Identity.preimage_inj (hentries i hi) (hentries j hj) (hsha i hi j hj hdigest)

theorem balance_eq_ok {asset : AssetId} {token holder : Address} {amount : UInt128}
    (htoken : r.registry.assetHandle? asset = some token) :
    r.balance holder asset = .ok amount ↔
      Ledger.amountAt? r.store (Ledger.key token holder) = some amount := by
  rw [balance_eq_held htoken, held_eq_ok]

variable (hconsistent : r.registry.Consistent) {hentries : ∀ i ∈ entries, i.IsEntry}
  {hsha : CollisionFree entries}
  (h : Canonical (census hentries hsha r.tokens) r.addresses 0 r.store)

include h

/-- What is stored for an interpreter are its owners. -/
theorem get?_owners (hcreated : origin ∈ r.interpreters) :
    ∃ owners : AddressSet, r.owners origin = .ok owners ∧
      Storage.get? r.store (Owners.key origin.interpreterAddress) =
        some (Wire.encode owners.toList) := by
  obtain ⟨owners, hget, hset, -⟩ := h.owners_of_mem ⟨origin, hcreated, rfl⟩
  exact ⟨owners, owners_eq_ok.mpr hset, hget⟩

theorem get?_of_entry {key : Digest} {value : Bytes} (hentry : r.Entry key value) :
    Storage.get? r.store key = some value := by
  cases hentry with
  | owners hcreated hincreasing howners =>
    obtain ⟨found, hfound, hget⟩ := get?_owners h hcreated
    rw [howners] at hfound
    cases hfound
    rw [hget, AddressSet.toList_ofList hincreasing]
  | balance htoken hamount hne =>
    exact Ledger.get?_of_amountAt? ((balance_eq_ok htoken).mp hamount) hne

include hconsistent in
/-- **Nothing else is stored.** -/
theorem entry_of_get? {key : Digest} {value : Bytes}
    (hget : Storage.get? r.store key = some value) : r.Entry key value := by
  obtain ⟨i, -, rfl, hholds⟩ := h.holds hget
  cases hholds with
  | @balance token holder amount htoken hne =>
    obtain ⟨⟨asset, token⟩, hmem, rfl⟩ := List.mem_map.mp htoken
    have hhandle := (Registry.assetHandle?_eq_some_iff hconsistent).mpr hmem
    exact .balance hhandle ((balance_eq_ok hhandle).mpr (Ledger.amountAt?_of_get? hget)) hne
      (LittleEndian.length_encode 16 _)
  | @owners interpreter owners hfounded hsize =>
    obtain ⟨origin, hcreated, rfl⟩ := hfounded
    refine .owners hcreated Std.ExtTreeSet.ordered_toList ?_
    rw [AddressSet.ofList_toList]
    exact owners_eq_ok.mpr (Owners.setAt?_of_get? hget hsize)

/-- A router stays canonical where more entries are asked for that do not collide. -/
theorem canonical_append {more : List Identity} (hmore : ∀ i ∈ more ++ entries, i.IsEntry)
    (hfree : CollisionFree (more ++ entries)) :
    Canonical (census hmore hfree r.tokens) r.addresses 0 r.store :=
  h.extend (List.subset_append_right more entries) subset_rfl

include hconsistent in
theorem kept_of_canonical
    (hunique : ∀ origin ∈ r.interpreters, AddressUnique origin r.interpreters) :
    Kept r entries where
  entry_iff key value := ⟨entry_of_get? hconsistent h, get?_of_entry h⟩
  owners_stored origin hcreated := (h.present _ ⟨origin, hcreated, rfl⟩).2
  owners_apart origin hcreated other hother hkey := by
    have hi := (h.present _ ⟨origin, hcreated, rfl⟩).1
    have hj := (h.present _ ⟨other, hother, rfl⟩).1
    have hsame := Census.apart _ _ hj _ hi hkey
    exact hunique origin hcreated other hother (Identity.owners.inj hsame)
  owners_read origin hfree := by
    have hmore : ∀ i ∈ [Identity.owners origin.interpreterAddress] ++ entries, i.IsEntry := by
      intro i hi
      rcases List.mem_cons.mp hi with rfl | hi
      · trivial
      · exact hentries i hi
    obtain ⟨owners, hset⟩ := (canonical_append h hmore hfree).exists_setAt? (.head _)
    exact ⟨owners, owners_eq_ok.mpr hset⟩
  balance_read asset holder hfree := by
    have hmore : ∀ i ∈ r.holding asset holder ++ entries, i.IsEntry := by
      intro i hi
      rcases List.mem_append.mp hi with hi | hi
      · exact isEntry_of_mem_holding hi
      · exact hentries i hi
    have hall := canonical_append h hmore hfree
    cases hhandle : r.registry.assetHandle? asset with
    | none =>
      refine ⟨fun e he => ?_, fun token htoken => ?_⟩
      · unfold Router.balance at he
        rw [hhandle] at he
        cases he
        rfl
      · cases htoken
    | some token =>
      have hi : .balance token holder ∈ r.holding asset holder ++ entries :=
        List.mem_append_left _ (mem_holding hhandle holder)
      obtain ⟨amount, hamount⟩ := hall.exists_amountAt? hi
      rw [(balance_eq_ok hhandle).mpr hamount]
      refine ⟨fun e he => ?_, fun token' htoken => ?_⟩
      · cases he
      · cases htoken
        rw [hall.get?_eq_none_iff hi hamount, Except.ok.injEq]

omit h in
theorem Tally.entry {key : Digest} {value : Bytes} (htally : Tally r t)
    (hentry : r.Entry key value) : t.Entry key value := by
  cases hentry with
  | owners hcreated hincreasing howners =>
    rw [htally.owners _ hcreated] at howners
    exact .owners ((htally.interpreters _).mp hcreated) hincreasing howners
  | balance htoken hamount hne hlength =>
    rw [htally.tokens] at htoken
    rw [htally.balances] at hamount
    exact .balance htoken hamount hne hlength

omit h in
theorem Tally.symm (htally : Tally r t) : Tally t r where
  interpreters origin := (htally.interpreters origin).symm
  owners origin hcreated := (htally.owners origin ((htally.interpreters origin).mpr hcreated)).symm
  tokens asset := (htally.tokens asset).symm
  balances holder asset := (htally.balances holder asset).symm

omit h in
/-- **Routers with the same owners and balances have the same store.** -/
theorem Kept.store_eq {others : List Identity} (hr : Kept r entries) (ht : Kept t others)
    (htally : Tally r t) : r.store = t.store := by
  refine Store.ext_get? fun key => Option.ext fun value => ?_
  rw [hr.entry_iff, ht.entry_iff]
  exact ⟨htally.entry, htally.symm.entry⟩

end Kept

/-! ## Runs -/

theorem answers_eq_map (r : Router) (calls : List Call) :
    (replay r calls).1 = (history r calls).map Moment.answer := by
  induction calls generalizing r with
  | nil => rfl
  | cons call rest ih => exact congrArg (_ :: ·) (ih _)

variable {config : RouterConfig} {calls : List Call}

theorem Regular.canonical (h : Regular config r calls) :
    Canonical (census (fun _ => isEntry_of_mem_touched) h.sha (replay r calls).2.tokens)
        (replay r calls).2.addresses 0 (replay r calls).2.store ∧
      ∀ m ∈ history r calls, ∀ e, m.answer = .error e → ¬e.IsCorruption := by
  refine canonical_replay (consistent_of_create h.created) h.contracts (fun _ => id) (fun _ => id)
    h.fits ?_
  obtain ⟨-, rfl⟩ := create_eq_ok.mp h.created
  constructor
  · intro key value hget
    have hnone : Storage.get? Store.empty key = none := by simp [Storage.get?, Store.empty]
    rw [hnone] at hget
    cases hget
  · rintro a ⟨origin, hcreated, -⟩
    cases hcreated

theorem Regular.kept (h : Regular config r calls) :
    Kept (replay r calls).2 (touched r calls) :=
  kept_of_canonical (consistent_replay (consistent_of_create h.created) calls) h.canonical.1
    h.unique

/-- **The store of a router stays canonical.**  After a run it holds the owners of each interpreter
that was created, and what is not zero of each balance, and nothing else; so routers with the same
owners and balances have the same store, an absent amount is zero, and no call of the run and no
query after it meets an entry that cannot be read. -/
theorem store_stays_canonical (h : Regular config r calls) :
    Kept (replay r calls).2 (touched r calls) ∧
      (∀ e, .error e ∈ (replay r calls).1 → ¬e.IsCorruption) ∧
      ∀ {other : RouterConfig} {t : Router} {more : List Call}, Regular other t more →
        Tally (replay r calls).2 (replay t more).2 →
          (replay r calls).2.store = (replay t more).2.store := by
  refine ⟨h.kept, fun e he => ?_, fun hother htally => h.kept.store_eq hother.kept htally⟩
  rw [answers_eq_map] at he
  obtain ⟨m, hm, hanswer⟩ := List.mem_map.mp he
  exact h.canonical.2 m hm e hanswer

/-- A run in which five are minted and a program makes its interpreter necessary. -/
def stocking : List Call :=
  [.registerBridge .zero .zero ⟨1⟩, .registerAsset .zero .zero ⟨1⟩, .mint .zero ⟨1⟩ .zero 5,
    .runProgram .zero ⟨⟨1⟩, .zero⟩ (Program.mk [] []).toWire [] []]

theorem collisionFree_stocking : CollisionFree (touched fresh stocking) := by
  have htouched : touched fresh stocking =
      [.balance .zero .zero, .owners (Origin.interpreterAddress ⟨⟨1⟩, .zero⟩)] := rfl
  rw [htouched]
  refine collisionFree_of_nodup (Identity.nodup_digest ?_)
  simp only [List.map_cons, List.map_nil, Identity.preimage, Identity.body,
    Origin.interpreterAddress, Identity.toList_ofDigest_digest]
  decide +kernel

theorem regular_stocking : Regular fresh.config fresh stocking where
  created := create_fresh
  contracts := rfl
  unique origin hcreated other hother _ := by
    have hall : (replay fresh stocking).2.interpreters = [⟨⟨1⟩, .zero⟩] := rfl
    rw [hall] at hcreated hother
    rw [List.mem_singleton.mp hcreated, List.mem_singleton.mp hother]
  sha := collisionFree_stocking
  fits m hm := by
    have hshort : ∀ call ∈ stocking, call.room < 2 ^ 64 := by decide
    have hnone : (history fresh stocking).map (fun m => m.before.interpreters) =
        List.replicate 4 [] := rfl
    obtain ⟨front, back, hcalls, -⟩ := mem_history.mp hm
    have hcall : m.call ∈ stocking := by
      rw [hcalls]
      exact List.mem_append_right _ List.mem_cons_self
    have hbefore : m.before.interpreters ∈ List.replicate 4 [] :=
      hnone ▸ List.mem_map_of_mem (f := fun m => m.before.interpreters) hm
    refine ⟨hshort m.call hcall, fun origin hcreated => ?_⟩
    rw [List.eq_of_mem_replicate hbefore] at hcreated
    cases hcreated

/-- The owners of the new interpreter are stored, and no call met an entry that it could not
read. -/
theorem store_stays_canonical_stocking :
    Regular fresh.config fresh stocking ∧
      (Storage.get? (replay fresh stocking).2.store
        (Owners.key (Origin.interpreterAddress ⟨⟨1⟩, .zero⟩))).isSome ∧
      ∀ e, .error e ∈ (replay fresh stocking).1 → ¬e.IsCorruption := by
  obtain ⟨hkept, hanswers, -⟩ := store_stays_canonical regular_stocking
  exact ⟨regular_stocking, hkept.owners_stored ⟨⟨1⟩, .zero⟩ (.head _), hanswers⟩

end Crossnet.Router
