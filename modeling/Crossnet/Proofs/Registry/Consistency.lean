import Mathlib.Data.List.Induction
import Crossnet.Registry.History
import Crossnet.Proofs.Registry.Tables

/-!
# Registries stay consistent

Whatever is asked of a registry that was empty, in any order, its tables answer
as one table of matched assets and tokens, beside a table of contracts that has
no address in common with it.

* `adds_of_register`: **a registration that is taken in finds free what it needs
  and adds one entry.**
* `Coherent.after`, `Keeps.after`: a registration keeps the tables coherent and
  every entry in them.
* `bridge?_replay`, `assetHandle?_replay`, `contract?_replay`: what the tables
  hold after a run.
* `replay_consistent`: **what holds of the tables after any registrations.**
-/

namespace Crossnet

namespace Registration

variable {entry : Registration} {asset : AssetId} {handle address : Address} {contract : Contract}

theorem handle?_eq_some_iff :
    entry.handle? asset = some handle ↔ entry = .asset handle asset := by
  cases entry with
  | bridge => exact ⟨nofun, nofun⟩
  | asset h a =>
    rw [handle?]
    by_cases ha : a = asset
    · simp [ha]
    · simp [ha]
  | contract => exact ⟨nofun, nofun⟩

theorem asset?_eq_some_iff : entry.asset? handle = some asset ↔ entry = .asset handle asset := by
  cases entry with
  | bridge => exact ⟨nofun, nofun⟩
  | asset h a =>
    rw [asset?]
    by_cases hh : h = handle
    · simp [hh]
    · simp [hh]
  | contract => exact ⟨nofun, nofun⟩

theorem contract?_eq_some_iff :
    entry.contract? address = some contract ↔ entry = .contract address contract := by
  cases entry with
  | bridge => exact ⟨nofun, nofun⟩
  | asset => exact ⟨nofun, nofun⟩
  | contract a c =>
    rw [contract?]
    by_cases ha : a = address
    · simp [ha]
    · simp [ha]

end Registration

namespace Registry

variable {r next : Registry} {asset : AssetId} {handle address : Address} {contract : Contract}

/-! ## One entry more -/

/-- The entry is all that is added, and what it needs was free. -/
structure Adds (r : Registry) (entry : Registration) (next : Registry) : Prop where
  bridge : ∀ network, next.bridge? network = (entry.bridge? network).or (r.bridge? network)
  handle : ∀ asset, next.assetHandle? asset = (entry.handle? asset).or (r.assetHandle? asset)
  asset : ∀ handle, next.assetId? handle = (entry.asset? handle).or (r.assetId? handle)
  contract : ∀ address, next.contract? address = (entry.contract? address).or (r.contract? address)
  free_asset : ∀ {handle asset}, entry = .asset handle asset →
    r.assetHandle? asset = none ∧ r.assetId? handle = none ∧ r.contract? handle = none
  free_contract : ∀ {address contract}, entry = .contract address contract →
    r.contract? address = none ∧ r.assetId? address = none

/-- A new first entry is found for its key, and hides no other. -/
theorem find?_cons_key {γ κ δ : Type} [DecidableEq κ] (f : γ → κ) (g : γ → δ) (x : γ)
    (xs : List γ) (k : κ) : ((x :: xs).find? fun e => f e = k).map g =
      (if f x = k then some (g x) else none).or ((xs.find? fun e => f e = k).map g) := by
  rw [List.find?_cons]
  by_cases h : f x = k
  · rw [if_pos h, decide_eq_true h]
    rfl
  · rw [if_neg h, decide_eq_false h]
    rfl

/-- **A registration that is taken in finds free what it needs and adds one entry.** -/
theorem adds_of_register {entry : Registration} (h : r.register entry = .ok next) :
    r.Adds entry next := by
  cases entry with
  | bridge network bridge =>
    cases h
    refine ⟨fun served => ?_, fun _ => rfl, fun _ => rfl, fun _ => rfl, nofun, nofun⟩
    exact find?_cons_key Prod.fst Prod.snd (network, bridge) r.bridges served
  | asset handle asset =>
    obtain ⟨hasset, hhandle, hcontract, rfl⟩ := registerAsset_eq_ok.mp h
    refine ⟨fun _ => rfl, fun a => ?_, fun t => ?_, fun _ => rfl, ?_, nofun⟩
    · exact find?_cons_key Prod.fst Prod.snd (asset, handle) r.assets a
    · exact find?_cons_key Prod.fst Prod.snd (handle, asset) r.handles t
    · rintro _ _ ⟨⟩
      exact ⟨hasset, hhandle, hcontract⟩
  | contract address contract =>
    obtain ⟨hcontract, htoken, rfl⟩ := registerContract_eq_ok.mp h
    refine ⟨fun _ => rfl, fun _ => rfl, fun _ => rfl, fun a => ?_, nofun, ?_⟩
    · exact find?_cons_key Prod.fst Prod.snd (address, contract) r.contracts a
    · rintro _ _ ⟨⟩
      exact ⟨hcontract, htoken⟩

/-- A registration is refused, which changes nothing, or taken in. -/
theorem after_cases (r : Registry) (entry : Registration) :
    (∃ e, r.register entry = .error e ∧ r.after entry = r) ∨
      r.register entry = .ok (r.after entry) := by
  unfold after
  cases h : r.register entry with
  | error e => exact .inl ⟨e, rfl, rfl⟩
  | ok next => exact .inr rfl

/-! ## What a registration keeps -/

theorem isToken_eq_true_iff :
    r.isToken address = true ↔ ∃ asset, r.assetId? address = some asset :=
  Option.isSome_iff_exists

/-- Assets and tokens are matched one to one, and no token is a contract. -/
structure Coherent (r : Registry) : Prop extends r.Consistent where
  apart : ∀ {asset address}, r.assetId? address = some asset → r.contract? address = none

theorem Coherent.empty : Coherent Registry.empty :=
  ⟨.empty, nofun⟩

theorem Adds.apart {entry : Registration} (h : r.Adds entry next) (hr : r.Coherent)
    (htoken : next.assetId? address = some asset) : next.contract? address = none := by
  rw [h.asset, Option.or_eq_some_iff] at htoken
  rw [h.contract, Option.or_eq_none_iff]
  rcases htoken with hnew | ⟨-, hold⟩
  · obtain rfl := Registration.asset?_eq_some_iff.mp hnew
    exact ⟨rfl, (h.free_asset rfl).2.2⟩
  · refine ⟨Option.eq_none_iff_forall_ne_some.mpr fun contract hnew => ?_, hr.apart hold⟩
    have hfree := (h.free_contract (Registration.contract?_eq_some_iff.mp hnew)).2
    rw [hfree] at hold
    cases hold

/-- **A registration keeps the tables coherent.** -/
theorem Coherent.after (h : r.Coherent) (entry : Registration) : (r.after entry).Coherent := by
  rcases r.after_cases entry with ⟨e, -, hsame⟩ | hok
  · rw [hsame]
    exact h
  · refine ⟨?_, (adds_of_register hok).apart h⟩
    generalize r.after entry = next at hok
    cases entry with
    | bridge network bridge =>
      cases hok
      exact ⟨h.mirror, h.assets, h.handles⟩
    | asset handle asset => exact h.toConsistent.registerAsset hok
    | contract address contract =>
      obtain ⟨-, -, rfl⟩ := registerContract_eq_ok.mp hok
      exact ⟨h.mirror, h.assets, h.handles⟩

theorem Coherent.replay (h : r.Coherent) (entries : List Registration) :
    (r.replay entries).Coherent := by
  induction entries generalizing r with
  | nil => exact h
  | cons entry rest ih => exact ih (h.after entry)

/-- Every entry for an asset, a token or a contract is still there. -/
structure Keeps (r later : Registry) : Prop where
  asset : ∀ {asset handle}, r.assetHandle? asset = some handle →
    later.assetHandle? asset = some handle
  token : ∀ {handle asset}, r.assetId? handle = some asset → later.assetId? handle = some asset
  contract : ∀ {address contract}, r.contract? address = some contract →
    later.contract? address = some contract

theorem Keeps.refl (r : Registry) : r.Keeps r :=
  ⟨id, id, id⟩

theorem Keeps.trans {a b c : Registry} (hab : a.Keeps b) (hbc : b.Keeps c) : a.Keeps c :=
  ⟨hbc.asset ∘ hab.asset, hbc.token ∘ hab.token, hbc.contract ∘ hab.contract⟩

/-- **A registration keeps every entry**: what it adds was free. -/
theorem Keeps.after (r : Registry) (entry : Registration) : r.Keeps (r.after entry) := by
  rcases r.after_cases entry with ⟨e, -, hsame⟩ | hok
  · rw [hsame]
    exact .refl r
  · have hadds := adds_of_register hok
    -- An old entry is found behind the new one unless the new one is for the same key.
    refine ⟨fun {asset handle} h => ?_, fun {handle asset} h => ?_, fun {address contract} h => ?_⟩
    · rw [hadds.handle, Option.or_eq_some_iff]
      refine .inr ⟨Option.eq_none_iff_forall_ne_some.mpr fun found hnew => ?_, h⟩
      rw [(hadds.free_asset (Registration.handle?_eq_some_iff.mp hnew)).1] at h
      cases h
    · rw [hadds.asset, Option.or_eq_some_iff]
      refine .inr ⟨Option.eq_none_iff_forall_ne_some.mpr fun found hnew => ?_, h⟩
      rw [(hadds.free_asset (Registration.asset?_eq_some_iff.mp hnew)).2.1] at h
      cases h
    · rw [hadds.contract, Option.or_eq_some_iff]
      refine .inr ⟨Option.eq_none_iff_forall_ne_some.mpr fun found hnew => ?_, h⟩
      rw [(hadds.free_contract (Registration.contract?_eq_some_iff.mp hnew)).1] at h
      cases h

theorem Keeps.replay (r : Registry) (entries : List Registration) : r.Keeps (r.replay entries) := by
  induction entries generalizing r with
  | nil => exact .refl r
  | cons entry rest ih => exact (Keeps.after r entry).trans (ih _)

/-! ## What is in the tables after a run -/

theorem replay_append (r : Registry) (entries more : List Registration) :
    r.replay (entries ++ more) = (r.replay entries).replay more :=
  List.foldl_append

theorem replay_concat (r : Registry) (entries : List Registration) (entry : Registration) :
    r.replay (entries ++ [entry]) = (r.replay entries).after entry :=
  replay_append r entries [entry]

/-- **The bridge of a network is the one that was registered last.** -/
theorem bridge?_replay (entries : List Registration) (network : NetworkId) :
    (empty.replay entries).bridge? network =
      (entries.filterMap (Registration.bridge? network)).getLast? := by
  induction entries using List.reverseRecOn with
  | nil => rfl
  | append_singleton entries entry ih =>
    have hafter : ((empty.replay entries).after entry).bridge? network =
        (entry.bridge? network).or ((empty.replay entries).bridge? network) := by
      rcases after_cases (empty.replay entries) entry with ⟨e, hrefused, hsame⟩ | hok
      · -- What registers a bridge is not refused.
        cases entry with
        | bridge => cases hrefused
        | asset => rw [hsame]; rfl
        | contract => rw [hsame]; rfl
      · exact (adds_of_register hok).bridge network
    rw [replay_concat, hafter, ih, List.filterMap_append, List.getLast?_append]
    cases h : entry.bridge? network with
    | none => simp [h]
    | some bridge => simp [h]

theorem accepted_append (r : Registry) (entries more : List Registration) :
    r.accepted (entries ++ more) = r.accepted entries ++ (r.replay entries).accepted more := by
  induction entries generalizing r with
  | nil => rfl
  | cons entry rest ih =>
    rw [List.cons_append, accepted, accepted]
    show _ = _ ++ ((r.after entry).replay rest).accepted more
    unfold Registry.after
    cases r.register entry with
    | ok next => exact congrArg (entry :: ·) (ih next)
    | error e => exact ih r

theorem mem_accepted_concat (r : Registry) (entries : List Registration) (entry x : Registration) :
    x ∈ r.accepted (entries ++ [entry]) ↔ x ∈ r.accepted entries ∨
      (r.replay entries).register entry = .ok ((r.replay entries).after entry) ∧ entry = x := by
  rw [accepted_append, List.mem_append, accepted]
  rcases after_cases (r.replay entries) entry with ⟨e, hrefused, -⟩ | hok
  · simp [hrefused, accepted]
  · rw [hok]
    simp [accepted, eq_comm]

/-- **The table of assets holds the assets that were taken in.** -/
theorem assetHandle?_replay (entries : List Registration) :
    (empty.replay entries).assetHandle? asset = some handle ↔
      .asset handle asset ∈ empty.accepted entries := by
  induction entries using List.reverseRecOn with
  | nil => exact ⟨nofun, nofun⟩
  | append_singleton entries entry ih =>
    rw [replay_concat, mem_accepted_concat, ← ih]
    rcases after_cases (empty.replay entries) entry with ⟨e, hrefused, hsame⟩ | hok
    · simp [hsame, hrefused]
    · have hadds := adds_of_register hok
      constructor
      · intro h
        rw [hadds.handle, Option.or_eq_some_iff] at h
        rcases h with hnew | ⟨-, hold⟩
        · exact .inr ⟨hok, Registration.handle?_eq_some_iff.mp hnew⟩
        · exact .inl hold
      · rintro (hold | ⟨-, rfl⟩)
        · exact (Keeps.after (empty.replay entries) entry).asset hold
        · rw [hadds.handle, Registration.handle?_eq_some_iff.mpr rfl, Option.some_or]

/-- **The table of contracts holds the contracts that were taken in.** -/
theorem contract?_replay (entries : List Registration) :
    (empty.replay entries).contract? address = some contract ↔
      .contract address contract ∈ empty.accepted entries := by
  induction entries using List.reverseRecOn with
  | nil => exact ⟨nofun, nofun⟩
  | append_singleton entries entry ih =>
    rw [replay_concat, mem_accepted_concat, ← ih]
    rcases after_cases (empty.replay entries) entry with ⟨e, hrefused, hsame⟩ | hok
    · simp [hsame, hrefused]
    · have hadds := adds_of_register hok
      constructor
      · intro h
        rw [hadds.contract, Option.or_eq_some_iff] at h
        rcases h with hnew | ⟨-, hold⟩
        · exact .inr ⟨hok, Registration.contract?_eq_some_iff.mp hnew⟩
        · exact .inl hold
      · rintro (hold | ⟨-, rfl⟩)
        · exact (Keeps.after (empty.replay entries) entry).contract hold
        · rw [hadds.contract, Registration.contract?_eq_some_iff.mpr rfl, Option.some_or]

/-! ## The whole -/

theorem isOk_registerAsset_iff : (r.registerAsset handle asset).isOk = true ↔
    r.assetHandle? asset = none ∧ r.assetId? handle = none ∧ r.contract? handle = none := by
  constructor
  · intro h
    cases hresult : r.registerAsset handle asset with
    | error e =>
      rw [hresult] at h
      cases h
    | ok next =>
      have hadds : r.Adds (.asset handle asset) next := adds_of_register hresult
      exact hadds.free_asset rfl
  · rintro ⟨hasset, hhandle, hcontract⟩
    rw [registerAsset_eq_ok.mpr ⟨hasset, hhandle, hcontract, rfl⟩]
    rfl

theorem isOk_registerContract_iff : (r.registerContract address contract).isOk = true ↔
    r.contract? address = none ∧ r.assetId? address = none := by
  constructor
  · intro h
    cases hresult : r.registerContract address contract with
    | error e =>
      rw [hresult] at h
      cases h
    | ok next =>
      have hadds : r.Adds (.contract address contract) next := adds_of_register hresult
      exact hadds.free_contract rfl
  · rintro ⟨hcontract, htoken⟩
    rw [registerContract_eq_ok.mpr ⟨hcontract, htoken, rfl⟩]
    rfl

/-- **The tables after any registrations**, taken in or refused, on a registry that was empty.
Assets and tokens are matched one to one, the tokens are the addresses that are matched, and none
of them is a contract.  The tables hold just what was taken in, and every entry is kept by whatever
is asked next.  An asset or a contract is taken in exactly when what it needs is free, what is
refused changes nothing, and the bridge of a network is the one that was registered last. -/
theorem replay_consistent (entries : List Registration) :
    let r := empty.replay entries
    (∀ asset handle, r.assetHandle? asset = some handle ↔ r.assetId? handle = some asset) ∧
      (∀ handle, r.isToken handle = true ↔ ∃ asset, r.assetHandle? asset = some handle) ∧
      (∀ address, ¬(r.isToken address = true ∧ (r.contract? address).isSome = true)) ∧
      (∀ asset handle, r.assetHandle? asset = some handle ↔
        .asset handle asset ∈ empty.accepted entries) ∧
      (∀ address contract, r.contract? address = some contract ↔
        .contract address contract ∈ empty.accepted entries) ∧
      (∀ more, r.Keeps (empty.replay (entries ++ more))) ∧
      (∀ handle asset, (r.registerAsset handle asset).isOk = true ↔
        r.assetHandle? asset = none ∧ r.assetId? handle = none ∧ r.contract? handle = none) ∧
      (∀ address contract, (r.registerContract address contract).isOk = true ↔
        r.contract? address = none ∧ r.assetId? address = none) ∧
      (∀ entry e, r.register entry = .error e → empty.replay (entries ++ [entry]) = r) ∧
      ∀ network, r.bridge? network =
        (entries.filterMap (Registration.bridge? network)).getLast? := by
  intro r
  have hr : r.Coherent := Coherent.empty.replay entries
  have hmatch : ∀ asset handle,
      r.assetHandle? asset = some handle ↔ r.assetId? handle = some asset := fun _ _ =>
    assetHandle?_eq_some_iff_assetId? hr.toConsistent
  refine ⟨hmatch, fun handle => ?_, ?_, fun _ _ => assetHandle?_replay entries,
    fun _ _ => contract?_replay entries, fun more => ?_, fun _ _ => isOk_registerAsset_iff,
    fun _ _ => isOk_registerContract_iff, ?_, bridge?_replay entries⟩
  · rw [isToken_eq_true_iff]
    exact exists_congr fun asset => (hmatch asset handle).symm
  · rintro address ⟨htoken, hcontract⟩
    obtain ⟨asset, hasset⟩ := isToken_eq_true_iff.mp htoken
    rw [hr.apart hasset] at hcontract
    cases hcontract
  · rw [replay_append]
    exact Keeps.replay r more
  · intro entry e hrefused
    rw [replay_concat]
    show r.after entry = r
    rw [after, hrefused]

end Registry

end Crossnet
