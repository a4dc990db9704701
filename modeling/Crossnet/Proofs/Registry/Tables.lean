import Mathlib.Data.List.Basic
import Crossnet.Registry

/-!
# The tables of a registry

Assets and tokens are matched one to one: the table of tokens is the table of
assets read the other way, and no asset and no token is there twice.
Registrations keep this and never take an entry away.

* `assetHandle?_eq_some_iff`, `assetId?_eq_some_iff`: a lookup answers what its
  table holds.
* `assetHandle?_eq_some_iff_assetId?`: **the two tables mirror each other.**
* `registerAsset_eq_ok`, `registerContract_eq_ok`: when an entry is taken in.
* `Consistent.registerAsset`: **the match stays one to one.**
* `bridge?_registerBridge`: the bridge that was registered last is found.
-/

namespace Crossnet

/-- Where no two entries have one key, the entry that is found is the entry with the key. -/
theorem find?_key_eq_some {γ κ : Type} [DecidableEq κ] {f : γ → κ} {xs : List γ}
    (hkeys : (xs.map f).Nodup) {k : κ} {e : γ} :
    (xs.find? fun e => f e = k) = some e ↔ e ∈ xs ∧ f e = k := by
  induction xs with
  | nil => simp
  | cons x rest ih =>
    rw [List.map_cons, List.nodup_cons] at hkeys
    rw [List.find?_cons, List.mem_cons]
    by_cases hx : f x = k
    · rw [decide_eq_true hx]
      constructor
      · intro h
        cases h
        exact ⟨.inl rfl, hx⟩
      · rintro ⟨rfl | hmem, he⟩
        · rfl
        · have hkey : f x ∈ rest.map f := by
            rw [hx, ← he]
            exact List.mem_map_of_mem hmem
          exact absurd hkey hkeys.1
    · rw [decide_eq_false hx]
      show (rest.find? fun e => f e = k) = some e ↔ _
      rw [ih hkeys.2]
      constructor
      · rintro ⟨hmem, he⟩
        exact ⟨.inr hmem, he⟩
      · rintro ⟨rfl | hmem, he⟩
        · exact absurd he hx
        · exact ⟨hmem, he⟩

theorem find?_key_eq_none {γ κ : Type} [DecidableEq κ] {f : γ → κ} {xs : List γ} {k : κ} :
    (xs.find? fun e => f e = k) = none ↔ k ∉ xs.map f := by
  rw [List.find?_eq_none, List.mem_map]
  constructor
  · rintro h ⟨e, hmem, he⟩
    exact h e hmem (decide_eq_true he)
  · intro h e hmem he
    exact h ⟨e, hmem, of_decide_eq_true he⟩

namespace Registry

variable {r : Registry} {asset : AssetId} {handle address : Address}

/-- The table of tokens is the table of assets read the other way, and neither has a key twice. -/
structure Consistent (r : Registry) : Prop where
  mirror : r.handles = r.assets.map Prod.swap
  assets : (r.assets.map Prod.fst).Nodup
  handles : (r.handles.map Prod.fst).Nodup

theorem Consistent.empty : Consistent Registry.empty :=
  ⟨rfl, List.nodup_nil, List.nodup_nil⟩

theorem Consistent.mem_handles_iff (h : r.Consistent) :
    (handle, asset) ∈ r.handles ↔ (asset, handle) ∈ r.assets := by
  rw [h.mirror, List.mem_map]
  constructor
  · rintro ⟨entry, hmem, hswap⟩
    obtain ⟨rfl, rfl⟩ := Prod.mk.inj hswap
    exact hmem
  · intro hmem
    exact ⟨(asset, handle), hmem, rfl⟩

theorem assetHandle?_eq_some_iff (h : r.Consistent) :
    r.assetHandle? asset = some handle ↔ (asset, handle) ∈ r.assets := by
  unfold assetHandle?
  rw [Option.map_eq_some_iff]
  constructor
  · rintro ⟨⟨a, t⟩, hfind, rfl⟩
    obtain ⟨hmem, rfl⟩ := (find?_key_eq_some h.assets).mp hfind
    exact hmem
  · intro hmem
    exact ⟨(asset, handle), (find?_key_eq_some h.assets).mpr ⟨hmem, rfl⟩, rfl⟩

theorem assetId?_eq_some_iff (h : r.Consistent) :
    r.assetId? handle = some asset ↔ (handle, asset) ∈ r.handles := by
  unfold assetId?
  rw [Option.map_eq_some_iff]
  constructor
  · rintro ⟨⟨t, a⟩, hfind, rfl⟩
    obtain ⟨hmem, rfl⟩ := (find?_key_eq_some h.handles).mp hfind
    exact hmem
  · intro hmem
    exact ⟨(handle, asset), (find?_key_eq_some h.handles).mpr ⟨hmem, rfl⟩, rfl⟩

/-- **The two tables mirror each other.** -/
theorem assetHandle?_eq_some_iff_assetId? (h : r.Consistent) :
    r.assetHandle? asset = some handle ↔ r.assetId? handle = some asset := by
  rw [assetHandle?_eq_some_iff h, assetId?_eq_some_iff h, h.mem_handles_iff]

/-- A token has one asset. -/
theorem Consistent.asset_unique (h : r.Consistent) {a b : AssetId}
    (ha : r.assetHandle? a = some handle) (hb : r.assetHandle? b = some handle) : a = b := by
  rw [assetHandle?_eq_some_iff_assetId? h] at ha hb
  rw [ha] at hb
  exact Option.some.inj hb

theorem assetHandle?_eq_none_iff :
    r.assetHandle? asset = none ↔ asset ∉ r.assets.map Prod.fst :=
  Option.map_eq_none_iff.trans find?_key_eq_none

theorem assetId?_eq_none_iff : r.assetId? handle = none ↔ handle ∉ r.handles.map Prod.fst :=
  Option.map_eq_none_iff.trans find?_key_eq_none

/-! ## Registrations -/

theorem bridge?_registerBridge (r : Registry) (served : NetworkId) (bridge : Address)
    (network : NetworkId) : (r.registerBridge served bridge).bridge? network =
      if served = network then some bridge else r.bridge? network := by
  unfold registerBridge bridge?
  rw [List.find?_cons]
  by_cases h : served = network
  · rw [if_pos h, decide_eq_true h]
    rfl
  · rw [if_neg h, decide_eq_false h]

theorem registerAsset_eq_ok {after : Registry} :
    r.registerAsset handle asset = .ok after ↔
      r.assetHandle? asset = none ∧ r.assetId? handle = none ∧ r.contract? handle = none ∧
        after = { r with
          assets := (asset, handle) :: r.assets
          handles := (handle, asset) :: r.handles } := by
  unfold registerAsset isToken
  cases r.assetHandle? asset with
  | some found => simp
  | none =>
    cases r.assetId? handle with
    | some found => simp
    | none =>
      cases r.contract? handle with
      | some found => simp
      | none => simp [eq_comm]

theorem registerContract_eq_ok {contract : Contract} {after : Registry} :
    r.registerContract address contract = .ok after ↔
      r.contract? address = none ∧ r.assetId? address = none ∧
        after = { r with contracts := (address, contract) :: r.contracts } := by
  unfold registerContract isToken
  cases r.contract? address with
  | some found => simp
  | none =>
    cases r.assetId? address with
    | some found => simp
    | none => simp [eq_comm]

/-- **The match of assets and tokens stays one to one.** -/
theorem Consistent.registerAsset (h : r.Consistent) {after : Registry}
    (hafter : r.registerAsset handle asset = .ok after) : after.Consistent := by
  obtain ⟨hasset, hhandle, -, rfl⟩ := registerAsset_eq_ok.mp hafter
  rw [assetHandle?_eq_none_iff] at hasset
  rw [assetId?_eq_none_iff] at hhandle
  exact ⟨congrArg ((handle, asset) :: ·) h.mirror, List.nodup_cons.mpr ⟨hasset, h.assets⟩,
    List.nodup_cons.mpr ⟨hhandle, h.handles⟩⟩

/-- What was in the tables of assets and contracts still is. -/
structure Grows (r after : Registry) : Prop where
  assets : r.assets <:+ after.assets
  contracts : r.contracts <:+ after.contracts

theorem Grows.refl (r : Registry) : r.Grows r :=
  ⟨List.suffix_rfl, List.suffix_rfl⟩

theorem Grows.trans {a b c : Registry} (hab : a.Grows b) (hbc : b.Grows c) : a.Grows c :=
  ⟨hab.assets.trans hbc.assets, hab.contracts.trans hbc.contracts⟩

theorem Grows.assetHandle? {after : Registry} (h : r.Grows after) (hr : r.Consistent)
    (hafter : after.Consistent) (hasset : r.assetHandle? asset = some handle) :
    after.assetHandle? asset = some handle := by
  rw [assetHandle?_eq_some_iff hr] at hasset
  rw [assetHandle?_eq_some_iff hafter]
  exact h.assets.subset hasset

/-- Whether a token is the one of an asset does not depend on when it is asked. -/
theorem Grows.handle_eq_iff {after : Registry} (h : r.Grows after) (hr : r.Consistent)
    (hafter : after.Consistent) (hasset : after.assetHandle? asset = some handle) {a : AssetId}
    {found : Address} (hfound : r.assetHandle? a = some found) : found = handle ↔ a = asset := by
  have hlater := h.assetHandle? hr hafter hfound
  constructor
  · rintro rfl
    exact hafter.asset_unique hlater hasset
  · rintro rfl
    rw [hlater] at hasset
    exact Option.some.inj hasset

/-- Where there is no contract, there was none. -/
theorem Grows.contracts_eq_nil {after : Registry} (h : r.Grows after)
    (hnone : after.contracts = []) : r.contracts = [] := by
  have hsuffix := h.contracts
  rw [hnone] at hsuffix
  exact List.suffix_nil.mp hsuffix

end Registry

end Crossnet
