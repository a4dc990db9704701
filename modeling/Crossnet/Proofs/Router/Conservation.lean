import Crossnet.Proofs.Router.Deliveries

/-!
# Conservation of value

Only minting makes more of a token.  Programs move what there is, and calls that
fail do nothing, so at the end of a run the holders' balances add up to what the
run minted, as long as the holders include everyone who was credited or debited.

* `held_eq_ok`: what a holder has is the amount in the store.
* `sum_minted_effects`: the effects of a call mint what the call says.
* `balances_add_up_to_minted`: **balances add up to what was minted**, and each
  call adds to their sum what it mints.
-/

namespace Crossnet.Router

variable {config : RouterConfig} {r : Router} {calls : List Call} {asset : AssetId}
  {token holder : Address}

/-- What a holder has of a token. -/
def held (r : Router) (token holder : Address) : Except RouterError UInt128 :=
  r.query ((Ledger.balance token holder).mapError .ledger)

theorem held_eq_ok {amount : UInt128} :
    r.held token holder = .ok amount ↔
      Ledger.amountAt? r.store (Ledger.key token holder) = some amount := by
  unfold held
  rw [query_eq_ok]
  constructor
  · rintro ⟨s, h⟩
    exact (Ledger.run_readAt_eq_ok.mp (Script.run_mapError_eq_ok.mp h)).2
  · intro h
    exact ⟨r.store, Script.run_mapError_eq_ok.mpr (Ledger.run_readAt_eq_ok.mpr ⟨rfl, h⟩)⟩

/-- What holders that are known have. -/
theorem Camp.held_eq {ι : Type} {C : Company ι} {origin : Origin} {bridge : ι}
    {amounts : ι → UInt128} {owners : AddressSet}
    (h : Camp r C origin bridge asset amounts owners) (i : ι) :
    r.held C.token (C.holder i) = .ok (amounts i) :=
  held_eq_ok.mpr (h.stock.amountAt i)

theorem balance_eq_held (h : r.registry.assetHandle? asset = some token) :
    r.balance holder asset = r.held token holder := by
  unfold balance held
  rw [h]

/-- The holders' amounts can all be read, and add up to a total. -/
def AddUp (read : Address → Except RouterError UInt128) (holders : Finset Address)
    (total : Nat) : Prop :=
  ∃ amount : Address → UInt128, (∀ holder ∈ holders, read holder = .ok (amount holder)) ∧
    ∑ holder ∈ holders, (amount holder).toNat = total

/-- How much of an asset a call mints. -/
def Moment.minted (asset : AssetId) (m : Moment) : Nat :=
  match m.call with
  | .mint _ a _ amount => if a = asset ∧ m.answer.isOk then amount.toNat else 0
  | _ => 0

theorem Moment.minted_of_not_isOk {m : Moment} (h : m.answer.isOk = false) :
    m.minted asset = 0 := by
  unfold minted
  split
  · rw [if_neg]
    rintro ⟨-, hok⟩
    rw [h] at hok
    cases hok
  · rfl

/-! ## What effects mint -/

theorem minted_eq_zero_of_delivery {caller : Address} {origin : Origin} {bytes : Bytes}
    {assets : List AssetId} {amounts : List UInt128} {e : Effect}
    (h : e ∈ Call.effects r (.runProgram caller origin bytes assets amounts)) :
    e.minted token = 0 := by
  rcases mem_delivery h with rfl | ⟨-, amount, t, -, -, rfl⟩ | ⟨t, payee, amount, rfl⟩ |
    ⟨call, rfl⟩ <;> rfl

/-- The effects of a call mint what the call says.  The asset's token at the time of the call is
the token it has in the end, and no other asset has it. -/
theorem sum_minted_effects (hr : r.registry.Consistent)
    (htoken : (replay r calls).2.registry.assetHandle? asset = some token) {m : Moment}
    (hm : m ∈ history r calls) : (m.effects.map (Effect.minted token)).sum = m.minted asset := by
  have hlater := (later_after m).registry.trans (later_of_mem_history hm).registry
  have hbefore := consistent_of_mem_history hr hm
  have hlast := consistent_replay hr calls
  rcases m.after_cases with ⟨hfail, -⟩ | ⟨hok, answer, hperforms⟩
  · rw [Moment.effects_of_not_isOk hfail, Moment.minted_of_not_isOk hfail]
    rfl
  · rw [Moment.effects_of_isOk hok, Moment.minted, hok]
    obtain ⟨before, call⟩ := m
    generalize Moment.after ⟨before, call⟩ = t at hperforms
    cases hperforms with
    | @mint caller holder found a amount store _ hhandle _ =>
      have hiff : found = token ↔ a = asset := hlater.handle_eq_iff hbefore hlast htoken hhandle
      rw [Call.effects, hhandle]
      show (if found = token then amount.toNat else 0) + 0 =
        if a = asset ∧ true = true then amount.toNat else 0
      simp only [hiff, and_true, Nat.add_zero]
    | runProgram => exact sum_map_eq_zero fun e he => minted_eq_zero_of_delivery he
    | createInterpreter =>
      refine sum_map_eq_zero fun e he => ?_
      obtain rfl := mem_foundEffects he
      rfl
    | registerBridge => rfl
    | registerAsset => rfl
    | registerContract => rfl
    | takeEvents => rfl

/-- What comes of each element is summed up element by element. -/
theorem sum_map_flatMap {α β : Type} (f : β → Nat) (g : α → List β) (xs : List α) :
    ((xs.flatMap g).map f).sum = (xs.map fun x => ((g x).map f).sum).sum := by
  rw [List.map_flatMap, List.flatMap_def, List.sum_flatten, List.map_map]
  rfl

theorem sum_minted_history (hr : r.registry.Consistent)
    (htoken : (replay r calls).2.registry.assetHandle? asset = some token) :
    (((history r calls).flatMap Moment.effects).map (Effect.minted token)).sum =
      ((history r calls).map (Moment.minted asset)).sum := by
  rw [sum_map_flatMap]
  refine congrArg List.sum (List.map_congr_left fun m hm => ?_)
  exact sum_minted_effects hr htoken hm

/-! ## Conservation -/

/-- What the store of a new router holds for anyone. -/
theorem amountAt?_of_create (hcreate : create config Store.empty = .ok r) (key : Digest) :
    Ledger.amountAt? r.store key = some 0 := by
  obtain ⟨-, rfl⟩ := create_eq_ok.mp hcreate
  exact Ledger.amountAt?_empty key

theorem consistent_of_create {store : Store} (hcreate : create config store = .ok r) :
    r.registry.Consistent := by
  obtain ⟨-, rfl⟩ := create_eq_ok.mp hcreate
  exact .empty

theorem addUp_of_leads {t : Router} {es : List Effect} (h : Effect.Leads es r.store t.store)
    {holders : Finset Address}
    (hholders : ∀ holder, Identity.balance token holder ∈ es.flatMap Effect.identities →
      holder ∈ holders)
    (halone : ∀ holder ∈ holders,
      (Identity.balance token holder).Alone (es.flatMap Effect.identities))
    {total : Nat} (htotal : AddUp (r.held token) holders total) :
    AddUp (t.held token) holders (total + (es.map (Effect.minted token)).sum) := by
  obtain ⟨before, hbefore, rfl⟩ := htotal
  obtain ⟨after, hafter, hsum⟩ := Effect.sum_amountAt?_of_leads h hholders halone
    fun holder hmem => held_eq_ok.mp (hbefore holder hmem)
  exact ⟨after, fun holder hmem => held_eq_ok.mpr (hafter holder hmem), hsum⟩

/-- **Balances add up to what was minted**, and each call adds to their sum what it mints.  A
delivered program mints nothing, so it leaves the sum as it is. -/
theorem balances_add_up_to_minted (hcreate : create config Store.empty = .ok r)
    (hcontracts : (replay r calls).2.registry.contracts = [])
    (htoken : (replay r calls).2.registry.assetHandle? asset = some token)
    {holders : Finset Address}
    (hholders : ∀ holder, Identity.balance token holder ∈ used r calls → holder ∈ holders)
    (hsha : CollisionFree (used r calls ++ holders.toList.map (Identity.balance token))) :
    AddUp (fun holder => (replay r calls).2.balance holder asset) holders
        ((history r calls).map (Moment.minted asset)).sum ∧
      ∀ m ∈ history r calls, ∃ total, AddUp (m.before.held token) holders total ∧
        AddUp (m.after.held token) holders (total + m.minted asset) := by
  have halone : ∀ holder ∈ holders, (Identity.balance token holder).Alone (used r calls) :=
    fun holder hmem => hsha.alone (fun _ => isEntry_of_mem_used)
      (List.mem_map_of_mem (Finset.mem_toList.mpr hmem)) trivial
  have hzero : AddUp (r.held token) holders 0 :=
    ⟨fun _ => 0, fun holder _ => held_eq_ok.mpr (amountAt?_of_create hcreate _), by simp⟩
  have hconsistent := consistent_of_create hcreate
  constructor
  · have hlast := addUp_of_leads (leads_of_history hcontracts) hholders halone hzero
    rw [sum_minted_history hconsistent htoken, Nat.zero_add] at hlast
    obtain ⟨amount, hamount, hsum⟩ := hlast
    refine ⟨amount, fun holder hmem => ?_, hsum⟩
    exact (balance_eq_held htoken).trans (hamount holder hmem)
  · intro m hm
    obtain ⟨es, hes, hused⟩ := leads_to_moment hm hcontracts
    have hmoment := identities_subset_used hm
    have hstart := addUp_of_leads hes (fun holder hmem => hholders holder (hused hmem))
      (fun holder hmem => (halone holder hmem).mono hused) hzero
    have hend := addUp_of_leads (leads_of_moment (contracts_before_eq_nil hm hcontracts))
      (fun holder hmem => hholders holder (hmoment hmem))
      (fun holder hmem => (halone holder hmem).mono hmoment) hstart
    rw [sum_minted_effects hconsistent htoken hm] at hend
    exact ⟨_, hstart, hend⟩

/-- Those who hold something on the expedition. -/
def partyHolders : Finset Address := (Party.all.map Party.address).toFinset

theorem mem_partyHolders {holder : Address} :
    holder ∈ partyHolders ↔ .balance .zero holder ∈ expeditionEntries := by
  rw [partyHolders, List.mem_toFinset, expeditionEntries, List.mem_cons]
  simp

theorem minted_expedition :
    ((history fresh expedition).map (Moment.minted ⟨1⟩)).sum = 10 := by
  rw [history_expedition, List.map_append, List.sum_append]
  rfl

/-- After a payment, a spawn and a refused program, four holders have the ten that were minted. -/
theorem balances_add_up_expedition :
    (∀ p : Party, (replay fresh expedition).2.balance p.address ⟨1⟩ =
        .ok (Party.shares 3 2 2 3 p)) ∧
      AddUp (fun holder => (replay fresh expedition).2.balance holder ⟨1⟩) partyHolders 10 ∧
      ∀ m ∈ history fresh expedition, ∃ total, AddUp (m.before.held .zero) partyHolders total ∧
        AddUp (m.after.held .zero) partyHolders (total + m.minted ⟨1⟩) := by
  have hholders : ∀ holder, .balance .zero holder ∈ used fresh expedition →
      holder ∈ partyHolders :=
    fun holder hused => mem_partyHolders.mpr (used_expedition_subset hused)
  have hmore : partyHolders.toList.map (.balance .zero) ⊆ expeditionEntries := by
    intro i hi
    obtain ⟨holder, hholder, rfl⟩ := List.mem_map.mp hi
    exact mem_partyHolders.mp (Finset.mem_toList.mp hholder)
  obtain ⟨hsum, hmoments⟩ := balances_add_up_to_minted create_fresh contracts_expedition
    assetHandle?_expedition hholders (collisionFree_expedition hmore)
  rw [minted_expedition] at hsum
  refine ⟨fun p => ?_, hsum, hmoments⟩
  rw [balance_eq_held assetHandle?_expedition, replay_expedition]
  exact camp_gone.held_eq p

end Crossnet.Router
