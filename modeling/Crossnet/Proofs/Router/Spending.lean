import Crossnet.Proofs.Router.Conservation

/-!
# Who can spend

A balance gets lower in one way only: a program is delivered for an origin, and
the holder is the origin's interpreter, which the program speaks for, or the
bridge that delivers it, which pays for the assets that it brings along.

* `sum_debited_receiveEffects`: incoming assets are taken from the bridge.
* `spender_of_decrease`: **nobody else's balance gets lower**, and the bridge's
  by no more than it brings along.
-/

namespace Crossnet

/-- How much of a token comes along with a delivery. -/
def Registry.incoming (registry : Registry) (token : Address) (assets : List AssetId)
    (amounts : List UInt128) : Nat :=
  ((assets.zip amounts).map fun (asset, amount) =>
    if registry.assetHandle? asset = some token then amount.toNat else 0).sum

namespace Router

variable {config : RouterConfig} {r : Router} {calls : List Call} {token holder : Address}

/-- Incoming assets are taken from the bridge. -/
theorem sum_debited_receiveEffects (r : Router) (caller : Address) (interp : Interpreter)
    (incoming : List (AssetId × UInt128)) :
    ((interp.receiveEffects (r.environment caller) incoming).map
        (Effect.debited token holder)).sum =
      if caller = holder then
        (incoming.map fun (asset, amount) =>
          if r.registry.assetHandle? asset = some token then amount.toNat else 0).sum
      else 0 := by
  induction incoming with
  | nil => simp [Interpreter.receiveEffects]
  | cons entry rest ih =>
    obtain ⟨asset, amount⟩ := entry
    have hhost : (r.environment caller).host.assetHandle asset =
        r.registry.assetHandle? asset := rfl
    unfold Interpreter.receiveEffects at ih ⊢
    rw [List.filterMap_cons]
    dsimp only
    rw [hhost]
    cases hhandle : r.registry.assetHandle? asset with
    | none => simp [hhandle, ih]
    | some found =>
      simp only [Option.map_some, List.map_cons, List.sum_cons, ih, hhandle, Option.some.injEq,
        Effect.debited]
      show (if found = token ∧ caller = holder then _ else _) + _ = _
      by_cases hcaller : caller = holder
      · simp [hcaller]
      · simp [hcaller]

/-- A delivered program takes nothing from holders other than the interpreter, besides what the
bridge brings along. -/
theorem sum_debited_delivery {caller : Address} {origin : Origin} {bytes : Bytes}
    {assets : List AssetId} {amounts : List UInt128}
    (hholder : holder ≠ origin.interpreterAddress) :
    ((Call.effects r (.runProgram caller origin bytes assets amounts)).map
        (Effect.debited token holder)).sum =
      if caller = holder then r.registry.incoming token assets amounts else 0 := by
  have hfound : ((r.foundEffects origin).map (Effect.debited token holder)).sum = 0 := by
    refine sum_map_eq_zero fun e he => ?_
    obtain rfl := mem_foundEffects he
    rfl
  have hsteps : ((r.afterOpening caller origin bytes (assets.zip amounts)
      Interpreter.stepsEffects).map (Effect.debited token holder)).sum = 0 := by
    refine sum_map_eq_zero fun e he => ?_
    obtain ⟨program, s, -, hmem⟩ := mem_afterOpening he
    exact Interpreter.debited_of_mem_stepsEffects hmem hholder
  rw [Call.effects, List.map_append, List.map_append, List.sum_append, List.sum_append, hfound,
    hsteps, sum_debited_receiveEffects, Nat.zero_add, Nat.add_zero]
  rfl

/-- Only a delivered program debits anyone. -/
theorem call_of_debited {m : Moment} (h : (m.effects.map (Effect.debited token holder)).sum ≠ 0) :
    ∃ caller origin bytes assets amounts,
      m.call = .runProgram caller origin bytes assets amounts ∧ m.answer.isOk = true := by
  by_contra hnone
  refine h (sum_map_eq_zero fun e he => ?_)
  obtain ⟨hok, ⟨token, payee, amount, rfl⟩ | ⟨origin, -, rfl⟩ |
    ⟨caller, origin, bytes, assets, amounts, hcall⟩⟩ := Moment.mem_effects he
  · rfl
  · rfl
  · exact absurd ⟨caller, origin, bytes, assets, amounts, hcall, hok⟩ hnone

/-- **Nobody else's balance gets lower.**  Where a holder has less after a call, the call is a
delivered program, and the holder is the interpreter of its origin, or the bridge that delivered it
and has lost no more than it brought along. -/
theorem spender_of_decrease (hcreate : create config Store.empty = .ok r)
    (hcontracts : (replay r calls).2.registry.contracts = []) {m : Moment}
    (hm : m ∈ history r calls)
    (hsha : CollisionFree (used r calls ++ [.balance token holder])) :
    ∃ x y, m.before.held token holder = .ok x ∧ m.after.held token holder = .ok y ∧
      (y < x → ∃ caller origin bytes assets amounts,
        m.call = .runProgram caller origin bytes assets amounts ∧ m.answer.isOk = true ∧
          (holder = origin.interpreterAddress ∨
            holder = caller ∧ m.before.registry.bridge? origin.network = some caller ∧
              x.toNat - y.toNat ≤ m.before.registry.incoming token assets amounts)) := by
  have halone : (Identity.balance token holder).Alone (used r calls) :=
    hsha.alone (fun _ => isEntry_of_mem_used) (List.mem_singleton.mpr rfl) trivial
  obtain ⟨es, hes, hused⟩ := leads_to_moment hm hcontracts
  obtain ⟨x, hx, -⟩ :=
    Effect.amountAt?_of_leads hes (halone.mono hused) (amountAt?_of_create hcreate _)
  obtain ⟨y, hy, hsum⟩ :=
    Effect.amountAt?_of_leads (leads_of_moment (contracts_before_eq_nil hm hcontracts))
      (halone.mono (identities_subset_used hm)) hx
  refine ⟨x, y, held_eq_ok.mpr hx, held_eq_ok.mpr hy, fun hlt => ?_⟩
  have hlt : y.toNat < x.toNat := hlt
  have hdebited : (m.effects.map (Effect.debited token holder)).sum ≠ 0 := by omega
  obtain ⟨caller, origin, bytes, assets, amounts, hcall, hok⟩ := call_of_debited hdebited
  refine ⟨caller, origin, bytes, assets, amounts, hcall, hok, ?_⟩
  by_cases hself : holder = origin.interpreterAddress
  · exact .inl hself
  · right
    obtain ⟨answer, hperforms⟩ := m.performs_of_isOk hok
    have hbridge : m.before.registry.bridge? origin.network = some caller := by
      rw [hcall] at hperforms
      generalize m.after = t at hperforms
      cases hperforms with
      | runProgram hbridge => exact hbridge
    rw [Moment.effects_of_isOk hok, hcall, sum_debited_delivery hself] at hsum
    by_cases hcaller : caller = holder
    · subst hcaller
      rw [if_pos rfl] at hsum
      exact ⟨rfl, hbridge, by omega⟩
    · rw [if_neg hcaller] at hsum
      omega

/-- The second program of the expedition takes from its interpreter, which pays, and from its
bridge no more than comes along. -/
theorem spenders_expedition :
    ∃ m ∈ history fresh expedition, m.call = dispatch venture 1 ∧ m.answer.isOk = true ∧
      (m.before.held .zero explorer.interpreterAddress = .ok 6 ∧
        m.after.held .zero explorer.interpreterAddress = .ok 2) ∧
      (m.before.held .zero Party.carrier.address = .ok 4 ∧
        m.after.held .zero Party.carrier.address = .ok 3) ∧
      m.before.registry.bridge? explorer.network = some Party.carrier.address ∧
      4 - 3 ≤ m.before.registry.incoming .zero [⟨1⟩] [1] := by
  have hm : ⟨ready, dispatch venture 1⟩ ∈ history fresh expedition := by
    rw [history_expedition]
    exact List.mem_append_right _ (.tail _ (.head _))
  have hsha : ∀ p : Party,
      CollisionFree (used fresh expedition ++ [.balance .zero p.address]) := by
    intro p
    refine collisionFree_expedition (List.cons_subset.mpr ⟨?_, List.nil_subset _⟩)
    exact List.mem_cons_of_mem _ (List.mem_map_of_mem p.mem_all)
  have hfirst : ∀ p : Party, ready.held .zero p.address = .ok (Party.shares 4 6 0 0 p) :=
    camp_ready.held_eq
  have hlast : ∀ p : Party, (Moment.after ⟨ready, dispatch venture 1⟩).held .zero p.address =
      .ok (Party.shares 3 2 2 3 p) := by
    have hgone : Moment.after ⟨ready, dispatch venture 1⟩ = gone := rfl
    rw [hgone]
    exact camp_gone.held_eq
  have hspender : ∀ p : Party, Party.shares 3 2 2 3 p < Party.shares 4 6 0 0 p →
      ∃ caller origin bytes assets amounts,
        dispatch venture 1 = .runProgram caller origin bytes assets amounts ∧
          (Moment.answer ⟨ready, dispatch venture 1⟩).isOk = true ∧
            (p.address = origin.interpreterAddress ∨ p.address = caller ∧
              ready.registry.bridge? origin.network = some caller ∧
              (Party.shares 4 6 0 0 p).toNat - (Party.shares 3 2 2 3 p).toNat ≤
                ready.registry.incoming .zero assets amounts) := by
    intro p hless
    obtain ⟨x, y, hx, hy, hspends⟩ :=
      spender_of_decrease create_fresh contracts_expedition hm (hsha p)
    dsimp only at hx
    cases hx.symm.trans (hfirst p)
    cases hy.symm.trans (hlast p)
    exact hspends hless
  obtain ⟨_, _, _, _, _, -, hok, -⟩ := hspender .explorer (by decide)
  obtain ⟨caller, origin, bytes, assets, amounts, hcall, -, hself | ⟨-, hbridge, hle⟩⟩ :=
    hspender .carrier (by decide)
  · cases hcall
    have hsame : Party.carrier = Party.explorer := company.holder_injective hself
    cases hsame
  · cases hcall
    refine ⟨_, hm, ?_⟩
    dsimp only
    exact ⟨rfl, hok, ⟨hfirst .explorer, hlast .explorer⟩, ⟨hfirst .carrier, hlast .carrier⟩,
      hbridge, hle⟩

end Router

end Crossnet
