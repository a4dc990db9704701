import Mathlib.Algebra.Order.BigOperators.Group.List
import Mathlib.Algebra.Order.Group.Nat
import Crossnet.Proofs.Interpreter.Escrow
import Crossnet.Proofs.Router.Events
import Crossnet.Proofs.Router.Ownership
import Crossnet.Proofs.Router.Spending

/-!
# The escrow is solvent

What spawns put into escrow stays there.  Only bridges and interpreters lose
anything, so the escrow, where it is neither, only gains; and each record that
is reported was paid for when it was.  A program that fails reports nothing.

* `sum_debited_eq_zero_of_outsider`: who is neither a bridge nor an interpreter
  loses nothing.
* `sum_spawns_le_credited_of_moment`: a call gives the escrow at least what its
  records say.
* `escrow_covers_spawns`: **at all times the escrow holds at least what the
  records that were reported say.**
-/

namespace Crossnet.Router

variable {config : RouterConfig} {r : Router} {calls : List Call} {m : Moment} {asset : AssetId}
  {token holder : Address}

/-! ## Gains and losses of a call -/

/-- Who is neither a bridge nor the interpreter of an origin loses nothing. -/
theorem sum_debited_eq_zero_of_outsider (hm : m ∈ history r calls)
    (hbridge : ∀ network, m.before.registry.bridge? network ≠ some holder)
    (hinterpreter : ∀ origin ∈ (replay r calls).2.interpreters,
      origin.interpreterAddress ≠ holder) :
    (m.effects.map (Effect.debited token holder)).sum = 0 := by
  by_contra hdebited
  obtain ⟨caller, origin, bytes, assets, amounts, hcall, hok⟩ := call_of_debited hdebited
  have hacts : m.actsFor origin = true := by simp [Moment.actsFor, hok, hcall]
  have hself := hinterpreter origin (mem_interpreters_of_actsFor hm hacts)
  obtain ⟨answer, hperforms⟩ := m.performs_of_isOk hok
  have hcaller : m.before.registry.bridge? origin.network = some caller := by
    rw [hcall] at hperforms
    generalize m.after = t at hperforms
    cases hperforms with
    | runProgram hbridge => exact hbridge
  rw [Moment.effects_of_isOk hok, hcall, sum_debited_delivery hself.symm, if_neg] at hdebited
  · exact hdebited rfl
  · rintro rfl
    exact hbridge _ hcaller

/-- A call gives the escrow at least what its records say. -/
theorem sum_spawns_le_credited_of_moment
    (htokens : ∀ {a found}, m.before.registry.assetHandle? a = some found →
      (found = token ↔ a = asset)) :
    (m.spawns.map (SpawnRecord.amountOf asset)).sum ≤
      (m.effects.map (Effect.credited token m.before.config.network.escrowAddress)).sum := by
  unfold Moment.spawns
  cases hanswer : m.answer with
  | error e => exact Nat.zero_le _
  | ok answer =>
    have hok : m.answer.isOk = true := by rw [hanswer]; rfl
    have hperforms : Performs m.before m.call answer m.after := Call.result_of_ok hanswer
    rw [Moment.effects_of_isOk hok]
    obtain ⟨r, call⟩ := m
    generalize Moment.after ⟨r, call⟩ = t at hperforms
    cases hperforms with
    | @runProgram caller origin bytes assets amounts program outcome store _ _ haccept _ hrun =>
      rw [programScript_eq] at hrun
      obtain ⟨⟨⟩, s, hopening, hsteps⟩ := Script.run_bind_eq_ok.mp hrun
      have hcounts : ∀ {a found},
          (r.environment caller).host.assetHandle a = some found →
            (found = token ↔ decide (a = asset) = true) := by
        intro a found hfound
        rw [decide_eq_true_eq]
        exact htokens hfound
      have hfunded := Interpreter.sum_spawns_le_credited hcounts hsteps
      rw [Call.effects, afterOpening, haccept, List.map_append, List.sum_append]
      dsimp only
      rw [Script.after_of_ok hopening]
      exact (hfunded.trans (Nat.zero_add _).le).trans (Nat.le_add_left _ _)
    | registerBridge => exact Nat.zero_le _
    | registerAsset => exact Nat.zero_le _
    | registerContract => exact Nat.zero_le _
    | mint => exact Nat.zero_le _
    | createInterpreter => exact Nat.zero_le _
    | takeEvents => exact Nat.zero_le _

/-! ## Gains and losses of a run -/

theorem config_of_mem_history (hm : m ∈ history r calls) : m.before.config = r.config := by
  obtain ⟨front, back, -, hbefore⟩ := mem_history.mp hm
  rw [hbefore]
  exact (later_replay r front).config

/-- What a run's records say of an asset is at most what the run gave the escrow of its token, and
the run took nothing from it. -/
theorem escrow_of_run (hr : r.registry.Consistent)
    (hbridge : ∀ m ∈ history r calls, ∀ network,
      m.before.registry.bridge? network ≠ some r.config.network.escrowAddress)
    (hinterpreter : ∀ origin ∈ (replay r calls).2.interpreters,
      origin.interpreterAddress ≠ r.config.network.escrowAddress)
    (htoken : (replay r calls).2.registry.assetHandle? asset = some token) :
    (((history r calls).flatMap Moment.effects).map
        (Effect.debited token r.config.network.escrowAddress)).sum = 0 ∧
      (((history r calls).flatMap Moment.spawns).map (SpawnRecord.amountOf asset)).sum ≤
        (((history r calls).flatMap Moment.effects).map
          (Effect.credited token r.config.network.escrowAddress)).sum := by
  have hlast := consistent_replay hr calls
  rw [sum_map_flatMap, sum_map_flatMap, sum_map_flatMap]
  constructor
  · exact sum_map_eq_zero fun m hm => sum_debited_eq_zero_of_outsider hm (hbridge m hm) hinterpreter
  · refine List.sum_le_sum fun m hm => ?_
    have hlater := (later_after m).registry.trans (later_of_mem_history hm).registry
    have hmoment := sum_spawns_le_credited_of_moment (m := m) fun hfound =>
      hlater.handle_eq_iff (consistent_of_mem_history hr hm) hlast htoken hfound
    rw [config_of_mem_history hm] at hmoment
    exact hmoment

/-! ## Solvency -/

theorem start_of_create {store : Store} (hcreate : create config store = .ok r) :
    r.config = config ∧ r.events = [] := by
  obtain ⟨-, rfl⟩ := create_eq_ok.mp hcreate
  exact ⟨rfl, rfl⟩

/-- **At all times the escrow holds at least what the records that were reported say**, where it is
neither a bridge nor an interpreter. -/
theorem escrow_covers_spawns (hcreate : create config Store.empty = .ok r)
    (hcontracts : (replay r calls).2.registry.contracts = [])
    (hbridge : ∀ m ∈ history r calls, ∀ network,
      m.before.registry.bridge? network ≠ some config.network.escrowAddress)
    (hinterpreter : ∀ origin ∈ (replay r calls).2.interpreters,
      origin.interpreterAddress ≠ config.network.escrowAddress)
    {front : List Call} (hfront : front <+: calls)
    (htoken : (replay r front).2.registry.assetHandle? asset = some token)
    (hsha : CollisionFree (used r calls ++ [.balance token config.network.escrowAddress])) :
    ∃ held, (replay r front).2.balance config.network.escrowAddress asset = .ok held ∧
      ((spawned r front).map (SpawnRecord.amountOf asset)).sum ≤ held.toNat := by
  obtain ⟨rfl, hevents⟩ := start_of_create hcreate
  obtain ⟨back, rfl⟩ := hfront
  have hlater : Later (replay r front).2 (replay r (front ++ back)).2 := by
    rw [replay_append]
    exact later_replay _ back
  have hmoments : ∀ m ∈ history r front, m ∈ history r (front ++ back) := by
    intro m hm
    rw [history_append]
    exact List.mem_append_left _ hm
  obtain ⟨hdebited, hcredited⟩ := escrow_of_run (consistent_of_create hcreate)
    (fun m hm => hbridge m (hmoments m hm))
    (fun origin horigin => hinterpreter origin (hlater.interpreters.subset horigin)) htoken
  have halone : (Identity.balance token r.config.network.escrowAddress).Alone (used r front) := by
    have hall := hsha.alone (fun _ => isEntry_of_mem_used) List.mem_cons_self trivial
    rw [used_append] at hall
    exact hall.mono (List.subset_append_left _ _)
  obtain ⟨held, hheld, hsum⟩ := Effect.amountAt?_of_leads
    (leads_of_history (hlater.registry.contracts_eq_nil hcontracts)) halone
    (amountAt?_of_create hcreate _)
  have hzero : (0 : UInt128).toNat = 0 := rfl
  refine ⟨held, (balance_eq_held htoken).trans (held_eq_ok.mpr hheld), ?_⟩
  rw [spawned_eq, hevents, List.filterMap_nil, List.nil_append]
  omega

theorem bridges_expedition : ∀ m ∈ history fresh expedition,
    m.before.registry.bridges ⊆ [(⟨1⟩, Party.carrier.address)] := by
  have houtset : ∀ m ∈ history fresh outset,
      m.before.registry.bridges ⊆ [(⟨1⟩, Party.carrier.address)] :=
    List.forall_mem_cons.mpr ⟨List.nil_subset _, List.forall_mem_cons.mpr ⟨List.Subset.refl _,
      List.forall_mem_cons.mpr ⟨List.Subset.refl _, List.forall_mem_nil _⟩⟩⟩
  rw [history_expedition]
  refine List.forall_mem_append.mpr ⟨houtset, ?_⟩
  simp only [List.forall_mem_cons, registry_ready, registry_gone]
  exact ⟨List.Subset.refl _, List.Subset.refl _, List.Subset.refl _, List.forall_mem_nil _⟩

/-- The only bridge on the expedition is the carrier. -/
theorem bridge?_expedition (hm : m ∈ history fresh expedition) {network : NetworkId}
    {bridge : Address} (h : m.before.registry.bridge? network = some bridge) :
    bridge = Party.carrier.address := by
  obtain ⟨entry, hentry, rfl⟩ := Option.map_eq_some_iff.mp h
  have hmem := bridges_expedition m hm (List.mem_of_find?_eq_some hentry)
  exact congrArg Prod.snd (List.mem_singleton.mp hmem)

/-- The venture puts three into escrow and the refused overdraft leaves no record: the escrow
covers what was sent. -/
theorem escrow_covers_expedition :
    spawned fresh expedition = [cargo] ∧
      ∃ held, (replay fresh expedition).2.balance fresh.config.network.escrowAddress ⟨1⟩ =
          .ok held ∧ 3 ≤ held.toNat := by
  have hspawned : spawned fresh expedition = [cargo] := by
    obtain ⟨t, houtfitting, -⟩ := arrives_outfitting
    obtain ⟨u, hventure, -⟩ := arrives_venture
    have hfirst : Moment.spawns ⟨outpost, dispatch outfitting 6⟩ = [] :=
      Moment.spawns_of_ok houtfitting.answer_eq
    have hsecond : Moment.spawns ⟨ready, dispatch venture 1⟩ = [cargo] :=
      Moment.spawns_of_ok hventure.answer_eq
    rw [spawned_eq, history_expedition, List.flatMap_append, List.flatMap_cons, List.flatMap_cons,
      List.flatMap_cons, List.flatMap_nil, hfirst, hsecond,
      Moment.spawns_of_not_isOk isOk_overdraft]
    rfl
  have hsha : CollisionFree (used fresh expedition ++
      [.balance .zero fresh.config.network.escrowAddress]) := by
    refine collisionFree_expedition (List.cons_subset.mpr ⟨?_, List.nil_subset _⟩)
    exact List.mem_cons_of_mem _ (List.mem_map_of_mem Party.escrow.mem_all)
  have hbridge : ∀ m ∈ history fresh expedition, ∀ network,
      m.before.registry.bridge? network ≠ some fresh.config.network.escrowAddress := by
    intro m hm network hfound
    have hsame : Party.escrow = Party.carrier :=
      company.holder_injective (bridge?_expedition hm hfound)
    cases hsame
  have hinterpreter : ∀ origin ∈ (replay fresh expedition).2.interpreters,
      origin.interpreterAddress ≠ fresh.config.network.escrowAddress := by
    intro origin horigin hself
    rw [interpreters_expedition] at horigin
    obtain rfl := List.mem_singleton.mp horigin
    have hsame : Party.explorer = Party.escrow := company.holder_injective hself
    cases hsame
  obtain ⟨held, hheld, hcovers⟩ := escrow_covers_spawns create_fresh contracts_expedition hbridge
    hinterpreter List.prefix_rfl assetHandle?_expedition hsha
  rw [hspawned] at hcovers
  exact ⟨hspawned, held, hheld, hcovers⟩

end Crossnet.Router
