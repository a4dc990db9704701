import Crossnet.Proofs.Effect.Commute
import Crossnet.Proofs.Interpreter.Escrow
import Crossnet.Proofs.Interpreter.Withdrawal
import Crossnet.Proofs.Storage.Snapshots

/-!
# Accounting for spawns

The records of a run say what its spawns put into escrow.  The escrow gains as
much, where nothing else pays it and nothing is taken from it: it is then given
what the withdrawals of the spawns take from the interpreter, and those are the
amounts in the records.

* `Effect.map_amountAt?_of_leads`: an amount that nothing is taken from grows by
  what is given.
* `sum_runEffects`: what a run gives the escrow is what its records say.
* `execute_accounts_for_spawns`: **a run leaves a record for each spawn and an
  answer for each call, and the escrow gains what the records say.**
-/

namespace Crossnet

/-! ## An amount that nothing is taken from -/

/-- An amount that nothing is taken from grows by what is given.  An entry that is no amount stays
none. -/
theorem Effect.map_amountAt?_of_leads {σ : Type} [Storage σ] [LawfulStorage σ] {s t : σ}
    {es : List Effect} {token holder : Address} (h : Leads es s t)
    (halone : (Identity.balance token holder).Alone (es.flatMap identities))
    (hdebited : (es.map (debited token holder)).sum = 0) :
    (Ledger.amountAt? t (Ledger.key token holder)).map BitVec.toNat =
      (Ledger.amountAt? s (Ledger.key token holder)).map fun before =>
        before.toNat + (es.map (credited token holder)).sum := by
  cases hbefore : Ledger.amountAt? s (Ledger.key token holder) with
  | some before =>
    obtain ⟨after, hafter, hsum⟩ := amountAt?_of_leads h halone hbefore
    rw [hafter, Option.map_some, Option.map_some]
    rw [hdebited, Nat.add_zero] at hsum
    exact congrArg some hsum
  | none =>
    -- Effects on the entry would have failed, so there are none.
    have hmem : Identity.balance token holder ∉ es.flatMap identities := by
      intro hmem
      obtain ⟨x, hx⟩ := (settled_of_leads h halone hmem).1
      rw [hbefore] at hx
      cases hx
    have hsame : Storage.get? t (Ledger.key token holder) =
        Storage.get? s (Ledger.key token holder) := by
      refine get?_of_leads_of_ne h fun i hi hdigest => ?_
      rw [halone i hi hdigest] at hi
      exact hmem hi
    rw [Ledger.amountAt?_congr hsame, hbefore]
    rfl

namespace Interpreter

open Stage (Adds Dispatches Answers)

variable {σ : Type} [Storage σ] {s t : σ} {interp : Interpreter} {env : Environment}
  {token : Address}

/-! ## What the escrow gains -/

/-- The effects of a run, the moves of the incoming assets among them. -/
def runEffects (interp : Interpreter) (env : Environment) (instructions : List Instruction)
    (incoming : List (AssetId × UInt128)) (s : σ) : List Effect :=
  interp.receiveEffects env incoming ++
    (interp.runStages env instructions incoming s).flatMap (Stage.effects interp env)

/-- The incoming assets move from the relayer to the interpreter, so they change nothing for
anyone else. -/
theorem sum_receiveEffects {holder : Address} (hself : holder ≠ interp.address)
    (hrelayer : holder ≠ env.relayer) (token : Address) (incoming : List (AssetId × UInt128)) :
    ((interp.receiveEffects env incoming).map (Effect.credited token holder)).sum = 0 ∧
      ((interp.receiveEffects env incoming).map (Effect.debited token holder)).sum = 0 := by
  constructor
  · refine sum_map_eq_zero fun e he => ?_
    obtain ⟨asset, amount, found, -, -, rfl⟩ := mem_receiveEffects he
    exact if_neg fun h => hself h.2.symm
  · refine sum_map_eq_zero fun e he => ?_
    obtain ⟨asset, amount, found, -, -, rfl⟩ := mem_receiveEffects he
    exact if_neg fun h => hrelayer h.2.symm

theorem sum_debited_stepsEffects {holder : Address} (hself : holder ≠ interp.address)
    (token : Address) (instructions : List Instruction) :
    ((interp.stepsEffects env instructions s).map (Effect.debited token holder)).sum = 0 :=
  sum_map_eq_zero fun _ he => debited_of_mem_stepsEffects he hself

/-- The escrow gains what the records of the stages say, where it is neither the interpreter nor the
relayer and no stage pays it. -/
theorem sum_runEffects {instructions : List Instruction} {incoming : List (AssetId × UInt128)}
    {parts : List Outcome} (hself : env.escrow ≠ interp.address)
    (hrelayer : env.escrow ≠ env.relayer)
    (hparts : List.Forall₂ (Adds interp env)
      (interp.runStages env instructions incoming s) parts)
    (hpaid : ∀ stage ∈ interp.runStages env instructions incoming s,
      stage.paid interp env token env.escrow = 0) :
    ((interp.runEffects env instructions incoming s).map
        (Effect.credited token env.escrow)).sum =
      ((parts.flatMap Outcome.spawns).map (SpawnRecord.sumOf fun asset =>
        env.host.assetHandle asset = some token)).sum := by
  have hcounts : ∀ {asset found}, env.host.assetHandle asset = some found →
      (found = token ↔ decide (env.host.assetHandle asset = some token) = true) := by
    intro asset found hfound
    rw [hfound, decide_eq_true_eq, Option.some.injEq]
  have hnothing : ((interp.runStages env instructions incoming s).map
      (Stage.paid interp env token env.escrow)).sum = 0 :=
    sum_map_eq_zero hpaid
  rw [runEffects, List.map_append, List.sum_append,
    (sum_receiveEffects hself hrelayer token incoming).1, sum_credited_of_stages hcounts hparts,
    hnothing, Nat.zero_add, Nat.add_zero]

/-- **A run leaves a record for each spawn and an answer for each call, in order**, and the escrow
gains what the records say, where it is neither the interpreter nor the relayer and is paid nothing
besides. -/
theorem execute_accounts_for_spawns {program : Program} {incoming : List (AssetId × UInt128)}
    {outcome : Outcome} {s t : Store} (hcontract : ∀ address, env.host.contract address = none)
    (hrun : interp.execute env program incoming s = .ok outcome t) :
    let stages := interp.runStages env program.instructions incoming s
    stages.map Stage.instruction = program.instructions ∧
      List.Forall₂ (Dispatches interp env)
        (stages.filter fun stage => stage.instruction.isSpawn) outcome.spawns ∧
      List.Forall₂ (Answers interp env)
        (stages.filter fun stage => stage.instruction.isCall) outcome.outputs ∧
      ∀ token, env.escrow ≠ interp.address → env.escrow ≠ env.relayer →
        (∀ stage ∈ stages, stage.paid interp env token env.escrow = 0) →
        CollisionFree
          ((interp.runEffects env program.instructions incoming s).flatMap Effect.identities ++
            [.balance token env.escrow]) →
        (Ledger.amountAt? t (Ledger.key token env.escrow)).map BitVec.toNat =
          (Ledger.amountAt? s (Ledger.key token env.escrow)).map fun before =>
            before.toNat + (outcome.spawns.map (SpawnRecord.sumOf fun asset =>
              env.host.assetHandle asset = some token)).sum := by
  intro stages
  have hdirect := Layers.execute_eq_ok_iff_run.mp hrun
  obtain ⟨⟨⟩, u, hreceive, hsteps⟩ := Script.run_bind_eq_ok.mp hdirect
  obtain ⟨hinstructions, parts, hparts, hspawns, houtputs⟩ := adds_of_run hdirect
  refine ⟨hinstructions, ?_, ?_, fun token hself hrelayer hpaid hsha => ?_⟩
  · rw [hspawns]
    exact forall₂_of_adds Adds.dispatches hparts
  · rw [houtputs]
    exact forall₂_of_adds Adds.answers hparts
  · have heffects : interp.runEffects env program.instructions incoming s =
        interp.receiveEffects env incoming ++ interp.stepsEffects env program.instructions u := by
      rw [runEffects, runStages, Script.after_of_ok hreceive, stepsEffects_eq_flatMap]
    have hleads : Effect.Leads (interp.runEffects env program.instructions incoming s) s t := by
      rw [heffects]
      exact Effect.leads_append.mpr ⟨u, leads_receive hreceive, leads_steps hcontract hsteps⟩
    have hdebited : ((interp.runEffects env program.instructions incoming s).map
        (Effect.debited token env.escrow)).sum = 0 := by
      rw [heffects, List.map_append, List.sum_append,
        (sum_receiveEffects hself hrelayer token incoming).2, sum_debited_stepsEffects hself]
    have halone := hsha.alone (fun _ => Effect.isEntry_of_mem_flatMap) List.mem_cons_self trivial
    rw [Effect.map_amountAt?_of_leads hleads halone hdebited,
      sum_runEffects hself hrelayer hparts hpaid, hspawns]

/-! ## A convoy -/

/-- A spawn that lists the one asset twice, each time with half of what is held. -/
def departure : Instruction := .spawn ⟨2⟩ [] 0 ⟨[], []⟩ [share 1 2, share 1 2]

/-- A program that is the one spawn. -/
def convoy : Program := ⟨[], [departure]⟩

/-- The record of the convoy, where five were held. -/
def convoyRecord : SpawnRecord :=
  { origin := courier.origin
    target := ⟨2⟩
    salt := []
    version := 0
    program := Program.toWire ⟨[], []⟩
    assets := [⟨0⟩, ⟨0⟩]
    amounts := [2, 1] }

/-- Two of the five are in escrow. -/
def halved : Store :=
  Ledger.setAmount (Ledger.setAmount loaded (Ledger.key .zero courier.address) 3)
    (Ledger.key .zero village.escrow) 2

/-- Three of the five are in escrow. -/
def unloaded : Store :=
  Ledger.setAmount (Ledger.setAmount halved (Ledger.key .zero courier.address) 2)
    (Ledger.key .zero village.escrow) 3

/-- The second half is half of what the first one leaves. -/
theorem run_withdraw_convoy :
    (courier.withdraw village village.escrow (share 1 2)).run loaded = .ok 2 halved ∧
      (courier.withdraw village village.escrow (share 1 2)).run halved = .ok 1 unloaded := by
  obtain ⟨⟨-, hrelayer, -⟩, hescrow, -⟩ := errand_keys
  have hhandle : village.host.assetHandle (share 1 2).asset = some .zero := rfl
  have hthree : Ledger.amountAt? halved (Ledger.key .zero courier.address) = some 3 := by
    rw [halved, Ledger.amountAt?_setAmount, if_neg hescrow.symm, Ledger.amountAt?_setAmount,
      if_pos rfl]
  have htwo : Ledger.amountAt? halved (Ledger.key .zero village.escrow) = some 2 := by
    rw [halved, Ledger.amountAt?_setAmount, if_pos rfl]
  exact ⟨run_withdraw_of_ne hescrow hhandle amountAt?_loaded_courier rfl (by decide)
      (amountAt?_loaded hrelayer hescrow) rfl,
    run_withdraw_of_ne hescrow hhandle hthree rfl (by decide) htwo rfl⟩

theorem run_step_departure :
    (courier.step village departure).run loaded = .ok (.spawned convoyRecord) unloaded := by
  obtain ⟨hfirst, hsecond⟩ := run_withdraw_convoy
  refine Script.run_bind_eq_ok.mpr ⟨[2, 1], unloaded, ?_, rfl⟩
  rw [List.mapM_cons, List.mapM_cons]
  refine Script.run_bind_eq_ok.mpr ⟨2, halved, hfirst, ?_⟩
  refine Script.run_bind_eq_ok.mpr ⟨[1], unloaded, ?_, rfl⟩
  exact Script.run_bind_eq_ok.mpr ⟨1, unloaded, hsecond, rfl⟩

theorem execute_convoy :
    courier.execute village convoy [(⟨0⟩, 5)] purse = .ok (.spawned convoyRecord) unloaded := by
  refine Layers.execute_eq_ok_iff_run.mpr ?_
  refine Script.run_bind_eq_ok.mpr ⟨(), loaded, run_receive_loaded, ?_⟩
  refine Script.run_bind_eq_ok.mpr ⟨.spawned convoyRecord, unloaded, ?_, rfl⟩
  exact Script.run_map_eq_ok.mpr ⟨_, run_step_departure, rfl⟩

theorem runStages_convoy :
    courier.runStages village convoy.instructions [(⟨0⟩, 5)] purse =
      [⟨departure, loaded⟩] := by
  rw [runStages, Script.after_of_ok run_receive_loaded, convoy, stages,
    Script.after_of_ok run_step_departure]
  rfl

theorem runEffects_convoy :
    courier.runEffects village convoy.instructions [(⟨0⟩, 5)] purse =
      [.move .zero village.relayer courier.address 5, .move .zero courier.address village.escrow 2,
        .move .zero courier.address village.escrow 1] := by
  obtain ⟨hfirst, hsecond⟩ := run_withdraw_convoy
  rw [runEffects, runStages_convoy, List.flatMap_singleton, Stage.effects, departure, stepEffects,
    payments, Script.after_of_ok hfirst, payments, Script.after_of_ok hsecond]
  rfl

/-- The record says two and one, and the escrow has three. -/
theorem execute_accounts_for_convoy :
    courier.execute village convoy [(⟨0⟩, 5)] purse = .ok (.spawned convoyRecord) unloaded ∧
      List.Forall₂ (Dispatches courier village)
        (courier.runStages village convoy.instructions [(⟨0⟩, 5)] purse) [convoyRecord] ∧
      (Ledger.amountAt? unloaded (Ledger.key .zero village.escrow)).map BitVec.toNat = some 3 := by
  obtain ⟨-, hdispatches, -, hgains⟩ :=
    execute_accounts_for_spawns (fun _ => rfl) execute_convoy
  have hpaid : ∀ stage ∈ courier.runStages village convoy.instructions [(⟨0⟩, 5)] purse,
      stage.paid courier village .zero village.escrow = 0 := by
    intro stage hstage
    rw [runStages_convoy] at hstage
    obtain rfl := List.mem_singleton.mp hstage
    rfl
  have hentries : (courier.runEffects village convoy.instructions [(⟨0⟩, 5)] purse).flatMap
      Effect.identities ++ [.balance .zero village.escrow] ⊆
        errandEntries ++ [Identity.balance .zero (resident 5)] := by
    rw [runEffects_convoy]
    simp [Effect.identities, errandEntries]
  have hsha := (collisionFree_of_nodup nodup_digest_errandEntries).mono hentries
  have hbefore : Ledger.amountAt? purse (Ledger.key .zero village.escrow) = some 0 :=
    amountAt?_purse errand_keys.1.2.1
  refine ⟨execute_convoy, ?_, ?_⟩
  · rw [runStages_convoy] at hdispatches ⊢
    exact hdispatches
  · rw [hgains .zero (by decide) (by decide) hpaid hsha, hbefore]
    rfl

end Interpreter

end Crossnet
