import Crossnet.Proofs.Interpreter.Stages

/-!
# What spawns put into escrow

The record of a spawn says how much of each asset the spawn put into escrow.
The effects of the run say how much the escrow was given of a token.  Where the
assets of a token are known, the two can be compared: each record is paid for by
the withdrawals of its spawn, and whatever else pays the escrow only adds to it.

* `sum_credited_payments`: portions that are paid give what the withdrawals
  answer.
* `sum_credited_of_stages`: **the escrow is given what the records say and what is
  paid besides.**
* `sum_spawns_le_credited`: the escrow is given at least what the records of a run
  say.
-/

namespace Crossnet

namespace SpawnRecord

/-- How much the record holds of the assets that count. -/
def sumOf (counts : AssetId → Bool) (record : SpawnRecord) : Nat :=
  ((record.assets.zip record.amounts).map fun (asset, amount) =>
    if counts asset then amount.toNat else 0).sum

/-- How much the record holds of an asset. -/
def amountOf (asset : AssetId) (record : SpawnRecord) : Nat :=
  record.sumOf fun a => a = asset

end SpawnRecord

/-- What a stage gives a holder of a token, spawns apart. -/
def Stage.paid {σ : Type} [Storage σ] (interp : Interpreter) (env : Environment)
    (token holder : Address) (stage : Stage σ) : Nat :=
  if stage.instruction.isSpawn then 0
  else ((stage.effects interp env).map (Effect.credited token holder)).sum

namespace Interpreter

variable {σ : Type} [Storage σ] {s t : σ} {interp : Interpreter} {env : Environment}
  {token : Address} {counts : AssetId → Bool}

section Counts

variable (hcounts : ∀ {asset found}, env.host.assetHandle asset = some found →
  (found = token ↔ counts asset = true))

include hcounts

/-- Portions that are paid give the payee what the withdrawals answer. -/
theorem sum_credited_payments {payee : Address} {portions : List Portion}
    {amounts : List UInt128} (h : Withdraws interp env payee portions amounts s t) :
    ((interp.payments env payee portions s).map (Effect.credited token payee)).sum =
      (((portions.map Portion.asset).zip amounts).map fun (asset, amount) =>
        if counts asset then amount.toNat else 0).sum := by
  induction h with
  | nil => rfl
  | @cons p rest amount held amounts found s u t hanswer hhandle hheld hle hgiven hrest ih =>
    have hfirst : (Effect.move found interp.address payee amount).credited token payee =
        if counts p.asset then amount.toNat else 0 := by
      simp only [Effect.credited, and_true, hcounts hhandle]
    rw [payments, Script.after_of_ok hanswer, hhandle]
    show (Effect.move found interp.address payee amount).credited token payee +
      ((interp.payments env payee rest u).map (Effect.credited token payee)).sum = _
    rw [hfirst, ih]
    rfl

/-- A stage gives the escrow what its record says, or what it pays. -/
theorem sum_credited_of_stage {stage : Stage σ} {part : Outcome} (h : stage.Adds interp env part) :
    ((stage.effects interp env).map (Effect.credited token env.escrow)).sum =
      (part.spawns.map (SpawnRecord.sumOf counts)).sum +
        stage.paid interp env token env.escrow := by
  cases h with
  | transfer => exact (Nat.zero_add _).symm
  | call => exact (Nat.zero_add _).symm
  | spawn hpay => exact sum_credited_payments hcounts (withdraws_of_run hpay)

/-- **The escrow is given what the records say and what is paid besides.** -/
theorem sum_credited_of_stages {stages : List (Stage σ)} {parts : List Outcome}
    (h : List.Forall₂ (Stage.Adds interp env) stages parts) :
    ((stages.flatMap (Stage.effects interp env)).map (Effect.credited token env.escrow)).sum =
      ((parts.flatMap Outcome.spawns).map (SpawnRecord.sumOf counts)).sum +
        (stages.map (Stage.paid interp env token env.escrow)).sum := by
  induction h with
  | nil => rfl
  | cons hadds _ ih =>
    have hfirst := sum_credited_of_stage hcounts hadds
    simp only [List.flatMap_cons, List.map_append, List.sum_append, List.map_cons, List.sum_cons]
    omega

/-- The escrow is given at least what the records of a run say. -/
theorem sum_spawns_le_credited {instructions : List Instruction} {outcome last : Outcome}
    (h : (interp.steps env instructions outcome).run s = .ok last t) :
    (last.spawns.map (SpawnRecord.sumOf counts)).sum ≤
      (outcome.spawns.map (SpawnRecord.sumOf counts)).sum +
        ((interp.stepsEffects env instructions s).map (Effect.credited token env.escrow)).sum := by
  obtain ⟨-, parts, hparts, hspawns, -⟩ := adds_of_steps h
  have hcredited := sum_credited_of_stages hcounts hparts
  rw [stepsEffects_eq_flatMap, hspawns, List.map_append, List.sum_append]
  omega

end Counts

end Interpreter

end Crossnet
