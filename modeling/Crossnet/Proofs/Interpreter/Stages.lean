import Mathlib.Data.List.Forall2
import Crossnet.Proofs.Interpreter.Effects

/-!
# Runs, stage by stage

A run that ends well is a row of stages: each instruction with the storage that
those before it leave.  A stage adds its part to the outcome, and what the part is
is said once for each kind of instruction: a spawn adds a record, with the amounts
that its withdrawals took from the interpreter, and a call adds an answer.

* `Withdraws`: withdrawals in a row, and what each takes and gives.
* `Stage.Dispatches`, `Stage.Answers`: the record of a spawn and the answer of a
  call.
* `Stage.adds_of_step`: what an instruction adds, one case for each kind.
* `adds_of_run`: **the outcome of a run is made of the parts of its stages**, and
  every instruction is one.
* `stepsEffects_eq_flatMap`: the effects of a run are the effects of its stages.
-/

namespace Crossnet

namespace Instruction

/-- The program that a spawn sends. -/
def spawned? : Instruction → Option Program
  | .spawn _ _ _ program _ => some program
  | _ => none

/-- Whether the instruction is a spawn. -/
def isSpawn (i : Instruction) : Bool := i.spawned?.isSome

/-- Whether the instruction is a call. -/
def isCall : Instruction → Bool
  | .call _ _ => true
  | _ => false

end Instruction

/-- An instruction of a run, and the storage that it finds. -/
structure Stage (σ : Type) where
  instruction : Instruction
  storage : σ

namespace Interpreter

variable {σ : Type} [Storage σ] {s t : σ} {interp : Interpreter} {env : Environment}

/-! ## Withdrawals in a row -/

variable (interp env) in
/-- Portions are withdrawn in a row.  The answer of each withdrawal is the amount that it takes
from what the interpreter holds at that time and then gives to the payee. -/
inductive Withdraws (payee : Address) : List Portion → List UInt128 → σ → σ → Prop
  | nil {s : σ} : Withdraws payee [] [] s s
  | cons {p : Portion} {rest : List Portion} {amount held : UInt128} {amounts : List UInt128}
      {token : Address} {s u t : σ}
      (hanswer : (interp.withdraw env payee p).run s = .ok amount u)
      (hhandle : env.host.assetHandle p.asset = some token)
      (hheld : Ledger.amountAt? s (Ledger.key token interp.address) = some held)
      (hle : amount ≤ held)
      (hgiven : (Ledger.credit token payee amount).run
        (Ledger.setAmount s (Ledger.key token interp.address) (held - amount)) = .ok () u)
      (hrest : Withdraws payee rest amounts u t) :
      Withdraws payee (p :: rest) (amount :: amounts) s t

theorem withdraws_of_run {payee : Address} {portions : List Portion} {amounts : List UInt128}
    (h : (portions.mapM (interp.withdraw env payee)).run s = .ok amounts t) :
    Withdraws interp env payee portions amounts s t := by
  induction portions generalizing s amounts with
  | nil =>
    cases h
    exact .nil
  | cons p rest ih =>
    rw [List.mapM_cons] at h
    obtain ⟨amount, u, hp, hnext⟩ := Script.run_bind_eq_ok.mp h
    obtain ⟨others, v, hothers, hdone⟩ := Script.run_bind_eq_ok.mp hnext
    cases hdone
    obtain ⟨token, -, hhandle, -, -, hmove⟩ := run_withdraw_eq_ok hp
    obtain ⟨w, hdebit, hcredit⟩ := Ledger.run_transfer_eq_ok.mp hmove
    obtain ⟨held, hheld, hle, rfl⟩ := Ledger.run_debit_eq_ok.mp hdebit
    exact .cons hp hhandle hheld hle hcredit (ih hothers)

theorem Withdraws.length_eq {payee : Address} {portions : List Portion} {amounts : List UInt128}
    (h : Withdraws interp env payee portions amounts s t) : amounts.length = portions.length := by
  induction h with
  | nil => rfl
  | cons _ _ _ _ _ _ ih => exact congrArg (· + 1) ih

/-! ## Stages -/

/-- The instructions that end well, each with the storage that it finds. -/
def stages (interp : Interpreter) (env : Environment) : List Instruction → σ → List (Stage σ)
  | [], _ => []
  | i :: rest, s =>
    (interp.step env i).after s fun _ t => ⟨i, s⟩ :: stages interp env rest t

/-- The stages of a run.  The incoming assets are there before the first of them. -/
def runStages (interp : Interpreter) (env : Environment) (instructions : List Instruction)
    (incoming : List (AssetId × UInt128)) (s : σ) : List (Stage σ) :=
  (interp.receive env incoming).after s fun _ u => interp.stages env instructions u

end Interpreter

namespace Stage

open Interpreter (Withdraws)

variable {σ : Type} [Storage σ] {interp : Interpreter} {env : Environment} {stage : Stage σ}
  {part : Outcome}

section

variable (interp : Interpreter) (env : Environment)

/-- The stage ends well, and this is its part of the outcome: nothing, an answer or a record. -/
inductive Adds : Stage σ → Outcome → Prop
  | transfer {recipient : Recipient} {portions : List Portion} {amounts : List UInt128} {s t : σ}
      (hpay : (portions.mapM (interp.withdraw env (interp.payee env recipient))).run s =
        .ok amounts t) :
      Adds ⟨.transfer recipient portions, s⟩ .empty
  | call {payload output : Bytes} {bindings : List Binding} {s t : σ}
      (hcall : (interp.call env payload bindings).run s = .ok output t) :
      Adds ⟨.call payload bindings, s⟩ (.answered output)
  | spawn {network : NetworkId} {salt : Bytes} {version : UInt32} {program : Program}
      {portions : List Portion} {amounts : List UInt128} {s t : σ}
      (hpay : (portions.mapM (interp.withdraw env env.escrow)).run s = .ok amounts t) :
      Adds ⟨.spawn network salt version program portions, s⟩ <| .spawned
        { origin := interp.origin
          target := network
          salt := salt
          version := version
          program := program.toWire
          assets := portions.map Portion.asset
          amounts := amounts }

/-- The effects of the stage. -/
def effects (stage : Stage σ) : List Effect :=
  interp.stepEffects env stage.storage stage.instruction

/-- The record that a spawn leaves: the data of the spawn, and the amounts that its withdrawals took
from the interpreter. -/
inductive Dispatches : Stage σ → SpawnRecord → Prop
  | spawn {network : NetworkId} {salt : Bytes} {version : UInt32} {program : Program}
      {portions : List Portion} {amounts : List UInt128} {s t : σ}
      (htaken : Withdraws interp env env.escrow portions amounts s t) :
      Dispatches ⟨.spawn network salt version program portions, s⟩
        { origin := interp.origin
          target := network
          salt := salt
          version := version
          program := program.toWire
          assets := portions.map Portion.asset
          amounts := amounts }

/-- The answer of a call. -/
inductive Answers : Stage σ → Bytes → Prop
  | call {payload output : Bytes} {bindings : List Binding} {s t : σ}
      (hcall : (interp.call env payload bindings).run s = .ok output t) :
      Answers ⟨.call payload bindings, s⟩ output

end

/-- An instruction that ends well adds its part. -/
theorem adds_of_step {i : Instruction} {s t : σ} (h : (interp.step env i).run s = .ok part t) :
    Adds interp env ⟨i, s⟩ part := by
  cases i with
  | transfer recipient portions =>
    obtain ⟨amounts, u, hpay, hdone⟩ := Script.run_bind_eq_ok.mp h
    cases hdone
    exact .transfer hpay
  | call payload bindings =>
    obtain ⟨output, u, hcall, hdone⟩ := Script.run_bind_eq_ok.mp h
    cases hdone
    exact .call hcall
  | spawn network salt version program portions =>
    obtain ⟨amounts, u, hpay, hdone⟩ := Script.run_bind_eq_ok.mp h
    cases hdone
    exact .spawn hpay

/-- A stage adds the record of its spawn, if it is one. -/
theorem Adds.dispatches (h : stage.Adds interp env part) :
    List.Forall₂ (Dispatches interp env) ([stage].filter fun stage => stage.instruction.isSpawn)
      part.spawns := by
  cases h with
  | transfer => exact .nil
  | call => exact .nil
  | spawn hpay => exact .cons (.spawn (Interpreter.withdraws_of_run hpay)) .nil

/-- A stage adds the answer of its call, if it is one. -/
theorem Adds.answers (h : stage.Adds interp env part) :
    List.Forall₂ (Answers interp env) ([stage].filter fun stage => stage.instruction.isCall)
      part.outputs := by
  cases h with
  | transfer => exact .nil
  | call hcall => exact .cons (.call hcall) .nil
  | spawn => exact .nil

end Stage

namespace Interpreter

open Stage (Adds Dispatches Answers)

variable {σ : Type} [Storage σ] {s t : σ} {interp : Interpreter} {env : Environment}

/-! ## The parts of an outcome -/

/-- Instructions that end well add the parts of their stages to the outcome. -/
theorem adds_of_steps {instructions : List Instruction} {outcome last : Outcome}
    (h : (interp.steps env instructions outcome).run s = .ok last t) :
    (interp.stages env instructions s).map Stage.instruction = instructions ∧
      ∃ parts, List.Forall₂ (Adds interp env) (interp.stages env instructions s) parts ∧
        last.spawns = outcome.spawns ++ parts.flatMap Outcome.spawns ∧
        last.outputs = outcome.outputs ++ parts.flatMap Outcome.outputs := by
  induction instructions generalizing s outcome with
  | nil =>
    cases h
    exact ⟨rfl, [], .nil, (List.append_nil _).symm, (List.append_nil _).symm⟩
  | cons i rest ih =>
    rw [steps, List.foldlM_cons] at h
    obtain ⟨next, u, hmap, hrest⟩ := Script.run_bind_eq_ok.mp h
    obtain ⟨part, hstep, rfl⟩ := Script.run_map_eq_ok.mp hmap
    obtain ⟨hinstructions, parts, hparts, hspawns, houtputs⟩ := ih hrest
    rw [stages, Script.after_of_ok hstep]
    refine ⟨congrArg (i :: ·) hinstructions, part :: parts,
      .cons (Stage.adds_of_step hstep) hparts, ?_, ?_⟩
    · rw [hspawns]
      exact List.append_assoc _ _ _
    · rw [houtputs]
      exact List.append_assoc _ _ _

/-- What each stage adds to a list of its kind, all stages add together. -/
theorem forall₂_of_adds {β : Type} {R : Stage σ → β → Prop} {kind : Stage σ → Bool}
    {field : Outcome → List β}
    (hone : ∀ {stage part}, stage.Adds interp env part →
      List.Forall₂ R ([stage].filter kind) (field part))
    {stages : List (Stage σ)} {parts : List Outcome}
    (h : List.Forall₂ (Adds interp env) stages parts) :
    List.Forall₂ R (stages.filter kind) (parts.flatMap field) := by
  induction h with
  | nil => exact .nil
  | cons hadds _ ih =>
    rw [← List.singleton_append, List.filter_append, List.flatMap_cons]
    exact List.rel_append (hone hadds) ih

/-- **The outcome of a run is made of the parts of its stages**, and every instruction is one. -/
theorem adds_of_run {instructions : List Instruction} {incoming : List (AssetId × UInt128)}
    {outcome : Outcome} (h : (interp.run env instructions incoming).run s = .ok outcome t) :
    (interp.runStages env instructions incoming s).map Stage.instruction = instructions ∧
      ∃ parts,
        List.Forall₂ (Adds interp env) (interp.runStages env instructions incoming s) parts ∧
        outcome.spawns = parts.flatMap Outcome.spawns ∧
        outcome.outputs = parts.flatMap Outcome.outputs := by
  obtain ⟨⟨⟩, u, hreceive, hsteps⟩ := Script.run_bind_eq_ok.mp h
  rw [runStages, Script.after_of_ok hreceive]
  exact adds_of_steps hsteps

/-- The effects of instructions are the effects of their stages. -/
theorem stepsEffects_eq_flatMap (instructions : List Instruction) :
    interp.stepsEffects env instructions s =
      (interp.stages env instructions s).flatMap (Stage.effects interp env) := by
  induction instructions generalizing s with
  | nil => rfl
  | cons i rest ih =>
    rw [stepsEffects, stages]
    cases hstep : (interp.step env i).run s with
    | ok part u =>
      rw [Script.after_of_ok hstep, Script.after_of_ok hstep, List.flatMap_cons, ih]
      rfl
    | error e u =>
      rw [Script.after, Script.after, hstep]
      rfl

end Interpreter

end Crossnet
