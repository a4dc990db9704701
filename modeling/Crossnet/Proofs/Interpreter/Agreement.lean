import Crossnet.Proofs.Effect.Commute
import Crossnet.Proofs.Interpreter.Composition
import Crossnet.Proofs.Interpreter.Footprint

/-!
# Programs that go the same way

How much a withdrawal moves and what a filled-in payload says is worked out from
what the interpreter holds of some assets; `consulted` lists these entries.  What
others hold decides whether a transfer ends well, and nothing else.  So two runs
that both end well, on storages with the same under the consulted entries, have
the same outcome and the same effects, however much the storages differ apart
from that.

* `payments_eq`, `stepEffects_call_eq`: portions and calls.
* `steps_agree`: **instructions have the same outcome and effects in both runs.**
-/

namespace Crossnet.Interpreter

/-! ## What is consulted -/

/-- The entry of what the interpreter holds of an asset. -/
def holding? (interp : Interpreter) (env : Environment) (asset : AssetId) : Option Identity :=
  (env.host.assetHandle asset).map (.balance · interp.address)

/-- The entries that an instruction's amounts or payload are worked out from. -/
def consultedByStep (interp : Interpreter) (env : Environment) : Instruction → List Identity
  | .transfer _ portions => portions.filterMap fun p => interp.holding? env p.asset
  | .call _ bindings =>
    bindings.filterMap fun b =>
      match b.value with
      | .assetAmount asset _ => interp.holding? env asset
      | _ => none
  | .spawn _ _ _ _ portions => portions.filterMap fun p => interp.holding? env p.asset

/-- The entries that the amounts and payloads of instructions are worked out from. -/
def consulted (interp : Interpreter) (env : Environment) (instructions : List Instruction) :
    List Identity :=
  instructions.flatMap (interp.consultedByStep env)

variable {interp : Interpreter} {env : Environment} {i : Identity}

/-- What is consulted is what the interpreter itself holds. -/
theorem eq_balance_of_consulted {instructions : List Instruction}
    (h : i ∈ interp.consulted env instructions) : ∃ token, i = .balance token interp.address := by
  have hholding : ∀ {asset}, interp.holding? env asset = some i →
      ∃ token, i = .balance token interp.address := by
    intro asset hasset
    obtain ⟨token, -, rfl⟩ := Option.map_eq_some_iff.mp hasset
    exact ⟨token, rfl⟩
  obtain ⟨step, -, hstep⟩ := List.mem_flatMap.mp h
  cases step with
  | transfer recipient portions =>
    obtain ⟨p, -, hp⟩ := List.mem_filterMap.mp hstep
    exact hholding hp
  | call payload bindings =>
    obtain ⟨b, -, hb⟩ := List.mem_filterMap.mp hstep
    split at hb
    · exact hholding hb
    · cases hb
  | spawn network salt version program portions =>
    obtain ⟨p, -, hp⟩ := List.mem_filterMap.mp hstep
    exact hholding hp

/-! ## Two runs -/

open Storage (AgreeOn)

variable {σ : Type} [Storage σ] [LawfulStorage σ] {s t s' t' : σ} {keys : Set Digest}

/-- Portions that are withdrawn in a row have the same amounts and effects in both runs. -/
theorem payments_eq {payee : Address} {portions : List Portion} {xs ys : List UInt128}
    (hkeys : ∀ p ∈ portions, ∀ i ∈ interp.holding? env p.asset, i.digest ∈ keys)
    (h : AgreeOn keys s t) (hs : (portions.mapM (interp.withdraw env payee)).run s = .ok xs s')
    (ht : (portions.mapM (interp.withdraw env payee)).run t = .ok ys t') :
    xs = ys ∧ interp.payments env payee portions s = interp.payments env payee portions t := by
  induction portions generalizing s t xs ys with
  | nil =>
    cases hs
    cases ht
    exact ⟨rfl, rfl⟩
  | cons p rest ih =>
    rw [List.mapM_cons] at hs ht
    obtain ⟨amount, u, hp, hnext⟩ := Script.run_bind_eq_ok.mp hs
    obtain ⟨amount', v, hp', hnext'⟩ := Script.run_bind_eq_ok.mp ht
    obtain ⟨others, _, hothers, hdone⟩ := Script.run_bind_eq_ok.mp hnext
    obtain ⟨others', _, hothers', hdone'⟩ := Script.run_bind_eq_ok.mp hnext'
    cases hdone
    cases hdone'
    obtain ⟨token, hquote, hpaid⟩ := run_withdraw_iff_quote.mp hp
    obtain ⟨token', hquote', hpaid'⟩ := run_withdraw_iff_quote.mp hp'
    have hwithin : (interp.quote env p).Within keys s := by
      refine within_quote fun found hfound => ?_
      refine hkeys p List.mem_cons_self (.balance found interp.address) ?_
      rw [holding?, hfound]
      rfl
    cases Script.eq_of_within hwithin h hquote hquote'
    have hmove : (Effect.move token interp.address payee amount).script.run s = .ok () u :=
      Script.run_mapError_eq_ok.mpr hpaid
    have hmove' : (Effect.move token interp.address payee amount).script.run t = .ok () v :=
      Script.run_mapError_eq_ok.mpr hpaid'
    have hafter : AgreeOn keys u v := fun key hkey =>
      Effect.get?_of_run_congr hmove hmove' (h key hkey)
    obtain ⟨hamounts, heffects⟩ :=
      ih (fun p hp => hkeys p (List.mem_cons_of_mem _ hp)) hafter hothers hothers'
    rw [payments, payments, Script.after_of_ok hp, Script.after_of_ok hp', hamounts, heffects]
    exact ⟨rfl, rfl⟩

/-- A call has the same effects in both runs, for its payload is the same. -/
theorem stepEffects_call_eq {payload : Bytes} {bindings : List Binding}
    (hkeys : ∀ i ∈ interp.consultedByStep env (.call payload bindings), i.digest ∈ keys)
    (h : AgreeOn keys s t) :
    interp.stepEffects env s (.call payload bindings) =
      interp.stepEffects env t (.call payload bindings) := by
  have hwithin : (resolvePayload (interp.liveValues env) payload bindings).Within keys s := by
    refine within_resolvePayload fun b hb asset share token hvalue hhandle => ?_
    refine hkeys (.balance token interp.address) (List.mem_filterMap.mpr ⟨b, hb, ?_⟩)
    rw [hvalue]
    dsimp only
    rw [holding?, hhandle]
    rfl
  rcases Script.run_of_within hwithin h with ⟨resolved, u, v, hu, hv, -⟩ | ⟨e, u, v, hu, hv, -⟩
  · simp only [stepEffects, ownerCall?, tokenCall?, hu, hv]
  · simp only [stepEffects, ownerCall?, tokenCall?, hu, hv]

section NoContracts

variable (hcontract : ∀ address, env.host.contract address = none)

include hcontract

omit [LawfulStorage σ] in
/-- A call of the interpreter or of a token answers nothing. -/
theorem output_of_call {payload output : Bytes} {bindings : List Binding}
    (h : (interp.call env payload bindings).run s = .ok output s') : output = [] := by
  obtain ⟨resolved, callee, -, -, ⟨-, -, change, -, -, houtput⟩ |
    ⟨-, -, payee, amount, -, -, houtput⟩ | ⟨-, -, contract, hfound, -⟩⟩ := run_call_eq_ok h
  · exact houtput
  · exact houtput
  · rw [hcontract] at hfound
    cases hfound

theorem step_agree {step : Instruction} {x y : Outcome}
    (hkeys : ∀ i ∈ interp.consultedByStep env step, i.digest ∈ keys) (h : AgreeOn keys s t)
    (hs : (interp.step env step).run s = .ok x s') (ht : (interp.step env step).run t = .ok y t') :
    x = y ∧ interp.stepEffects env s step = interp.stepEffects env t step := by
  cases step with
  | transfer recipient portions =>
    have hportions : ∀ p ∈ portions, ∀ i ∈ interp.holding? env p.asset, i.digest ∈ keys :=
      fun p hp i hi => hkeys i (List.mem_filterMap.mpr ⟨p, hp, hi⟩)
    obtain ⟨xs, u, hpay, hdone⟩ := Script.run_bind_eq_ok.mp hs
    obtain ⟨ys, v, hpay', hdone'⟩ := Script.run_bind_eq_ok.mp ht
    cases hdone
    cases hdone'
    exact ⟨rfl, (payments_eq hportions h hpay hpay').2⟩
  | call payload bindings =>
    obtain ⟨output, u, hcall, hdone⟩ := Script.run_bind_eq_ok.mp hs
    obtain ⟨output', v, hcall', hdone'⟩ := Script.run_bind_eq_ok.mp ht
    cases hdone
    cases hdone'
    rw [output_of_call hcontract hcall, output_of_call hcontract hcall']
    exact ⟨rfl, stepEffects_call_eq hkeys h⟩
  | spawn network salt version program portions =>
    have hportions : ∀ p ∈ portions, ∀ i ∈ interp.holding? env p.asset, i.digest ∈ keys :=
      fun p hp i hi => hkeys i (List.mem_filterMap.mpr ⟨p, hp, hi⟩)
    obtain ⟨xs, u, hpay, hdone⟩ := Script.run_bind_eq_ok.mp hs
    obtain ⟨ys, v, hpay', hdone'⟩ := Script.run_bind_eq_ok.mp ht
    cases hdone
    cases hdone'
    obtain ⟨hamounts, heffects⟩ := payments_eq hportions h hpay hpay'
    rw [hamounts]
    exact ⟨rfl, heffects⟩

/-- **Instructions have the same outcome and effects in both runs.** -/
theorem steps_agree {instructions : List Instruction} {outcome x y : Outcome}
    (hkeys : ∀ i ∈ interp.consulted env instructions, i.digest ∈ keys) (h : AgreeOn keys s t)
    (hs : (interp.steps env instructions outcome).run s = .ok x s')
    (ht : (interp.steps env instructions outcome).run t = .ok y t') :
    x = y ∧ interp.stepsEffects env instructions s = interp.stepsEffects env instructions t := by
  induction instructions generalizing s t outcome with
  | nil =>
    cases hs
    cases ht
    exact ⟨rfl, rfl⟩
  | cons i rest ih =>
    rw [consulted, List.flatMap_cons] at hkeys
    rw [steps_cons] at hs ht
    obtain ⟨added, u, hstep, hrest⟩ := Script.run_bind_eq_ok.mp hs
    obtain ⟨added', v, hstep', hrest'⟩ := Script.run_bind_eq_ok.mp ht
    obtain ⟨hadded, heffects⟩ := step_agree hcontract
      (fun i hi => hkeys i (List.mem_append_left _ hi)) h hstep hstep'
    -- Both steps have the same effects, so the storages still agree for the rest.
    have hleads := leads_step hcontract hstep
    have hleads' := leads_step hcontract hstep'
    rw [← heffects] at hleads'
    rw [← hadded] at hrest'
    obtain ⟨houtcome, hlater⟩ := ih (fun i hi => hkeys i (List.mem_append_right _ hi))
      (Effect.agreeOn_of_leads hleads hleads' h) hrest hrest'
    rw [stepsEffects, stepsEffects, Script.after_of_ok hstep, Script.after_of_ok hstep', heffects,
      hlater]
    exact ⟨houtcome, rfl⟩

end NoContracts

end Crossnet.Interpreter
