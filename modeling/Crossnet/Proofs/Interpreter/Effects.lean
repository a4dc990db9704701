import Crossnet.Interpreter
import Crossnet.Proofs.Binding.Splice
import Crossnet.Proofs.Effect

/-!
# The effects of a program

What a program does to storage depends on what it reads there, so its effects
are listed by running it, instruction after instruction.  Where no contract can
be called, a run that ends well does these effects and nothing else.

* `run_withdraw_eq_ok`, `run_call_eq_ok`: what a withdrawal and a call do when
  they end well.
* `leads_steps`, `leads_receive`: **a run that ends well leads where its effects
  lead.**
* `debited_of_mem_stepsEffects`: **instructions take from the interpreter alone.**
* `filterMap_stepsEffects`: the changes of owners among the effects are the owner
  calls.
-/

namespace Crossnet

namespace Script

variable {ε α β σ : Type} [Storage σ]

/-- What comes of a run that ends well; nothing comes of another. -/
def after (script : Script ε α) (s : σ) (next : α → σ → List β) : List β :=
  match script.run s with
  | .ok a t => next a t
  | .error _ _ => []

theorem after_of_ok {script : Script ε α} {s t : σ} {a : α} (h : script.run s = .ok a t)
    (next : α → σ → List β) : script.after s next = next a t := by
  rw [after, h]

theorem mem_after {script : Script ε α} {s : σ} {next : α → σ → List β} {b : β}
    (h : b ∈ script.after s next) : ∃ a t, script.run s = .ok a t ∧ b ∈ next a t := by
  unfold after at h
  cases hrun : script.run s with
  | ok a t =>
    rw [hrun] at h
    exact ⟨a, t, rfl, h⟩
  | error e t =>
    rw [hrun] at h
    cases h

end Script

namespace Interpreter

variable {σ : Type} [Storage σ]

/-! ## Effects, by running -/

/-- The moves of portions that are withdrawn in a row. -/
def payments (interp : Interpreter) (env : Environment) (payee : Address) :
    List Portion → σ → List Effect
  | [], _ => []
  | p :: rest, s =>
    (interp.withdraw env payee p).after s fun amount t =>
      ((env.host.assetHandle p.asset).map
        fun token => .move token interp.address payee amount).toList ++
          payments interp env payee rest t

/-- The owner call that an instruction makes: a call that binds the interpreter's address to the
begin of its payload, where the bytes behind the address are an owner call. -/
def ownerCall? (interp : Interpreter) (env : Environment) (s : σ) :
    Instruction → Option OwnerCall
  | .call payload bindings =>
    if bindsSelf bindings then
      match (resolvePayload (interp.liveValues env) payload bindings).run s with
      | .ok resolved _ => (Wire.decode (resolved.drop Address.size)).toOption
      | .error _ _ => none
    else none
  | _ => none

/-- What an instruction calls besides the interpreter, and with which token call. -/
def tokenCall? (interp : Interpreter) (env : Environment) (s : σ) :
    Instruction → Option (Address × TokenCall)
  | .call payload bindings =>
    match (resolvePayload (interp.liveValues env) payload bindings).run s with
    | .ok resolved _ =>
      match Address.ofFront? resolved with
      | some callee =>
        if callee = interp.address then none
        else (Wire.decode (resolved.drop Address.size)).toOption.map (callee, ·)
      | none => none
    | .error _ _ => none
  | _ => none

/-- The effects of an instruction. -/
def stepEffects (interp : Interpreter) (env : Environment) (s : σ) :
    Instruction → List Effect
  | .transfer recipient portions =>
    interp.payments env (interp.payee env recipient) portions s
  | .call payload bindings =>
    ((interp.ownerCall? env s (.call payload bindings)).map (.manage interp.address)).toList ++
      ((interp.tokenCall? env s (.call payload bindings)).map fun (token, .transfer payee amount) =>
        .move token interp.address payee amount).toList
  | .spawn _ _ _ _ portions => interp.payments env env.escrow portions s

/-- The effects of instructions in a row. -/
def stepsEffects (interp : Interpreter) (env : Environment) : List Instruction → σ → List Effect
  | [], _ => []
  | i :: rest, s =>
    (interp.step env i).after s fun _ t =>
      interp.stepEffects env s i ++ stepsEffects interp env rest t

/-- The owner calls of instructions in a row. -/
def ownerCalls (interp : Interpreter) (env : Environment) : List Instruction → σ → List OwnerCall
  | [], _ => []
  | i :: rest, s =>
    (interp.step env i).after s fun _ t =>
      (interp.ownerCall? env s i).toList ++ ownerCalls interp env rest t

/-- The moves of incoming assets. -/
def receiveEffects (interp : Interpreter) (env : Environment)
    (incoming : List (AssetId × UInt128)) : List Effect :=
  incoming.filterMap fun (asset, amount) =>
    (env.host.assetHandle asset).map fun token =>
      .move token env.relayer interp.address amount

/-! ## What runs do -/

variable {interp : Interpreter} {env : Environment} {s t : σ}

theorem run_token_eq_ok {asset : AssetId} {token : Address} :
    (Interpreter.token env asset).run s = .ok token t ↔
      env.host.assetHandle asset = some token ∧ t = s := by
  unfold Interpreter.token
  cases env.host.assetHandle asset with
  | some found => simp [and_comm]
  | none => simp

theorem run_held_reads {asset : AssetId} {amount : UInt128}
    (h : ((interp.liveValues env).held asset).run s = .ok amount t) : t = s := by
  obtain ⟨token, u, htoken, hread⟩ := Script.run_bind_eq_ok.mp h
  obtain ⟨-, rfl⟩ := run_token_eq_ok.mp htoken
  exact (Ledger.run_readAt_eq_ok.mp (Script.run_mapError_eq_ok.mp hread)).1

theorem run_readCall_eq_ok {α : Type} [Wire α] {callee : Address} {calldata : Bytes} {call : α} :
    (readCall callee calldata : Script ExecutionError α).run s = .ok call t ↔
      Wire.decode calldata = .ok call ∧ t = s := by
  unfold readCall
  cases (Wire.decode calldata : Except DecodeError α) with
  | ok found => simp [and_comm]
  | error e => simp

/-- A withdrawal that ends well is a transfer of the amount it answers, which is held. -/
theorem run_withdraw_eq_ok {payee : Address} {p : Portion} {amount : UInt128}
    (h : (interp.withdraw env payee p).run s = .ok amount t) :
    ∃ token held, env.host.assetHandle p.asset = some token ∧
      Ledger.amountAt? s (Ledger.key token interp.address) = some held ∧ amount ≤ held ∧
      (Ledger.transfer token interp.address payee amount).run s = .ok () t := by
  unfold withdraw at h
  obtain ⟨token, u, htoken, hnext⟩ := Script.run_bind_eq_ok.mp h
  obtain ⟨hhandle, rfl⟩ := run_token_eq_ok.mp htoken
  obtain ⟨held, v, hread, hrest⟩ := Script.run_bind_eq_ok.mp hnext
  obtain ⟨rfl, hheld⟩ := Ledger.run_readAt_eq_ok.mp (Script.run_mapError_eq_ok.mp hread)
  have hpay : ∀ a, (if held < a then
      (throw (.insufficientBalance p.asset a held) : Script ExecutionError Unit) >>= fun _ =>
        onLedger (Ledger.transfer token interp.address payee a) >>= fun _ => pure a
      else onLedger (Ledger.transfer token interp.address payee a) >>= fun _ => pure a).run v =
        .ok amount t →
      amount ≤ held ∧ (Ledger.transfer token interp.address payee amount).run v = .ok () t := by
    intro a ha
    obtain ⟨hlt, hthen⟩ := Script.run_check_eq_ok.mp ha
    obtain ⟨⟨⟩, w, hmove, hdone⟩ := Script.run_bind_eq_ok.mp hthen
    cases hdone
    exact ⟨BitVec.not_lt.mp hlt, Script.run_mapError_eq_ok.mp hmove⟩
  refine ⟨token, held, hhandle, hheld, ?_⟩
  cases hamount : p.selector.amount held env.unitScale with
  | ok a =>
    rw [hamount] at hrest
    exact hpay a hrest
  | error e =>
    rw [hamount] at hrest
    cases e with
    | overflow => exact hpay UInt128.max hrest
    | zeroDenominator => cases hrest

/-- A call that ends well changes the interpreter's owners, moves what a token call says, or runs a
contract. -/
theorem run_call_eq_ok {payload output : Bytes} {bindings : List Binding}
    (h : (interp.call env payload bindings).run s = .ok output t) :
    ∃ resolved callee, (resolvePayload (interp.liveValues env) payload bindings).run s =
        .ok resolved s ∧ Address.ofFront? resolved = some callee ∧
      ((callee = interp.address ∧ bindsSelf bindings = true ∧
          ∃ change, Wire.decode (resolved.drop Address.size) = .ok change ∧
            (Owners.apply interp.address interp.address change).run s = .ok () t ∧
            output = []) ∨
        (callee ≠ interp.address ∧ env.host.isToken callee = true ∧
          ∃ payee amount,
            Wire.decode (resolved.drop Address.size) = .ok (TokenCall.transfer payee amount) ∧
            (Ledger.transfer callee interp.address payee amount).run s = .ok () t ∧
            output = []) ∨
        (callee ≠ interp.address ∧ env.host.isToken callee = false ∧
          ∃ contract, env.host.contract callee = some contract ∧
            (contract interp.address (resolved.drop Address.size)).run s = .ok output t)) := by
  unfold call at h
  obtain ⟨resolved, u, hresolve, hcall⟩ := Script.run_bind_eq_ok.mp h
  obtain ⟨rfl, -⟩ := run_resolvePayload_eq_ok (fun _ _ _ h => run_held_reads h) hresolve
  cases hfront : Address.ofFront? resolved with
  | none =>
    rw [hfront] at hcall
    cases hcall
  | some callee =>
    rw [hfront] at hcall
    refine ⟨resolved, callee, hresolve, hfront, ?_⟩
    dsimp only at hcall
    by_cases hself : callee = interp.address
    · rw [if_pos hself] at hcall
      obtain ⟨hbinds, hmanage⟩ := Script.run_check_eq_ok.mp hcall
      obtain ⟨change, v, hread, hrest⟩ := Script.run_bind_eq_ok.mp hmanage
      obtain ⟨hdecode, rfl⟩ := run_readCall_eq_ok.mp hread
      obtain ⟨⟨⟩, w, happly, hdone⟩ := Script.run_bind_eq_ok.mp hrest
      cases hdone
      exact .inl ⟨hself, by simpa using hbinds, change, hdecode, happly, rfl⟩
    · rw [if_neg hself] at hcall
      cases htoken : env.host.isToken callee with
      | true =>
        rw [if_pos htoken] at hcall
        obtain ⟨⟨payee, amount⟩, v, hread, hrest⟩ := Script.run_bind_eq_ok.mp hcall
        obtain ⟨hdecode, rfl⟩ := run_readCall_eq_ok.mp hread
        obtain ⟨⟨⟩, w, hmove, hdone⟩ := Script.run_bind_eq_ok.mp hrest
        cases hdone
        have htransfer := Script.run_mapError_eq_ok.mp hmove
        exact .inr (.inl ⟨hself, rfl, payee, amount, hdecode, htransfer, rfl⟩)
      | false =>
        rw [htoken, if_neg Bool.false_ne_true] at hcall
        cases hcontract : env.host.contract callee with
        | none =>
          rw [hcontract] at hcall
          cases hcall
        | some contract =>
          rw [hcontract] at hcall
          exact .inr (.inr ⟨hself, rfl, contract, rfl, hcall⟩)

/-! ## Where runs lead -/

open Effect (Leads)

theorem leads_payments {payee : Address} {portions : List Portion} {amounts : List UInt128}
    (h : (portions.mapM (interp.withdraw env payee)).run s = .ok amounts t) :
    Leads (interp.payments env payee portions s) s t := by
  induction portions generalizing s amounts with
  | nil =>
    cases h
    rfl
  | cons p rest ih =>
    rw [List.mapM_cons] at h
    obtain ⟨amount, u, hp, hnext⟩ := Script.run_bind_eq_ok.mp h
    obtain ⟨others, v, hothers, hdone⟩ := Script.run_bind_eq_ok.mp hnext
    cases hdone
    obtain ⟨token, held, hhandle, -, -, hmove⟩ := run_withdraw_eq_ok hp
    rw [payments, Script.after_of_ok hp, hhandle]
    exact ⟨u, Script.run_mapError_eq_ok.mpr hmove, ih hothers⟩

/-- A binding of the interpreter's address to the begin makes the interpreter the callee. -/
theorem callee_of_bindsSelf {payload resolved : Bytes} {bindings : List Binding}
    (h : (resolvePayload (interp.liveValues env) payload bindings).run s = .ok resolved s)
    (hself : bindsSelf bindings = true) : Address.ofFront? resolved = some interp.address := by
  obtain ⟨b, hb, hvalue⟩ := List.any_eq_true.mp hself
  rw [Bool.and_eq_true, decide_eq_true_eq, decide_eq_true_eq] at hvalue
  exact resolvePayload_self (fun _ _ _ h => run_held_reads h) h hb hvalue.1 hvalue.2

section NoContracts

variable (hcontract : ∀ address, env.host.contract address = none)

include hcontract

theorem leads_call {payload output : Bytes} {bindings : List Binding}
    (h : (interp.call env payload bindings).run s = .ok output t) :
    Leads (interp.stepEffects env s (.call payload bindings)) s t := by
  obtain ⟨resolved, callee, hresolve, hfront, ⟨hself, hbinds, change, hdecode, happly, -⟩ |
    ⟨hself, -, payee, amount, hdecode, hmove, -⟩ | ⟨-, -, contract, hfound, -⟩⟩ :=
      run_call_eq_ok h
  · have howner : interp.ownerCall? env s (.call payload bindings) = some change := by
      simp only [ownerCall?, if_pos hbinds, hresolve, hdecode, Except.toOption]
    have htoken : interp.tokenCall? env s (.call payload bindings) = none := by
      simp only [tokenCall?, hresolve, hfront, if_pos hself]
    rw [stepEffects, howner, htoken]
    exact Effect.leads_singleton.mpr happly
  · have hbinds : ¬bindsSelf bindings = true := by
      intro hbinds
      rw [callee_of_bindsSelf hresolve hbinds] at hfront
      exact hself (Option.some.inj hfront).symm
    have howner : interp.ownerCall? env s (.call payload bindings) = none := by
      simp only [ownerCall?, if_neg hbinds]
    have htoken : interp.tokenCall? env s (.call payload bindings) =
        some (callee, .transfer payee amount) := by
      simp only [tokenCall?, hresolve, hfront, hdecode, if_neg hself, Except.toOption,
        Option.map_some]
    rw [stepEffects, howner, htoken]
    exact Effect.leads_singleton.mpr (Script.run_mapError_eq_ok.mpr hmove)
  · rw [hcontract] at hfound
    cases hfound

theorem leads_step {i : Instruction} {outcome : Outcome}
    (h : (interp.step env i).run s = .ok outcome t) :
    Leads (interp.stepEffects env s i) s t := by
  cases i with
  | transfer recipient portions =>
    obtain ⟨amounts, u, hpay, hdone⟩ := Script.run_bind_eq_ok.mp h
    cases hdone
    exact leads_payments hpay
  | call payload bindings =>
    obtain ⟨output, u, hcall, hdone⟩ := Script.run_bind_eq_ok.mp h
    cases hdone
    exact leads_call hcontract hcall
  | spawn network salt version program portions =>
    obtain ⟨amounts, u, hpay, hdone⟩ := Script.run_bind_eq_ok.mp h
    cases hdone
    exact leads_payments hpay

theorem leads_steps {instructions : List Instruction} {outcome last : Outcome}
    (h : (interp.steps env instructions outcome).run s = .ok last t) :
    Leads (interp.stepsEffects env instructions s) s t := by
  induction instructions generalizing s outcome with
  | nil =>
    cases h
    rfl
  | cons i rest ih =>
    rw [steps, List.foldlM_cons] at h
    obtain ⟨next, u, hmap, hrest⟩ := Script.run_bind_eq_ok.mp h
    obtain ⟨result, hstep, -⟩ := Script.run_map_eq_ok.mp hmap
    rw [stepsEffects, Script.after_of_ok hstep]
    exact Effect.leads_append.mpr ⟨u, leads_step hcontract hstep, ih hrest⟩

end NoContracts

theorem receive_cons (asset : AssetId) (amount : UInt128) (rest : List (AssetId × UInt128)) :
    interp.receive env ((asset, amount) :: rest) =
      (Interpreter.token env asset >>= fun token =>
        onLedger (Ledger.transfer token env.relayer interp.address amount)) >>= fun _ =>
          interp.receive env rest := rfl

theorem leads_receive {incoming : List (AssetId × UInt128)}
    (h : (interp.receive env incoming).run s = .ok () t) :
    Leads (interp.receiveEffects env incoming) s t := by
  induction incoming generalizing s with
  | nil =>
    cases h
    rfl
  | cons entry rest ih =>
    obtain ⟨asset, amount⟩ := entry
    rw [receive_cons] at h
    obtain ⟨⟨⟩, u, hone, hrest⟩ := Script.run_bind_eq_ok.mp h
    obtain ⟨token, v, htoken, hmove⟩ := Script.run_bind_eq_ok.mp hone
    obtain ⟨hhandle, rfl⟩ := run_token_eq_ok.mp htoken
    have heffects : interp.receiveEffects env ((asset, amount) :: rest) =
        .move token env.relayer interp.address amount :: interp.receiveEffects env rest := by
      simp only [receiveEffects, List.filterMap_cons, hhandle, Option.map_some]
    rw [heffects]
    exact ⟨u, hmove, ih hrest⟩

/-! ## Whom the effects concern -/

theorem mem_receiveEffects {incoming : List (AssetId × UInt128)} {e : Effect}
    (h : e ∈ interp.receiveEffects env incoming) :
    ∃ asset amount token, (asset, amount) ∈ incoming ∧
      env.host.assetHandle asset = some token ∧
      e = .move token env.relayer interp.address amount := by
  obtain ⟨⟨asset, amount⟩, hmem, hmap⟩ := List.mem_filterMap.mp h
  obtain ⟨token, hhandle, rfl⟩ := Option.map_eq_some_iff.mp hmap
  exact ⟨asset, amount, token, hmem, hhandle, rfl⟩

theorem mem_payments {payee : Address} {portions : List Portion} {e : Effect}
    (h : e ∈ interp.payments env payee portions s) :
    ∃ token payee amount, e = .move token interp.address payee amount := by
  induction portions generalizing s with
  | nil => cases h
  | cons p rest ih =>
    obtain ⟨amount, u, -, he⟩ := Script.mem_after h
    rcases List.mem_append.mp he with he | he
    · obtain ⟨token, -, rfl⟩ := Option.mem_map.mp (Option.mem_toList.mp he)
      exact ⟨token, payee, amount, rfl⟩
    · exact ih he

/-- The effects of instructions: moves that the interpreter pays, and changes of its owners. -/
theorem mem_stepEffects {i : Instruction} {e : Effect} (h : e ∈ interp.stepEffects env s i) :
    (∃ token payee amount, e = .move token interp.address payee amount) ∨
      ∃ call, e = .manage interp.address call := by
  cases i with
  | transfer recipient portions => exact .inl (mem_payments h)
  | call payload bindings =>
    rcases List.mem_append.mp h with h | h
    · obtain ⟨call, -, rfl⟩ := Option.mem_map.mp (Option.mem_toList.mp h)
      exact .inr ⟨call, rfl⟩
    · obtain ⟨⟨token, payee, amount⟩, -, rfl⟩ := Option.mem_map.mp (Option.mem_toList.mp h)
      exact .inl ⟨token, payee, amount, rfl⟩
  | spawn network salt version program portions => exact .inl (mem_payments h)

theorem mem_stepsEffects {instructions : List Instruction} {e : Effect}
    (h : e ∈ interp.stepsEffects env instructions s) :
    (∃ token payee amount, e = .move token interp.address payee amount) ∨
      ∃ call, e = .manage interp.address call := by
  induction instructions generalizing s with
  | nil => cases h
  | cons i rest ih =>
    obtain ⟨outcome, u, -, he⟩ := Script.mem_after h
    rcases List.mem_append.mp he with he | he
    · exact mem_stepEffects he
    · exact ih he

/-- **Instructions take from the interpreter alone.** -/
theorem debited_of_mem_stepsEffects {instructions : List Instruction} {e : Effect}
    (h : e ∈ interp.stepsEffects env instructions s) {token holder : Address}
    (hholder : holder ≠ interp.address) : e.debited token holder = 0 := by
  rcases mem_stepsEffects h with ⟨t, payee, amount, rfl⟩ | ⟨call, rfl⟩
  · refine if_neg ?_
    rintro ⟨-, heq⟩
    exact hholder heq.symm
  · rfl

theorem found_notMem_stepsEffects {instructions : List Instruction} (i owner : Address) :
    Effect.found i owner ∉ interp.stepsEffects env instructions s := by
  intro h
  rcases mem_stepsEffects h with ⟨token, payee, amount, heq⟩ | ⟨call, heq⟩ <;> cases heq

theorem filterMap_payments {payee : Address} {portions : List Portion} :
    (interp.payments env payee portions s).filterMap (Effect.ownerCall? interp.address) = [] := by
  refine List.filterMap_eq_nil_iff.mpr fun e he => ?_
  obtain ⟨token, payee, amount, rfl⟩ := mem_payments he
  rfl

theorem filterMap_stepEffects (i : Instruction) :
    (interp.stepEffects env s i).filterMap (Effect.ownerCall? interp.address) =
      (interp.ownerCall? env s i).toList := by
  cases i with
  | transfer recipient portions => exact filterMap_payments
  | call payload bindings =>
    rw [stepEffects, List.filterMap_append]
    have htoken : ((interp.tokenCall? env s (.call payload bindings)).map
        fun (token, .transfer payee amount) =>
          Effect.move token interp.address payee amount).toList.filterMap
        (Effect.ownerCall? interp.address) = [] := by
      cases interp.tokenCall? env s (.call payload bindings) <;> rfl
    rw [htoken, List.append_nil]
    cases interp.ownerCall? env s (.call payload bindings) with
    | none => rfl
    | some call => simp [Effect.ownerCall?]
  | spawn network salt version program portions => exact filterMap_payments

/-- **The changes of owners among the effects are the owner calls.** -/
theorem filterMap_stepsEffects (instructions : List Instruction) :
    (interp.stepsEffects env instructions s).filterMap (Effect.ownerCall? interp.address) =
      interp.ownerCalls env instructions s := by
  induction instructions generalizing s with
  | nil => rfl
  | cons i rest ih =>
    rw [stepsEffects, ownerCalls]
    cases hstep : (interp.step env i).run s with
    | ok outcome t =>
      rw [Script.after_of_ok hstep, Script.after_of_ok hstep, List.filterMap_append,
        filterMap_stepEffects, ih]
    | error e t =>
      rw [Script.after, Script.after, hstep]
      rfl

end Interpreter

end Crossnet
