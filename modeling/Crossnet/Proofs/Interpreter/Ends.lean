import Crossnet.Proofs.Interpreter.Composition
import Crossnet.Proofs.Interpreter.Footprint
import Crossnet.Proofs.Storage.Ends

/-!
# How the parts of a program end

Besides what the ledger, the owners and contracts fail for, a program fails for faults
of its own and for what it finds at run time, such as an unknown asset or too little
to pay from.  The rules here say how a part of a program ends, given how the reads and
the transfers in it do.  They hold for whatever is kept and for all causes that are
faults or corrupt entries, so one walk along a program serves both.

* `ends_token`, `ends_readCall`: the parts that only look something up, with what comes
  after them.
* `ends_withdraw`, `ends_receive`, `ends_resolvePayload`, `ends_call`: the parts with
  reads and transfers in them.
* `ends_steps`: **what each instruction keeps, instructions in a row keep.**
-/

namespace Crossnet

/-- The cause is a fault of the program itself. -/
def ExecutionError.IsFault : ExecutionError → Prop
  | program _ => True
  | _ => False

/-- A stored amount cannot be read. -/
def LedgerError.IsCorruption : LedgerError → Prop
  | corruptEntry _ => True
  | _ => False

/-- A stored entry cannot be read. -/
def ExecutionError.IsCorruption : ExecutionError → Prop
  | corruptState _ => True
  | ledger cause => cause.IsCorruption
  | _ => False

namespace Interpreter

open ExecutionError (IsFault IsCorruption)
open Script (Ends)

variable {σ : Type} [Storage σ] {bad : ExecutionError → Prop} {interp : Interpreter}
  {env : Environment} {s : σ}

section Parts

variable (hbad : ∀ e, bad e → e.IsFault ∨ e.IsCorruption)

include hbad

/-- A failure that is neither a fault nor a corrupt entry. -/
theorem ends_harmless {β : Type} {e : ExecutionError} {last : β → σ → Prop} (hfault : ¬e.IsFault)
    (hcorruption : ¬e.IsCorruption) : (throw e : Script ExecutionError β).Ends bad s last :=
  Script.ends_throw.mpr fun he => (hbad e he).elim hfault hcorruption

/-- Looking up the token of an asset, and what comes after it. -/
theorem ends_token {β : Type} {asset : AssetId} {f : Address → Script ExecutionError β}
    {last : β → σ → Prop}
    (h : ∀ token, env.host.assetHandle asset = some token → (f token).Ends bad s last) :
    (Interpreter.token env asset >>= f).Ends bad s last := by
  unfold Interpreter.token
  cases hhandle : env.host.assetHandle asset with
  | some token => exact h token hhandle
  | none => exact ends_harmless hbad id id

/-- Reading what a callee is called with, and what comes after it. -/
theorem ends_readCall {α β : Type} [Wire α] {callee : Address} {calldata : Bytes}
    {f : α → Script ExecutionError β} {last : β → σ → Prop}
    (h : ∀ call, Wire.decode calldata = .ok call → (f call).Ends bad s last) :
    (readCall callee calldata >>= f).Ends bad s last := by
  unfold readCall
  cases hdecode : (Wire.decode calldata : Except DecodeError α) with
  | ok call => exact h call hdecode
  | error cause => exact ends_harmless hbad id id

/-! ## Amounts -/

variable {keeps : σ → Prop}

/-- Reading what the interpreter holds. -/
theorem ends_held {asset : AssetId}
    (hread : ∀ token, env.host.assetHandle asset = some token →
      (onLedger (Ledger.balance token interp.address)).Ends bad s fun _ t => keeps t) :
    ((interp.liveValues env).held asset).Ends bad s fun _ t => keeps t :=
  ends_token hbad hread

theorem ends_quote {p : Portion}
    (hzero : ∀ held, p.selector.amount held env.unitScale = .error .zeroDenominator →
      ¬bad (.program .zeroDenominator))
    (hread : ∀ token, env.host.assetHandle p.asset = some token →
      (onLedger (Ledger.balance token interp.address)).Ends bad s fun _ t => keeps t) :
    (interp.quote env p).Ends bad s fun _ t => keeps t := by
  refine ends_token hbad fun token hhandle => ?_
  refine (hread token hhandle).bind fun held u _ hu => ?_
  have hcovered : ∀ amount : UInt128, (covered p token held amount).Ends bad u
      fun _ t => keeps t := by
    intro amount
    unfold covered
    split
    · exact ends_harmless hbad id id
    · exact Script.ends_pure.mpr hu
  cases hamount : p.selector.amount held env.unitScale with
  | ok amount => exact hcovered amount
  | error e =>
    cases e with
    | overflow => exact hcovered UInt128.max
    | zeroDenominator => exact Script.ends_throw.mpr (hzero held hamount)

theorem ends_withdraw {payee : Address} {p : Portion}
    (hzero : ∀ held, p.selector.amount held env.unitScale = .error .zeroDenominator →
      ¬bad (.program .zeroDenominator))
    (hread : ∀ token, env.host.assetHandle p.asset = some token →
      (onLedger (Ledger.balance token interp.address)).Ends bad s fun _ t => keeps t)
    (hmove : ∀ token amount t, env.host.assetHandle p.asset = some token → keeps t →
      (onLedger (Ledger.transfer token interp.address payee amount)).Ends bad t
        fun _ u => keeps u) :
    (interp.withdraw env payee p).Ends bad s fun _ t => keeps t := by
  rw [withdraw_eq]
  refine (ends_quote hbad hzero hread).bind fun (token, amount) t hquote ht => ?_
  exact (hmove token amount t (run_quote_eq_ok hquote).2 ht).bind
    fun _ _ _ hu => Script.ends_pure.mpr hu

theorem ends_receive {incoming : List (AssetId × UInt128)} (h : keeps s)
    (hmove : ∀ asset amount token t, (asset, amount) ∈ incoming →
      env.host.assetHandle asset = some token → keeps t →
        (onLedger (Ledger.transfer token env.relayer interp.address amount)).Ends bad t
          fun _ u => keeps u) :
    (interp.receive env incoming).Ends bad s fun _ t => keeps t := by
  refine Ends.forM keeps (fun (asset, amount) hmem t ht => ?_) h
  exact ends_token hbad fun token hhandle => hmove asset amount token t hmem hhandle ht

/-! ## Calls -/

theorem ends_resolve {value : BoundValue} (h : keeps s)
    (hzero : ∀ asset share held, value = .assetAmount asset share →
      share.of held = .error .zeroDenominator → ¬bad (.program .zeroDenominator))
    (hread : ∀ asset share token, value = .assetAmount asset share →
      env.host.assetHandle asset = some token →
        (onLedger (Ledger.balance token interp.address)).Ends bad s fun _ t => keeps t) :
    (value.resolve (interp.liveValues env)).Ends bad s fun _ t => keeps t := by
  cases value with
  | assetId asset => exact Script.ends_pure.mpr h
  | self => exact Script.ends_pure.mpr h
  | assetAmount asset share =>
    have hheld : ((interp.liveValues env).held asset).Ends bad s fun _ t => keeps t :=
      ends_held hbad fun token hhandle => hread asset share token rfl hhandle
    refine hheld.bind fun held t _ ht => ?_
    cases hof : share.of held with
    | ok amount => exact Script.ends_pure.mpr ht
    | error e =>
      cases e with
      | overflow => exact ends_harmless hbad id id
      | zeroDenominator => exact Script.ends_throw.mpr (hzero asset share held rfl hof)

theorem ends_resolvePayload {payload : Bytes} {bindings : List Binding} (h : keeps s)
    (hlayout : ∀ e, checkLayout payload.length bindings = .error e → ¬bad (.program e))
    (hzero : ∀ b ∈ bindings, ∀ asset share held, b.value = .assetAmount asset share →
      share.of held = .error .zeroDenominator → ¬bad (.program .zeroDenominator))
    (hread : ∀ b ∈ bindings, ∀ asset share token t, b.value = .assetAmount asset share →
      env.host.assetHandle asset = some token → keeps t →
        (onLedger (Ledger.balance token interp.address)).Ends bad t fun _ u => keeps u) :
    (resolvePayload (interp.liveValues env) payload bindings).Ends bad s fun _ t => keeps t := by
  unfold resolvePayload
  cases hcheck : checkLayout payload.length bindings with
  | error e => exact Script.ends_throw.mpr (hlayout e hcheck)
  | ok done =>
    have hvalues : (bindings.mapM fun b : Binding => b.value.resolve (interp.liveValues env)).Ends
        bad s fun _ t => keeps t :=
      Ends.mapM keeps (fun b hb t ht => ends_resolve hbad ht (hzero b hb)
        fun asset share token hvalue hhandle => hread b hb asset share token t hvalue hhandle ht) h
    exact hvalues.bind fun _ _ _ ht => Script.ends_pure.mpr ht

/-- The callee is the interpreter, a token, a contract, or nothing that can be called. -/
theorem ends_call {payload : Bytes} {bindings : List Binding}
    (hresolve : (resolvePayload (interp.liveValues env) payload bindings).Ends bad s
      fun _ _ => True)
    (hself : ∀ (resolved : Bytes) (change : OwnerCall) (t : σ),
      (resolvePayload (interp.liveValues env) payload bindings).run s = .ok resolved t →
        Wire.decode (resolved.drop Address.size) = .ok change →
          (Owners.apply interp.address interp.address change).Ends bad t fun _ u => keeps u)
    (htoken : ∀ (resolved : Bytes) (callee payee : Address) (amount : UInt128) (t : σ),
      (resolvePayload (interp.liveValues env) payload bindings).run s = .ok resolved t →
        Address.ofFront? resolved = some callee → callee ≠ interp.address →
          env.host.isToken callee = true →
            Wire.decode (resolved.drop Address.size) = .ok (TokenCall.transfer payee amount) →
              (onLedger (Ledger.transfer callee interp.address payee amount)).Ends bad t
                fun _ u => keeps u)
    (hcontract : ∀ (resolved : Bytes) callee contract t, env.host.contract callee = some contract →
      (contract interp.address (resolved.drop Address.size)).Ends bad t fun _ u => keeps u) :
    (interp.call env payload bindings).Ends bad s fun _ t => keeps t := by
  refine hresolve.bind fun resolved t hrun _ => ?_
  cases hfront : Address.ofFront? resolved with
  | none => exact ends_harmless hbad id id
  | some callee =>
    dsimp only
    by_cases hcallee : callee = interp.address
    · rw [if_pos hcallee]
      split
      · exact ends_harmless hbad id id
      · refine ends_readCall hbad fun change hdecode => ?_
        exact (hself resolved change t hrun hdecode).bind fun _ _ _ hu => Script.ends_pure.mpr hu
    · rw [if_neg hcallee]
      cases hisToken : env.host.isToken callee with
      | true =>
        rw [if_pos rfl]
        refine ends_readCall hbad fun (.transfer payee amount) hdecode => ?_
        exact (htoken resolved callee payee amount t hrun hfront hcallee hisToken hdecode).bind
          fun _ _ _ hu => Script.ends_pure.mpr hu
      | false =>
        rw [if_neg Bool.false_ne_true]
        cases hfound : env.host.contract callee with
        | none => exact ends_harmless hbad id id
        | some contract => exact hcontract resolved callee contract t hfound

end Parts

/-! ## Instructions in a row -/

/-- **What each instruction keeps, instructions in a row keep.**  What is kept may depend on the
instructions that are still to come. -/
theorem ends_steps (keeps : List Instruction → σ → Prop) {instructions : List Instruction}
    {outcome : Outcome}
    (hstep : ∀ i rest t, i :: rest <:+ instructions → keeps (i :: rest) t →
      (interp.step env i).Ends bad t fun _ u => keeps rest u)
    (h : keeps instructions s) :
    (interp.steps env instructions outcome).Ends bad s fun _ t => keeps [] t := by
  induction instructions generalizing s outcome with
  | nil => exact Script.ends_pure.mpr h
  | cons i rest ih =>
    rw [steps_cons]
    refine (hstep i rest s List.suffix_rfl h).bind fun added t _ ht => ?_
    exact ih (fun j more u hsuffix => hstep j more u (hsuffix.trans (List.suffix_cons i rest))) ht

end Interpreter

end Crossnet
