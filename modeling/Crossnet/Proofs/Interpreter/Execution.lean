import Mathlib.Logic.Function.Basic
import Crossnet.Proofs.Interpreter.Composition
import Crossnet.Proofs.Interpreter.Footprint
import Crossnet.Proofs.Program.Acceptance

/-!
# Programs that end well

Where it is known what some holders have of a token and who owns the interpreter
among them, it can be told in advance what the interpreter does: a payment that is
covered ends well and moves its amount, and a call to itself changes its owners.
Instruction by instruction this gives what a program adds to the outcome, what its
effects are, and what the holders have then.

* `Company.Stock.transfer`, `Company.Stock.withdraw`: **a payment that is covered
  ends well**, and what the holders have after it.
* `run_step_toSelf`: **a program can change the owners of its interpreter.**
* `Does`, `Goes`: what an instruction and a row of them come to.
-/

namespace Crossnet

variable {σ : Type} [Storage σ] {s t u : σ}

/-! ## Holders that are known -/

/-- An interpreter and others that hold a token, each by a name, where the hash keeps all their
entries apart. -/
structure Company (ι : Type) where
  token : Address
  /-- Who has a name. -/
  holder : ι → Address
  /-- The name of the interpreter. -/
  self : ι
  holders_apart : Function.Injective fun i => Ledger.key token (holder i)
  owners_apart : ∀ i, Owners.key (holder self) ≠ Ledger.key token (holder i)

namespace Company

variable {ι : Type} {C : Company ι} {amounts : ι → UInt128} {owners : AddressSet}
  {amount : UInt128}

/-- What the storage shows of the holders' amounts and of the interpreter's owners. -/
structure Stock (C : Company ι) (s : σ) (amounts : ι → UInt128) (owners : AddressSet) : Prop where
  amountAt : ∀ i, Ledger.amountAt? s (Ledger.key C.token (C.holder i)) = some (amounts i)
  ownersAt : Owners.setAt? s (Owners.key (C.holder C.self)) = some owners

/-- The amounts after one holder paid another. -/
def moved [DecidableEq ι] (payer payee : ι) (amount : UInt128) (amounts : ι → UInt128) :
    ι → UInt128 :=
  Function.update (Function.update amounts payer (amounts payer - amount)) payee
    (amounts payee + amount)

theorem holder_injective (C : Company ι) : Function.Injective C.holder :=
  fun _ _ h => C.holders_apart (congrArg (Ledger.key C.token) h)

theorem stock_empty (C : Company ι) : C.Stock Store.empty (fun _ => 0) ∅ :=
  ⟨fun _ => Ledger.amountAt?_empty _, Owners.setAt?_empty _⟩

section Lawful

variable [LawfulStorage σ] (h : C.Stock s amounts owners)

include h

theorem Stock.setOwners {changed : AddressSet} (hsize : changed.size < 2 ^ 64) :
    C.Stock (Owners.setOwners s (Owners.key (C.holder C.self)) changed) amounts changed := by
  constructor
  · intro i
    rw [Owners.setOwners, Ledger.amountAt?_put_of_ne _ (C.owners_apart i)]
    exact h.amountAt i
  · exact Owners.setAt?_setOwners s _ hsize

variable [DecidableEq ι]

theorem Stock.setAmount (i : ι) (amount : UInt128) :
    C.Stock (Ledger.setAmount s (Ledger.key C.token (C.holder i)) amount)
      (Function.update amounts i amount) owners := by
  constructor
  · intro j
    -- Two holders have one entry only where they have one name.
    rw [Ledger.amountAt?_setAmount, h.amountAt, Function.update_apply]
    by_cases hij : i = j
    · rw [if_pos (by rw [hij]), if_pos hij.symm]
    · rw [if_neg fun hkey => hij (C.holders_apart hkey), if_neg (Ne.symm hij)]
  · rw [Ledger.setAmount, Owners.setAt?_put_of_ne _ (C.owners_apart i).symm]
    exact h.ownersAt

/-- **A transfer that is covered ends well**, where the payee has room. -/
theorem Stock.transfer {payer payee : ι} (hne : payer ≠ payee) (hle : amount ≤ amounts payer)
    (hroom : (amounts payee).toNat + amount.toNat < 2 ^ 128) :
    ∃ t, (Ledger.transfer C.token (C.holder payer) (C.holder payee) amount).run s = .ok () t ∧
      C.Stock t (moved payer payee amount amounts) owners := by
  have hsum := (BitVec.toNat_add_of_lt hroom).symm
  have hrun := Ledger.run_transfer_of_ne (fun hkey => hne (C.holders_apart hkey))
    (h.amountAt payer) hle (h.amountAt payee) hsum
  exact ⟨_, hrun, (h.setAmount payer _).setAmount payee _⟩

variable {interp : Interpreter} {env : Environment} {portion : Portion}

/-- **A withdrawal that is covered ends well**, where the payee is someone else and has room. -/
theorem Stock.withdraw (hself : interp.address = C.holder C.self)
    (hhandle : env.host.assetHandle portion.asset = some C.token)
    (hamount : portion.selector.amount (amounts C.self) env.unitScale = .ok amount)
    (hle : amount ≤ amounts C.self) {payee : ι} (hne : C.self ≠ payee)
    (hroom : (amounts payee).toNat + amount.toNat < 2 ^ 128) :
    ∃ t, (interp.withdraw env (C.holder payee) portion).run s = .ok amount t ∧
      C.Stock t (moved C.self payee amount amounts) owners := by
  have hheld := h.amountAt C.self
  have hkeys : Ledger.key C.token (C.holder C.self) ≠ Ledger.key C.token (C.holder payee) :=
    fun hkey => hne (C.holders_apart hkey)
  rw [← hself] at hheld hkeys
  have hsum := (BitVec.toNat_add_of_lt hroom).symm
  have hrun := Interpreter.run_withdraw_of_ne hkeys hhandle hheld hamount hle (h.amountAt payee)
    hsum
  rw [hself] at hrun
  exact ⟨_, hrun, (h.setAmount C.self _).setAmount payee _⟩

end Lawful

/-- A withdrawal of more than the interpreter has is refused. -/
theorem Stock.withdraw_of_lt (h : C.Stock s amounts owners) {interp : Interpreter}
    {env : Environment} (portion : Portion) (hself : interp.address = C.holder C.self)
    (hhandle : env.host.assetHandle portion.asset = some C.token)
    (hamount : portion.selector.amount (amounts C.self) env.unitScale = .ok amount)
    (hlt : amounts C.self < amount) (payee : Address) :
    (interp.withdraw env payee portion).run s =
      .error (.insufficientBalance portion.asset amount (amounts C.self)) s := by
  have hheld := h.amountAt C.self
  rw [← hself] at hheld
  have hquote := Interpreter.run_quote_of_held hhandle hheld (.inl hamount)
  exact Interpreter.run_withdraw_of_quote_lt hquote hlt

end Company

/-! ## Owners that are managed -/

namespace Interpreter

variable {interp : Interpreter} {env : Environment}

/-- A payload with room for an address in front of it, and the binding of the interpreter's own
address to that room. -/
def toSelf (calldata : Bytes) : Instruction :=
  .call (Address.zero.toList ++ calldata) [⟨0, .self⟩]

/-- The interpreter's address fills the room. -/
theorem layout_toSelf (calldata : Bytes) :
    (∀ b ∈ [Binding.mk 0 .self], b.stop ≤ (Address.zero.toList ++ calldata).length) ∧
      [Binding.mk 0 .self].Pairwise Binding.Apart := by
  refine ⟨fun b hb => ?_, List.pairwise_singleton _ _⟩
  obtain rfl := List.mem_singleton.mp hb
  rw [List.length_append, Address.zero.length_toList]
  exact Nat.le_add_right 20 _

theorem wellFormed_toSelf (calldata : Bytes) : (toSelf calldata).WellFormed := by
  refine ⟨fun b hb => ?_, layout_toSelf calldata⟩
  obtain rfl := List.mem_singleton.mp hb
  trivial

/-- The program of one such call is accepted. -/
theorem accept_toSelf {calldata : Bytes} (hlength : 20 + calldata.length < 2 ^ 64) :
    Program.accept (Program.mk [] [toSelf calldata]).toWire = .ok ⟨[], [toSelf calldata]⟩ := by
  have hpayload : (Address.zero.toList ++ calldata).length < 2 ^ 64 := by
    rw [List.length_append, Address.zero.length_toList]
    exact hlength
  have hfits : (Program.mk [] [toSelf calldata]).Fits :=
    ⟨by decide, Nat.one_lt_two_pow (by decide), ⟨hpayload, by decide⟩, trivial⟩
  have hdepth : (Program.mk [] [toSelf calldata]).depth ≤ 16 := Nat.zero_le 16
  exact Program.accept_eq_ok_iff.mpr ⟨hfits, rfl, hdepth, wellFormed_toSelf calldata, trivial⟩

theorem run_resolvePayload_toSelf (calldata : Bytes) :
    (resolvePayload (interp.liveValues env) (Address.zero.toList ++ calldata) [⟨0, .self⟩]).run s =
      .ok (interp.address.toList ++ calldata) s := by
  have hlayout : checkLayout (Address.zero.toList ++ calldata).length [⟨0, .self⟩] = .ok () :=
    checkLayout_eq_ok_iff.mpr (layout_toSelf calldata)
  have hsplice : splice (Address.zero.toList ++ calldata) [(⟨0, .self⟩, interp.address.toList)] =
      interp.address.toList ++ calldata := by
    have hlength : interp.address.toList.length = Address.zero.toList.length := by
      rw [interp.address.length_toList, Address.zero.length_toList]
    show [] ++ interp.address.toList ++
      (Address.zero.toList ++ calldata).drop (0 + interp.address.toList.length) = _
    rw [Nat.zero_add, hlength, List.drop_left, List.nil_append]
  unfold resolvePayload
  rw [hlayout]
  exact congrArg (EStateM.Result.ok · s) hsplice

theorem ofFront?_toSelf (calldata : Bytes) :
    Address.ofFront? (interp.address.toList ++ calldata) = some interp.address := by
  have htake : (interp.address.toList ++ calldata).take 20 = interp.address.toList :=
    List.take_left' interp.address.length_toList
  simp only [Address.ofFront?, FixedBytes.ofFront?, htake, FixedBytes.ofList?_toList,
    Option.map_some]

theorem drop_toSelf (calldata : Bytes) :
    (interp.address.toList ++ calldata).drop Address.size = calldata :=
  List.drop_left' interp.address.length_toList

/-- **A program can change the owners of its interpreter**, by a call to itself that says how. -/
theorem run_step_toSelf {calldata : Bytes} {change : OwnerCall} {owners : AddressSet}
    (hdecode : Wire.decode calldata = .ok change)
    (howners : Owners.setAt? s (Owners.key interp.address) = some owners) :
    (interp.step env (toSelf calldata)).run s = .ok (.answered [])
      (Owners.setOwners s (Owners.key interp.address) (change.change owners)) := by
  have happly : (Owners.apply interp.address interp.address change).run s = .ok ()
      (Owners.setOwners s (Owners.key interp.address) (change.change owners)) :=
    Owners.run_apply_eq_ok.mpr ⟨rfl, owners, howners, rfl⟩
  have hcall : (interp.call env (Address.zero.toList ++ calldata) [⟨0, .self⟩]).run s = .ok []
      (Owners.setOwners s (Owners.key interp.address) (change.change owners)) := by
    unfold call
    rw [Script.run_bind_of_ok (run_resolvePayload_toSelf calldata), ofFront?_toSelf]
    dsimp only
    rw [if_pos rfl, drop_toSelf]
    have hread : (readCall interp.address calldata : Script ExecutionError OwnerCall).run s =
        .ok change s := run_readCall_eq_ok.mpr ⟨hdecode, rfl⟩
    show (readCall interp.address calldata >>= fun change => _).run s = _
    rw [Script.run_bind_of_ok hread, Script.run_bind_of_ok happly]
    rfl
  have hstep : interp.step env (toSelf calldata) =
      interp.call env (Address.zero.toList ++ calldata) [⟨0, .self⟩] >>= fun output =>
        pure (.answered output) := rfl
  rw [hstep, Script.run_bind_of_ok hcall]
  rfl

theorem stepEffects_toSelf {calldata : Bytes} {change : OwnerCall}
    (hdecode : Wire.decode calldata = .ok change) :
    interp.stepEffects env s (toSelf calldata) = [.manage interp.address change] := by
  have hresolve : (resolvePayload (interp.liveValues env) (Address.zero.toList ++ calldata)
      [⟨0, .self⟩]).run s = _ := run_resolvePayload_toSelf calldata
  have hbinds : bindsSelf [⟨0, .self⟩] = true := rfl
  have howner : interp.ownerCall? env s (toSelf calldata) = some change := by
    simp only [toSelf, ownerCall?, if_pos hbinds, hresolve, drop_toSelf, hdecode, Except.toOption]
  have htoken : interp.tokenCall? env s (toSelf calldata) = none := by
    simp only [toSelf, tokenCall?, hresolve, ofFront?_toSelf, if_pos]
  show ((interp.ownerCall? env s (toSelf calldata)).map _).toList ++
    ((interp.tokenCall? env s (toSelf calldata)).map _).toList = _
  rw [howner, htoken]
  rfl

/-! ## What instructions come to -/

/-- The instruction ends well: what it adds to the outcome, its effects, and what it leaves. -/
structure Does (interp : Interpreter) (env : Environment) (i : Instruction) (s : σ)
    (added : Outcome) (effects : List Effect) (t : σ) : Prop where
  run : (interp.step env i).run s = .ok added t
  effects_eq : interp.stepEffects env s i = effects

/-- The instructions end well, one after the other. -/
structure Goes (interp : Interpreter) (env : Environment) (instructions : List Instruction) (s : σ)
    (outcome : Outcome) (effects : List Effect) (t : σ) : Prop where
  run : (interp.steps env instructions .empty).run s = .ok outcome t
  effects_eq : interp.stepsEffects env instructions s = effects

theorem Goes.nil (interp : Interpreter) (env : Environment) (s : σ) :
    Goes interp env [] s .empty [] s :=
  ⟨rfl, rfl⟩

theorem Goes.cons {i : Instruction} {rest : List Instruction} {added outcome : Outcome}
    {es fs : List Effect} (hfirst : Does interp env i s added es u)
    (hrest : Goes interp env rest u outcome fs t) :
    Goes interp env (i :: rest) s (added ++ outcome) (es ++ fs) t := by
  constructor
  · rw [steps_cons, Script.run_bind_of_ok hfirst.run, steps_eq_map]
    exact Script.run_map_eq_ok.mpr ⟨outcome, hrest.run, rfl⟩
  · rw [stepsEffects, Script.after_of_ok hfirst.run, hfirst.effects_eq, hrest.effects_eq]

section Payments

variable {portion : Portion} {token payee : Address} {amount : UInt128}

theorem run_withdrawals_singleton
    (hrun : (interp.withdraw env payee portion).run s = .ok amount t) :
    ([portion].mapM (interp.withdraw env payee)).run s = .ok [amount] t := by
  rw [List.mapM_cons]
  exact Script.run_bind_eq_ok.mpr ⟨amount, t, hrun, rfl⟩

theorem payments_singleton (hhandle : env.host.assetHandle portion.asset = some token)
    (hrun : (interp.withdraw env payee portion).run s = .ok amount t) :
    interp.payments env payee [portion] s = [.move token interp.address payee amount] := by
  rw [payments, Script.after_of_ok hrun, hhandle]
  rfl

theorem does_transfer {recipient : Recipient} (hpayee : interp.payee env recipient = payee)
    (hhandle : env.host.assetHandle portion.asset = some token)
    (hrun : (interp.withdraw env payee portion).run s = .ok amount t) :
    Does interp env (.transfer recipient [portion]) s .empty
      [.move token interp.address payee amount] t := by
  subst hpayee
  exact ⟨Script.run_bind_eq_ok.mpr ⟨[amount], t, run_withdrawals_singleton hrun, rfl⟩,
    payments_singleton hhandle hrun⟩

/-- Instructions fail where the first of them is a transfer that is refused. -/
theorem run_steps_of_refused {recipient : Recipient} {rest : List Instruction}
    {e : ExecutionError}
    (hrun : (interp.withdraw env (interp.payee env recipient) portion).run s = .error e t) :
    (interp.steps env (.transfer recipient [portion] :: rest) .empty).run s = .error e t := by
  rw [steps_cons]
  refine Script.run_bind_eq_error.mpr (.inl ?_)
  refine Script.run_bind_eq_error.mpr (.inl ?_)
  rw [List.mapM_cons]
  exact Script.run_bind_eq_error.mpr (.inl hrun)

theorem does_spawn {network : NetworkId} {salt : Bytes} {version : UInt32} {program : Program}
    (hhandle : env.host.assetHandle portion.asset = some token)
    (hrun : (interp.withdraw env env.escrow portion).run s = .ok amount t) :
    Does interp env (.spawn network salt version program [portion]) s
      (.spawned ⟨interp.origin, network, salt, version, program.toWire, [portion.asset], [amount]⟩)
      [.move token interp.address env.escrow amount] t :=
  ⟨Script.run_bind_eq_ok.mpr ⟨[amount], t, run_withdrawals_singleton hrun, rfl⟩,
    payments_singleton hhandle hrun⟩

/-- Incoming assets are received where the relayer can pay them. -/
theorem run_receive_singleton {asset : AssetId}
    (hhandle : env.host.assetHandle asset = some token)
    (hmove : (Ledger.transfer token env.relayer interp.address amount).run s = .ok () t) :
    (interp.receive env [(asset, amount)]).run s = .ok () t := by
  refine Script.run_bind_eq_ok.mpr ⟨(), t, ?_, rfl⟩
  refine Script.run_bind_eq_ok.mpr ⟨token, s, run_token_eq_ok.mpr ⟨hhandle, rfl⟩, ?_⟩
  exact Script.run_mapError_eq_ok.mpr hmove

end Payments

theorem does_toSelf (env : Environment) {calldata : Bytes} {change : OwnerCall}
    {owners : AddressSet} (hdecode : Wire.decode calldata = .ok change)
    (howners : Owners.setAt? s (Owners.key interp.address) = some owners) :
    Does interp env (toSelf calldata) s (.answered []) [.manage interp.address change]
      (Owners.setOwners s (Owners.key interp.address) (change.change owners)) :=
  ⟨run_step_toSelf hdecode howners, stepEffects_toSelf hdecode⟩

end Interpreter

/-! ## Instructions among holders that are known -/

namespace Company.Stock

open Interpreter (Does toSelf)

variable [LawfulStorage σ] {ι : Type} {C : Company ι} {amounts : ι → UInt128}
  {owners : AddressSet} {amount : UInt128} {env : Environment} (h : C.Stock s amounts owners)
  {interp : Interpreter} (hself : interp.address = C.holder C.self)

include h hself

/-- **A call to the interpreter itself changes its owners.** -/
theorem does_toSelf (env : Environment) {calldata : Bytes} {change : OwnerCall}
    (hdecode : Wire.decode calldata = .ok change) (hsize : (change.change owners).size < 2 ^ 64) :
    ∃ t, Does interp env (toSelf calldata) s (.answered []) [.manage interp.address change] t ∧
      C.Stock t amounts (change.change owners) := by
  have howners := h.ownersAt
  rw [← hself] at howners
  have hstock := h.setOwners hsize
  rw [← hself] at hstock
  exact ⟨_, Interpreter.does_toSelf env hdecode howners, hstock⟩

variable [DecidableEq ι] (portion : Portion) (payee : ι)
  (hhandle : env.host.assetHandle portion.asset = some C.token)
  (hamount : portion.selector.amount (amounts C.self) env.unitScale = .ok amount)
  (hle : amount ≤ amounts C.self) (hne : C.self ≠ payee)
  (hroom : (amounts payee).toNat + amount.toNat < 2 ^ 128)

include hhandle hamount hle hne hroom

/-- **A transfer that is covered pays its payee.** -/
theorem does_transfer {recipient : Recipient}
    (hpayee : interp.payee env recipient = C.holder payee) :
    ∃ t, Does interp env (.transfer recipient [portion]) s .empty
        [.move C.token interp.address (C.holder payee) amount] t ∧
      C.Stock t (moved C.self payee amount amounts) owners := by
  obtain ⟨t, hrun, hstock⟩ := h.withdraw hself hhandle hamount hle hne hroom
  exact ⟨t, Interpreter.does_transfer hpayee hhandle hrun, hstock⟩

/-- **A spawn that is covered pays the escrow**, and its record says how much. -/
theorem does_spawn (hescrow : env.escrow = C.holder payee) (network : NetworkId) (salt : Bytes)
    (version : UInt32) (program : Program) :
    ∃ t, Does interp env (.spawn network salt version program [portion]) s
        (.spawned ⟨interp.origin, network, salt, version, program.toWire, [portion.asset],
          [amount]⟩)
        [.move C.token interp.address (C.holder payee) amount] t ∧
      C.Stock t (moved C.self payee amount amounts) owners := by
  obtain ⟨t, hrun, hstock⟩ := h.withdraw hself hhandle hamount hle hne hroom
  rw [← hescrow] at hrun ⊢
  exact ⟨t, Interpreter.does_spawn hhandle hrun, hstock⟩

end Company.Stock

end Crossnet
