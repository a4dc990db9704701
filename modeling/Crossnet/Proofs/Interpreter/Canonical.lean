import Crossnet.Proofs.Canonical
import Crossnet.Proofs.Interpreter.Agreement
import Crossnet.Proofs.Interpreter.Ends
import Crossnet.Proofs.Interpreter.Locality
import Crossnet.Proofs.Owners.Growth

/-!
# Programs on canonical storages

A program reads and writes the entries that its instructions name: what the
interpreter and whom it pays hold of a token, and the interpreter's own owners.
Which ones a call names comes out while it runs.  Where all of them are in the
census, a program finds no corrupt entry and leaves the storage canonical.

* `named`: the entries that instructions name, as far as they are reached.
* `keeps_step`: **an instruction finds no corrupt entry and uses up no more room than
  it has bytes.**
* `keeps_steps`, `keeps_receive`: so do instructions in a row, and the receipt of what
  comes in.
-/

namespace Crossnet.Interpreter

/-! ## Entries that are named -/

/-- The entries between which a portion is moved. -/
def namedByPortion (interp : Interpreter) (env : Environment) (payee : Address) (p : Portion) :
    List Identity :=
  match env.host.assetHandle p.asset with
  | some token => [.balance token interp.address, .balance token payee]
  | none => []

section Named

variable {σ : Type} [Storage σ]

/-- The entries that an instruction names, besides the interpreter's owners. -/
def namedByStep (interp : Interpreter) (env : Environment) (s : σ) : Instruction → List Identity
  | .transfer recipient portions =>
    portions.flatMap (interp.namedByPortion env (interp.payee env recipient))
  | .call payload bindings =>
    interp.consultedByStep env (.call payload bindings) ++
      match interp.tokenCall? env s (.call payload bindings) with
      | some (token, .transfer payee _) =>
        if env.host.isToken token then [.balance token interp.address, .balance token payee] else []
      | none => []
  | .spawn _ _ _ _ portions => portions.flatMap (interp.namedByPortion env env.escrow)

/-- The entries that instructions in a row name, as far as they are reached. -/
def named (interp : Interpreter) (env : Environment) : List Instruction → σ → List Identity
  | [], _ => []
  | i :: rest, s =>
    interp.namedByStep env s i ++ (interp.step env i).after s fun _ t => named interp env rest t

variable {interp : Interpreter} {env : Environment} {s : σ} {j : Identity}

theorem isEntry_of_mem_namedByPortion {payee : Address} {p : Portion}
    (h : j ∈ interp.namedByPortion env payee p) : j.IsEntry := by
  unfold namedByPortion at h
  split at h
  · rcases List.mem_pair.mp h with rfl | rfl
    · trivial
    · trivial
  · cases h

theorem isEntry_of_mem_namedByStep {i : Instruction} (h : j ∈ interp.namedByStep env s i) :
    j.IsEntry := by
  cases i with
  | transfer recipient portions =>
    obtain ⟨p, -, hp⟩ := List.mem_flatMap.mp h
    exact isEntry_of_mem_namedByPortion hp
  | call payload bindings =>
    rcases List.mem_append.mp h with hread | hmoved
    · have hconsulted : j ∈ interp.consulted env [.call payload bindings] :=
        List.mem_flatMap.mpr ⟨_, List.mem_cons_self, hread⟩
      obtain ⟨token, rfl⟩ := eq_balance_of_consulted hconsulted
      trivial
    · split at hmoved
      · split at hmoved
        · rcases List.mem_pair.mp hmoved with rfl | rfl
          · trivial
          · trivial
        · cases hmoved
      · cases hmoved
  | spawn network salt version program portions =>
    obtain ⟨p, -, hp⟩ := List.mem_flatMap.mp h
    exact isEntry_of_mem_namedByPortion hp

theorem isEntry_of_mem_named {instructions : List Instruction}
    (h : j ∈ interp.named env instructions s) : j.IsEntry := by
  induction instructions generalizing s with
  | nil => cases h
  | cons i rest ih =>
    rcases List.mem_append.mp h with hfirst | hrest
    · exact isEntry_of_mem_namedByStep hfirst
    · obtain ⟨added, t, -, hmem⟩ := Script.mem_after hrest
      exact ih hmem

/-- With some instructions still to come there is room for as many owners as they have bytes, and
the entries that they name are counted. -/
structure Ready (interp : Interpreter) (env : Environment) (c : Census)
    (interpreters : Set Address) (rest : List Instruction) (s : σ) : Prop where
  canonical : Canonical c interpreters (Instruction.encodeAll rest).length s
  counted : ∀ i ∈ interp.named env rest s, i ∈ c.entries

end Named

variable {σ : Type} [Storage σ] [LawfulStorage σ] {interp : Interpreter} {env : Environment}
  {c : Census} {interpreters : Set Address} {room : Nat} {s t : σ}

open Script (Ends)
open ExecutionError (IsCorruption)

/-! ## Programs -/

omit [LawfulStorage σ] in
theorem keeps_balance {token holder : Address} (h : Canonical c interpreters room s)
    (hi : .balance token holder ∈ c.entries) :
    (onLedger (Ledger.balance token holder)).Ends IsCorruption s
      fun _ t => Canonical c interpreters room t := by
  have hread : (onLedger (Ledger.balance token holder)).Ends IsCorruption s fun _ t => t = s :=
    Script.ends_mapError.mpr (h.ends_readAt hi)
  refine hread.mono fun amount t _ ht => ?_
  rw [ht]
  exact h

omit [LawfulStorage σ] in
/-- What a payload is filled in with can all be read. -/
theorem keeps_resolvePayload {payload : Bytes} {bindings : List Binding}
    (h : Canonical c interpreters room s)
    (hnamed : ∀ i ∈ interp.consultedByStep env (.call payload bindings), i ∈ c.entries) :
    (resolvePayload (interp.liveValues env) payload bindings).Ends IsCorruption s
      fun _ t => Canonical c interpreters room t := by
  refine ends_resolvePayload (fun _ => .inr) h (fun _ _ => id) (fun _ _ _ _ _ _ _ => id)
    fun b hb asset share token t hvalue hhandle ht => keeps_balance ht (hnamed _ ?_)
  refine List.mem_filterMap.mpr ⟨b, hb, ?_⟩
  rw [hvalue]
  simp only [holding?, hhandle, Option.map_some]

variable (hknows : ∀ token, env.host.Knows token → token ∈ c.tokens)

include hknows

theorem keeps_withdraw {payee : Address} {p : Portion} (h : Canonical c interpreters room s)
    (hnamed : ∀ i ∈ interp.namedByPortion env payee p, i ∈ c.entries) :
    (interp.withdraw env payee p).Ends IsCorruption s
      fun _ t => Canonical c interpreters room t := by
  have hboth : ∀ token, env.host.assetHandle p.asset = some token →
      .balance token interp.address ∈ c.entries ∧ .balance token payee ∈ c.entries := by
    intro token hhandle
    rw [namedByPortion, hhandle] at hnamed
    exact ⟨hnamed _ (.head _), hnamed _ (.tail _ (.head _))⟩
  refine ends_withdraw (fun _ => .inr) (fun _ _ => id)
    (fun token hhandle => keeps_balance h (hboth token hhandle).1)
    fun token amount t hhandle ht => ?_
  exact ht.ends_transfer (hboth token hhandle).1 (hboth token hhandle).2
    (hknows token (.inl ⟨_, hhandle⟩)) amount

theorem keeps_withdrawals {payee : Address} {portions : List Portion}
    (h : Canonical c interpreters room s)
    (hnamed : ∀ i ∈ portions.flatMap (interp.namedByPortion env payee), i ∈ c.entries) :
    (portions.mapM (interp.withdraw env payee)).Ends IsCorruption s
      fun _ t => Canonical c interpreters room t :=
  Ends.mapM (Canonical c interpreters room)
    (fun p hp _ ht => keeps_withdraw hknows ht fun i hi =>
      hnamed i (List.mem_flatMap.mpr ⟨p, hp, hi⟩)) h

/-- **Receiving finds no corrupt entry.** -/
theorem keeps_receive {incoming : List (AssetId × UInt128)} (h : Canonical c interpreters room s)
    (hnamed : ∀ i ∈ (interp.receiveEffects env incoming).flatMap Effect.identities,
      i ∈ c.entries) :
    (interp.receive env incoming).Ends IsCorruption s
      fun _ t => Canonical c interpreters room t := by
  refine ends_receive (fun _ => .inr) h fun asset amount token t hmem hhandle ht => ?_
  have hmove : .move token env.relayer interp.address amount ∈
      interp.receiveEffects env incoming := by
    refine List.mem_filterMap.mpr ⟨(asset, amount), hmem, ?_⟩
    simp only [hhandle, Option.map_some]
  have hboth : ∀ i ∈ Effect.identities (.move token env.relayer interp.address amount),
      i ∈ c.entries := fun i hi => hnamed i (List.mem_flatMap.mpr ⟨_, hmove, hi⟩)
  exact ht.ends_transfer (hboth _ (.head _)) (hboth _ (.tail _ (.head _)))
    (hknows token (.inl ⟨asset, hhandle⟩)) amount

variable (hcontract : ∀ address, env.host.contract address = none)
  (hself : interp.address ∈ interpreters)

omit hknows in
include hself in
/-- A change of the interpreter's own owners uses up no more room than it has bytes. -/
theorem keeps_apply {calldata : Bytes} {change : OwnerCall}
    (h : Canonical c interpreters (calldata.length + room) s)
    (hdecode : Wire.decode calldata = .ok change) :
    (Owners.apply interp.address interp.address change).Ends IsCorruption s
      fun _ t => Canonical c interpreters room t := by
  obtain ⟨owners, -, hset, hsize⟩ := h.owners_of_mem hself
  have hgrow := OwnerCall.size_change_le hdecode owners
  have hlast : Canonical c (insert interp.address interpreters) room
      (Owners.setOwners s (Owners.key interp.address) (change.change owners)) :=
    h.setOwners (h.present _ hself).1 (by omega) (Nat.le_add_left _ _)
  rw [Set.insert_eq_of_mem hself] at hlast
  exact Ends.of_run (Owners.run_apply_eq_ok.mpr ⟨rfl, owners, hset, rfl⟩) hlast

include hcontract hself

/-- A call uses up no more room than its payload has bytes. -/
theorem keeps_call {payload : Bytes} {bindings : List Binding}
    (h : Canonical c interpreters (payload.length + room) s)
    (hnamed : ∀ i ∈ interp.namedByStep env s (.call payload bindings), i ∈ c.entries) :
    (interp.call env payload bindings).Ends IsCorruption s
      fun _ t => Canonical c interpreters room t := by
  have hresolve := keeps_resolvePayload h fun i hi => hnamed i (List.mem_append_left _ hi)
  refine ends_call (fun _ => .inr) (hresolve.mono fun _ _ _ _ => trivial)
    (fun resolved change t hrun hdecode => ?_)
    (fun resolved callee payee amount t hrun hfront hcallee htoken hdecode => ?_)
    fun resolved callee contract t hfound => ?_
  · obtain ⟨rfl, hlayout, values, hvalues, hresolved⟩ :=
      run_resolvePayload_eq_ok (fun _ _ _ h => run_held_reads h) hrun
    have hlength : resolved.length = payload.length := by
      rw [hresolved]
      exact length_splice (fills_of_resolve hvalues (checkLayout_eq_ok_iff.mp hlayout).1)
    refine keeps_apply hself (h.mono ?_) hdecode
    rw [List.length_drop, hlength]
    omega
  · have hcall : interp.tokenCall? env s (.call payload bindings) =
        some (callee, .transfer payee amount) := by
      simp only [tokenCall?, hrun, hfront, hdecode, if_neg hcallee, Except.toOption,
        Option.map_some]
    have hboth : ∀ i ∈ [Identity.balance callee interp.address, .balance callee payee],
        i ∈ c.entries := by
      intro i hi
      refine hnamed i (List.mem_append_right _ ?_)
      rw [hcall]
      dsimp only
      rw [if_pos htoken]
      exact hi
    have hroom : Canonical c interpreters room t :=
      (hresolve.of_run_ok hrun).mono (Nat.le_add_left _ _)
    exact hroom.ends_transfer (hboth _ (.head _)) (hboth _ (.tail _ (.head _)))
      (hknows callee (.inr htoken)) amount
  · rw [hcontract] at hfound
    cases hfound

/-- **An instruction finds no corrupt entry and uses up no more room than it has bytes.** -/
theorem keeps_step {i : Instruction} (h : Canonical c interpreters (i.encode.length + room) s)
    (hnamed : ∀ j ∈ interp.namedByStep env s i, j ∈ c.entries) :
    (interp.step env i).Ends IsCorruption s fun _ t => Canonical c interpreters room t := by
  have hroom : Canonical c interpreters room s := h.mono (Nat.le_add_left _ _)
  cases i with
  | transfer recipient portions =>
    exact (keeps_withdrawals hknows hroom hnamed).bind fun _ _ _ ht => Script.ends_pure.mpr ht
  | call payload bindings =>
    have hpayload := Instruction.length_payload_le payload bindings
    have hcall := keeps_call hknows hcontract hself (h.mono (Nat.add_le_add_right hpayload room))
      hnamed
    exact hcall.bind fun _ _ _ ht => Script.ends_pure.mpr ht
  | spawn network salt version program portions =>
    exact (keeps_withdrawals hknows hroom hnamed).bind fun _ _ _ ht => Script.ends_pure.mpr ht

/-- **Instructions in a row find no corrupt entry.** -/
theorem keeps_steps {instructions : List Instruction} {outcome : Outcome}
    (h : interp.Ready env c interpreters instructions s) :
    (interp.steps env instructions outcome).Ends IsCorruption s
      fun _ t => Canonical c interpreters 0 t := by
  have hsteps : (interp.steps env instructions outcome).Ends IsCorruption s
      fun _ t => interp.Ready env c interpreters [] t := by
    refine ends_steps (interp.Ready env c interpreters) (fun i rest t _ ht => ?_) h
    have hroom := ht.canonical
    rw [Instruction.encodeAll, List.length_append] at hroom
    have hstep := keeps_step hknows hcontract hself hroom fun j hj =>
      ht.counted j (List.mem_append_left _ hj)
    refine hstep.mono fun added u hrun hu => ⟨hu, fun j hj => ht.counted j ?_⟩
    refine List.mem_append_right _ ?_
    rw [Script.after_of_ok hrun]
    exact hj
  exact hsteps.mono fun _ _ _ hlast => hlast.canonical

end Crossnet.Interpreter
