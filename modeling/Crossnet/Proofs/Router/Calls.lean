import Crossnet.Router.History
import Crossnet.Proofs.Ledger.Holding
import Crossnet.Proofs.Router.Programs

/-!
# The calls of a router

Each call is told by one equivalence: when it ends well, and what it leaves.  A
call that fails leaves the router as it was.

* `registerAsset_eq_ok`, `mint_eq_ok` and the like: a call that ends well.
* `Call.perform_eq_ok`: `Performs` lists all that a call that ends well can do.
* `Call.safe_perform`: **a call that fails changes nothing.**
* `breaks_of_perform`: the calls that can fail over the store, and for what.
-/

namespace Crossnet.Router

variable {α β : Type} {r t : Router}

/-! ## The administrator's calls -/

/-- The calls that register something differ in the action, the update and the event. -/
theorem register_eq_ok {caller : Address} {action : Action}
    {update : Registry → Except RegistryError Registry} {event : RouterEvent} :
    (requireAdmin caller action >>= fun _ => updateRegistry update >>= fun _ => report event) r =
        .ok () t ↔
      caller = r.config.admin ∧ ∃ registry, update r.registry = .ok registry ∧
        t = { r with registry := registry, events := r.events ++ [event] } := by
  rw [bind_eq_ok]
  constructor
  · rintro ⟨⟨⟩, u, hadmin, h⟩
    obtain ⟨hadmin, rfl⟩ := requireAdmin_eq_ok.mp hadmin
    obtain ⟨⟨⟩, v, hupdate, hreport⟩ := bind_eq_ok.mp h
    obtain ⟨registry, hregistry, rfl⟩ := updateRegistry_eq_ok.mp hupdate
    cases hreport
    exact ⟨hadmin, registry, hregistry, rfl⟩
  · rintro ⟨hadmin, registry, hregistry, rfl⟩
    refine ⟨(), r, requireAdmin_eq_ok.mpr ⟨hadmin, rfl⟩, ?_⟩
    exact bind_eq_ok.mpr ⟨(), _, updateRegistry_eq_ok.mpr ⟨registry, hregistry, rfl⟩, rfl⟩

theorem safe_register (caller : Address) (action : Action)
    (update : Registry → Except RegistryError Registry) (event : RouterEvent) :
    Safe (requireAdmin caller action >>= fun _ => updateRegistry update >>= fun _ =>
      report event) :=
  (reads_requireAdmin caller action).bind_safe fun _ =>
    (safe_updateRegistry update).bind fun _ => succeeds_report event

theorem scriptless_register (caller : Address) (action : Action)
    (update : Registry → Except RegistryError Registry) (event : RouterEvent) :
    Scriptless (requireAdmin caller action >>= fun _ => updateRegistry update >>= fun _ =>
      report event) :=
  (scriptless_requireAdmin caller action).bind fun _ =>
    (scriptless_updateRegistry update).bind fun _ => (succeeds_report event).scriptless

theorem registerBridge_eq_ok {caller bridge : Address} {network : NetworkId} :
    registerBridge caller bridge network r = .ok () t ↔ caller = r.config.admin ∧
      t = { r with
        registry := r.registry.registerBridge network bridge
        events := r.events ++ [.bridgeRegistered network bridge] } := by
  refine register_eq_ok.trans (and_congr_right fun _ => ?_)
  constructor
  · rintro ⟨registry, hregistry, rfl⟩
    cases hregistry
    rfl
  · rintro rfl
    exact ⟨_, rfl, rfl⟩

theorem registerAsset_eq_ok {caller handle : Address} {asset : AssetId} :
    registerAsset caller handle asset r = .ok () t ↔ caller = r.config.admin ∧
      ∃ registry, r.registry.registerAsset handle asset = .ok registry ∧
        t = { r with
          registry := registry
          events := r.events ++ [.assetRegistered asset handle] } :=
  register_eq_ok

theorem registerContract_eq_ok {caller address : Address} {contract : Contract} :
    registerContract caller address contract r = .ok () t ↔ caller = r.config.admin ∧
      ∃ registry, r.registry.registerContract address contract = .ok registry ∧
        t = { r with
          registry := registry
          events := r.events ++ [.contractRegistered address] } :=
  register_eq_ok

theorem mint_eq_ok {caller holder : Address} {asset : AssetId} {amount : UInt128} :
    mint caller asset holder amount r = .ok () t ↔ caller = r.config.admin ∧
      ∃ token store, r.registry.assetHandle? asset = some token ∧
        (Ledger.credit token holder amount).run r.store = .ok () store ∧
        t = { r with store := store } := by
  unfold mint
  rw [bind_eq_ok]
  constructor
  · rintro ⟨⟨⟩, u, hadmin, h⟩
    obtain ⟨hadmin, rfl⟩ := requireAdmin_eq_ok.mp hadmin
    obtain ⟨token, v, htoken, hcredit⟩ := bind_eq_ok.mp h
    obtain ⟨hhandle, rfl⟩ := token_eq_ok.mp htoken
    obtain ⟨store, hrun, rfl⟩ := onStore_eq_ok.mp hcredit
    exact ⟨hadmin, token, store, hhandle, Script.run_mapError_eq_ok.mp hrun, rfl⟩
  · rintro ⟨hadmin, token, store, hhandle, hrun, rfl⟩
    refine ⟨(), r, requireAdmin_eq_ok.mpr ⟨hadmin, rfl⟩, ?_⟩
    refine bind_eq_ok.mpr ⟨token, r, token_eq_ok.mpr ⟨hhandle, rfl⟩, ?_⟩
    exact onStore_eq_ok.mpr ⟨store, Script.run_mapError_eq_ok.mpr hrun, rfl⟩

/-! ## All calls -/

/-- What a call that ends well does: its conditions, its answer and the router after it. -/
inductive Performs (r : Router) : Call → Answer → Router → Prop
  | registerBridge {caller bridge : Address} {network : NetworkId}
      (hadmin : caller = r.config.admin) :
      Performs r (.registerBridge caller bridge network) .done
        { r with
          registry := r.registry.registerBridge network bridge
          events := r.events ++ [.bridgeRegistered network bridge] }
  | registerAsset {caller handle : Address} {asset : AssetId} {registry : Registry}
      (hadmin : caller = r.config.admin)
      (hregistry : r.registry.registerAsset handle asset = .ok registry) :
      Performs r (.registerAsset caller handle asset) .done
        { r with
          registry := registry
          events := r.events ++ [.assetRegistered asset handle] }
  | registerContract {caller address : Address} {contract : Contract} {registry : Registry}
      (hadmin : caller = r.config.admin)
      (hregistry : r.registry.registerContract address contract = .ok registry) :
      Performs r (.registerContract caller address contract) .done
        { r with
          registry := registry
          events := r.events ++ [.contractRegistered address] }
  | mint {caller holder token : Address} {asset : AssetId} {amount : UInt128} {store : Store}
      (hadmin : caller = r.config.admin)
      (htoken : r.registry.assetHandle? asset = some token)
      (hcredit : (Ledger.credit token holder amount).run r.store = .ok () store) :
      Performs r (.mint caller asset holder amount) .done { r with store := store }
  | createInterpreter {origin : Origin} :
      Performs r (.createInterpreter origin) (.address origin.interpreterAddress)
        (r.created origin)
  | runProgram {caller : Address} {origin : Origin} {bytes : Bytes} {assets : List AssetId}
      {amounts : List UInt128} {program : Program} {outcome : Outcome} {store : Store}
      (hbridge : r.registry.bridge? origin.network = some caller)
      (hlength : assets.length = amounts.length)
      (haccept : Program.accept bytes = .ok program)
      (hassets : ∀ asset ∈ assets, (r.registry.assetHandle? asset).isSome)
      (hrun : (programScript (.ofOrigin origin) (r.environment caller)
        (!r.hasInterpreter origin) program (assets.zip amounts)).run r.store =
          .ok outcome store) :
      Performs r (.runProgram caller origin bytes assets amounts) (.outcome outcome)
        (r.delivered origin program outcome store)
  | takeEvents : Performs r .takeEvents (.events r.events) { r with events := [] }

/-- A call that ends well answers what its last part makes of the answer of the call. -/
theorem bind_pure_eq_ok {x : RouterM α} {f : α → β} {b : β} :
    (x >>= fun a => pure (f a)) r = .ok b t ↔ ∃ a, x r = .ok a t ∧ f a = b := by
  rw [bind_eq_ok]
  constructor
  · rintro ⟨a, u, hx, hdone⟩
    cases hdone
    exact ⟨a, hx, rfl⟩
  · rintro ⟨a, hx, rfl⟩
    exact ⟨a, t, hx, rfl⟩

/-- **A call ends well exactly when it does what `Performs` lists.** -/
theorem Call.perform_eq_ok {call : Call} {answer : Answer} :
    call.perform r = .ok answer t ↔ Performs r call answer t := by
  constructor
  · intro h
    cases call with
    | registerBridge caller bridge network =>
      obtain ⟨⟨⟩, hcall, rfl⟩ := bind_pure_eq_ok.mp h
      obtain ⟨hadmin, rfl⟩ := registerBridge_eq_ok.mp hcall
      exact .registerBridge hadmin
    | registerAsset caller handle asset =>
      obtain ⟨⟨⟩, hcall, rfl⟩ := bind_pure_eq_ok.mp h
      obtain ⟨hadmin, registry, hregistry, rfl⟩ := registerAsset_eq_ok.mp hcall
      exact .registerAsset hadmin hregistry
    | registerContract caller address contract =>
      obtain ⟨⟨⟩, hcall, rfl⟩ := bind_pure_eq_ok.mp h
      obtain ⟨hadmin, registry, hregistry, rfl⟩ := registerContract_eq_ok.mp hcall
      exact .registerContract hadmin hregistry
    | mint caller asset holder amount =>
      obtain ⟨⟨⟩, hcall, rfl⟩ := bind_pure_eq_ok.mp h
      obtain ⟨hadmin, token, store, htoken, hcredit, rfl⟩ := mint_eq_ok.mp hcall
      exact .mint hadmin htoken hcredit
    | createInterpreter origin =>
      obtain ⟨address, hcall, rfl⟩ := bind_pure_eq_ok.mp h
      rw [createInterpreter_eq] at hcall
      cases hcall
      exact .createInterpreter
    | runProgram caller origin bytes assets amounts =>
      obtain ⟨outcome, hcall, rfl⟩ := bind_pure_eq_ok.mp h
      obtain ⟨hbridge, hlength, program, haccept, hassets, store, hrun, rfl⟩ :=
        runProgram_eq_ok.mp hcall
      exact .runProgram hbridge hlength haccept hassets hrun
    | addOwners caller origin owners => cases h
    | removeOwners caller origin owners => cases h
    | takeEvents =>
      cases h
      exact .takeEvents
  · intro h
    cases h with
    | registerBridge hadmin =>
      exact bind_pure_eq_ok.mpr ⟨(), registerBridge_eq_ok.mpr ⟨hadmin, rfl⟩, rfl⟩
    | registerAsset hadmin hregistry =>
      exact bind_pure_eq_ok.mpr ⟨(), registerAsset_eq_ok.mpr ⟨hadmin, _, hregistry, rfl⟩, rfl⟩
    | registerContract hadmin hregistry =>
      exact bind_pure_eq_ok.mpr ⟨(), registerContract_eq_ok.mpr ⟨hadmin, _, hregistry, rfl⟩, rfl⟩
    | mint hadmin htoken hcredit =>
      exact bind_pure_eq_ok.mpr
        ⟨(), mint_eq_ok.mpr ⟨hadmin, _, _, htoken, hcredit, rfl⟩, rfl⟩
    | createInterpreter => exact bind_pure_eq_ok.mpr ⟨_, createInterpreter_eq _ _, rfl⟩
    | runProgram hbridge hlength haccept hassets hrun =>
      exact bind_pure_eq_ok.mpr
        ⟨_, runProgram_eq_ok.mpr ⟨hbridge, hlength, _, haccept, hassets, _, hrun, rfl⟩, rfl⟩
    | takeEvents => rfl

/-! ## Failures -/

/-- **A call that fails changes nothing.** -/
theorem Call.safe_perform (call : Call) : Safe call.perform := by
  have hdone : ∀ {x : RouterM Unit}, Safe x → Safe (x >>= fun _ => pure Answer.done) :=
    fun hx => hx.bind fun _ => Succeeds.pure _
  cases call with
  | registerBridge caller bridge network => exact hdone (safe_register _ _ _ _)
  | registerAsset caller handle asset => exact hdone (safe_register _ _ _ _)
  | registerContract caller address contract => exact hdone (safe_register _ _ _ _)
  | mint caller asset holder amount =>
    have hcredit : ∀ token,
        Safe (onStore ((Ledger.credit token holder amount).mapError .ledger)) := by
      intro token
      refine safe_onStore fun h => ?_
      obtain ⟨e, hfail, -⟩ := Script.run_mapError_eq_error.mp h
      exact Ledger.run_credit_of_error hfail
    exact hdone ((reads_requireAdmin _ _).bind_safe fun _ =>
      (reads_token asset).bind_safe fun token => hcredit token)
  | createInterpreter origin =>
    intro r e t h
    rcases bind_eq_error.mp h with h | ⟨address, u, -, h⟩
    · rw [createInterpreter_eq] at h
      cases h
    · cases h
  | runProgram caller origin program assets amounts =>
    exact (safe_runProgram _ _ _ _ _).bind fun _ => Succeeds.pure _
  | addOwners caller origin owners => exact hdone (Reads.throw _).1
  | removeOwners caller origin owners => exact hdone (Reads.throw _).1
  | takeEvents =>
    intro r e t h
    cases h

theorem Call.result_of_error {call : Call} {r : Router} {e : RouterError}
    (h : (call.result r).1 = .error e) : (call.result r).2 = r := by
  unfold result at h ⊢
  cases hrun : call.perform r with
  | ok answer after =>
    rw [hrun] at h
    cases h
  | error d after =>
    show after = r
    exact call.safe_perform hrun

theorem Call.result_of_ok {call : Call} {r : Router} {answer : Answer}
    (h : (call.result r).1 = .ok answer) : Performs r call answer (call.result r).2 := by
  rw [← perform_eq_ok]
  unfold result at h ⊢
  cases hrun : call.perform r with
  | ok found after =>
    rw [hrun] at h
    cases h
    rfl
  | error e after =>
    rw [hrun] at h
    cases h

/-- The calls that run a script on the store which fails, and what it fails for. -/
inductive Breaks (r : Router) : Call → ExecutionError → Prop
  | mint {caller holder token : Address} {asset : AssetId} {amount : UInt128}
      {cause : LedgerError} {store : Store} (htoken : r.registry.assetHandle? asset = some token)
      (hcredit : (Ledger.credit token holder amount).run r.store = .error cause store) :
      Breaks r (.mint caller asset holder amount) (.ledger cause)
  | runProgram {caller : Address} {origin : Origin} {bytes : Bytes} {assets : List AssetId}
      {amounts : List UInt128} {program : Program} {cause : ExecutionError} {store : Store}
      (haccept : Program.accept bytes = .ok program)
      (hrun : (programScript (.ofOrigin origin) (r.environment caller)
        (!r.hasInterpreter origin) program (assets.zip amounts)).run r.store =
          .error cause store) :
      Breaks r (.runProgram caller origin bytes assets amounts) cause

/-- **Only mints and programs fail over the store.** -/
theorem breaks_of_perform {call : Call} {cause : ExecutionError}
    (h : call.perform r = .error (.execution cause) t) : Breaks r call cause := by
  have hdone : ∀ {α : Type} {x : RouterM α} {f : α → Answer},
      (x >>= fun a => pure (f a)) r = .error (.execution cause) t →
        x r = .error (.execution cause) t := by
    intro α x f h
    rcases bind_eq_error.mp h with hfail | ⟨a, u, -, hfail⟩
    · exact hfail
    · cases hfail
  cases call with
  | registerBridge => exact absurd (hdone h) (scriptless_register _ _ _ _ · )
  | registerAsset => exact absurd (hdone h) (scriptless_register _ _ _ _ · )
  | registerContract => exact absurd (hdone h) (scriptless_register _ _ _ _ · )
  | mint caller asset holder amount =>
    rcases bind_eq_error.mp (hdone h) with hadmin | ⟨done, u, hadmin, hmint⟩
    · exact absurd hadmin (scriptless_requireAdmin _ _ · )
    · obtain ⟨-, rfl⟩ := requireAdmin_eq_ok.mp hadmin
      rcases bind_eq_error.mp hmint with htoken | ⟨token, v, htoken, hcredit⟩
      · exact absurd htoken (scriptless_token _ · )
      · obtain ⟨hhandle, rfl⟩ := token_eq_ok.mp htoken
        unfold onStore at hcredit
        cases hrun :
          ((Ledger.credit token holder amount).mapError ExecutionError.ledger).run v.store with
        | ok done store =>
          rw [hrun] at hcredit
          cases hcredit
        | error e store =>
          rw [hrun] at hcredit
          cases hcredit
          obtain ⟨e, hfail, rfl⟩ := Script.run_mapError_eq_error.mp hrun
          exact .mint hhandle hfail
  | createInterpreter origin =>
    have hcall := hdone h
    rw [createInterpreter_eq] at hcall
    cases hcall
  | runProgram caller origin bytes assets amounts =>
    obtain ⟨-, hrefuses⟩ := refuses_of_runProgram (hdone h)
    cases hrefuses with
    | execution hbridge hlength haccept hfind hrun => exact .runProgram haccept hrun
  | addOwners => cases h
  | removeOwners => cases h
  | takeEvents => cases h

/-! ## Queries -/

theorem query_eq_ok {α : Type} {script : Script ExecutionError α} {a : α} :
    r.query script = .ok a ↔ ∃ s, script.run r.store = .ok a s := by
  unfold query
  cases script.run r.store with
  | ok b s =>
    constructor
    · intro h
      cases h
      exact ⟨s, rfl⟩
    · rintro ⟨s, h⟩
      cases h
      rfl
  | error e s =>
    constructor
    · intro h
      cases h
    · rintro ⟨s, h⟩
      cases h

end Crossnet.Router
