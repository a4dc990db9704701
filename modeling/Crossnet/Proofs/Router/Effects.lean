import Crossnet.Proofs.Interpreter.Effects
import Crossnet.Proofs.Router.Moments

/-!
# The effects of a run

The effects of a call that ends well are read off the call and the router before
it; a call that fails has none.  As long as no contract is registered, these are
all that happens to the store.

* `Moment.mem_effects`, `mem_delivery`: which calls have effects, and which ones.
* `leads_of_moment`: **a call does its effects to the store, and nothing else.**
* `leads_of_history`: so does a run.
-/

namespace Crossnet.Router

open Effect (Leads)

/-! ## Effects of calls -/

/-- What comes before the instructions of a delivered program: the first owner of a new interpreter
is set, and the incoming assets are received. -/
def opening (r : Router) (caller : Address) (origin : Origin)
    (incoming : List (AssetId × UInt128)) : Script ExecutionError Unit := do
  if !r.hasInterpreter origin then
    Owners.init origin.interpreterAddress origin.account
  (Interpreter.ofOrigin origin).receive (r.environment caller) incoming

/-- The effect of creating an interpreter that was not created yet. -/
def foundEffects (r : Router) (origin : Origin) : List Effect :=
  if r.hasInterpreter origin then [] else [.found origin.interpreterAddress origin.account]

theorem mem_foundEffects {r : Router} {origin : Origin} {e : Effect}
    (h : e ∈ r.foundEffects origin) : e = .found origin.interpreterAddress origin.account := by
  unfold foundEffects at h
  split at h
  · cases h
  · exact List.mem_singleton.mp h

/-- What comes of a delivered program, instruction after instruction, if it is accepted and its
opening ends well. -/
def afterOpening {β : Type} (r : Router) (caller : Address) (origin : Origin) (bytes : Bytes)
    (incoming : List (AssetId × UInt128))
    (next : Interpreter → Environment → List Instruction → Store → List β) : List β :=
  match Program.accept bytes with
  | .ok program =>
    (r.opening caller origin incoming).after r.store fun _ s =>
      next (.ofOrigin origin) (r.environment caller) program.instructions s
  | .error _ => []

/-- The effects of a call that ends well. -/
def Call.effects (r : Router) : Call → List Effect
  | mint _ asset holder amount =>
    ((r.registry.assetHandle? asset).map fun token => .credit token holder amount).toList
  | createInterpreter origin => r.foundEffects origin
  | runProgram caller origin bytes assets amounts =>
    r.foundEffects origin ++
      (Interpreter.ofOrigin origin).receiveEffects (r.environment caller) (assets.zip amounts) ++
      r.afterOpening caller origin bytes (assets.zip amounts) Interpreter.stepsEffects
  | _ => []

namespace Moment

/-- The effects of a call: none if it fails. -/
def effects (m : Moment) : List Effect :=
  if m.answer.isOk then m.call.effects m.before else []

theorem effects_of_not_isOk {m : Moment} (h : m.answer.isOk = false) : m.effects = [] := by
  rw [effects, h]
  rfl

theorem effects_of_isOk {m : Moment} (h : m.answer.isOk = true) :
    m.effects = m.call.effects m.before :=
  if_pos h

/-- Effects are those of a mint, of an interpreter that is created, or of a delivered program. -/
theorem mem_effects {m : Moment} {e : Effect} (h : e ∈ m.effects) :
    m.answer.isOk = true ∧
      ((∃ token holder amount, e = .credit token holder amount) ∨
        (∃ origin, m.call = .createInterpreter origin ∧
          e = .found origin.interpreterAddress origin.account) ∨
        ∃ caller origin bytes assets amounts,
          m.call = .runProgram caller origin bytes assets amounts) := by
  cases hok : m.answer.isOk with
  | false =>
    rw [effects_of_not_isOk hok] at h
    cases h
  | true =>
    rw [effects_of_isOk hok] at h
    refine ⟨rfl, ?_⟩
    obtain ⟨before, call⟩ := m
    cases call with
    | mint caller asset holder amount =>
      obtain ⟨token, -, rfl⟩ := Option.mem_map.mp (Option.mem_toList.mp h)
      exact .inl ⟨token, holder, amount, rfl⟩
    | createInterpreter origin => exact .inr (.inl ⟨origin, rfl, mem_foundEffects h⟩)
    | runProgram caller origin bytes assets amounts =>
      exact .inr (.inr ⟨caller, origin, bytes, assets, amounts, rfl⟩)
    | registerBridge => cases h
    | registerAsset => cases h
    | registerContract => cases h
    | addOwners => cases h
    | removeOwners => cases h
    | takeEvents => cases h

end Moment

/-- The entries that a run reads and writes. -/
def used (r : Router) (calls : List Call) : List Identity :=
  ((history r calls).flatMap Moment.effects).flatMap Effect.identities

theorem used_append (r : Router) (xs ys : List Call) :
    used r (xs ++ ys) = used r xs ++ used (replay r xs).2 ys := by
  unfold used
  rw [history_append, List.flatMap_append, List.flatMap_append]

theorem isEntry_of_mem_used {r : Router} {calls : List Call} {i : Identity}
    (h : i ∈ used r calls) : i.IsEntry := by
  obtain ⟨e, -, hi⟩ := List.mem_flatMap.mp h
  exact Effect.isEntry_of_mem hi

/-! ## Whom the effects of calls concern -/

theorem mem_afterOpening {β : Type} {r : Router} {caller : Address} {origin : Origin}
    {bytes : Bytes} {incoming : List (AssetId × UInt128)}
    {next : Interpreter → Environment → List Instruction → Store → List β} {b : β}
    (h : b ∈ r.afterOpening caller origin bytes incoming next) :
    ∃ program s, Program.accept bytes = .ok program ∧
      b ∈ next (.ofOrigin origin) (r.environment caller) program.instructions s := by
  unfold afterOpening at h
  cases haccept : Program.accept bytes with
  | ok program =>
    rw [haccept] at h
    obtain ⟨-, s, -, hmem⟩ := Script.mem_after h
    exact ⟨program, s, rfl, hmem⟩
  | error e =>
    rw [haccept] at h
    cases h

/-- A delivered program sets the first owner of its own interpreter, moves incoming assets from the
bridge, moves assets of the interpreter, and changes the interpreter's owners. -/
theorem mem_delivery {r : Router} {caller : Address} {origin : Origin} {bytes : Bytes}
    {assets : List AssetId} {amounts : List UInt128} {e : Effect}
    (h : e ∈ Call.effects r (.runProgram caller origin bytes assets amounts)) :
    e = .found origin.interpreterAddress origin.account ∨
      (∃ asset amount token, (asset, amount) ∈ assets.zip amounts ∧
        r.registry.assetHandle? asset = some token ∧
        e = .move token caller origin.interpreterAddress amount) ∨
      (∃ token payee amount, e = .move token origin.interpreterAddress payee amount) ∨
      ∃ call, e = .manage origin.interpreterAddress call := by
  rcases List.mem_append.mp h with h | h
  · rcases List.mem_append.mp h with h | h
    · exact .inl (mem_foundEffects h)
    · exact .inr (.inl (Interpreter.mem_receiveEffects h))
  · obtain ⟨program, s, -, hmem⟩ := mem_afterOpening h
    exact .inr (.inr (Interpreter.mem_stepsEffects hmem))

/-! ## Where calls lead -/

variable {r : Router} {origin : Origin} {caller : Address}

theorem programScript_eq (r : Router) (caller : Address) (origin : Origin) (program : Program)
    (incoming : List (AssetId × UInt128)) :
    programScript (.ofOrigin origin) (r.environment caller) (!r.hasInterpreter origin) program
        incoming =
      r.opening caller origin incoming >>= fun _ =>
        (Interpreter.ofOrigin origin).steps (r.environment caller) program.instructions .empty := by
  unfold programScript opening Interpreter.run
  cases r.hasInterpreter origin with
  | true => rfl
  | false =>
    show (_ >>= fun _ => _ >>= fun _ => _) = (_ >>= fun _ => _) >>= fun _ => _
    rw [bind_assoc]
    rfl

theorem leads_foundEffects (r : Router) (origin : Origin) :
    Leads (r.foundEffects origin) r.store (r.created origin).store := by
  unfold foundEffects created
  cases r.hasInterpreter origin with
  | true => rfl
  | false => exact Effect.leads_singleton.mpr (Owners.run_init _ _ _)

theorem leads_opening {incoming : List (AssetId × UInt128)} {s : Store}
    (h : (r.opening caller origin incoming).run r.store = .ok () s) :
    Leads (r.foundEffects origin ++
      (Interpreter.ofOrigin origin).receiveEffects (r.environment caller) incoming) r.store s := by
  refine Effect.leads_append.mpr ⟨_, leads_foundEffects r origin, ?_⟩
  unfold opening at h
  unfold created
  cases hnew : r.hasInterpreter origin with
  | true =>
    rw [hnew] at h
    exact Interpreter.leads_receive h
  | false =>
    rw [hnew] at h
    obtain ⟨⟨⟩, u, hinit, hreceive⟩ := Script.run_bind_eq_ok.mp h
    cases hinit
    exact Interpreter.leads_receive hreceive

theorem contract?_eq_none (h : r.registry.contracts = []) (address : Address) :
    r.registry.contract? address = none := by
  rw [Registry.contract?, h]
  rfl

/-- **A call does its effects to the store, and nothing else**, where no contract is registered. -/
theorem leads_of_moment {m : Moment} (hcontracts : m.before.registry.contracts = []) :
    Leads m.effects m.before.store m.after.store := by
  rcases m.after_cases with ⟨hfail, heq⟩ | ⟨hok, answer, hperforms⟩
  · rw [Moment.effects_of_not_isOk hfail, heq]
    rfl
  · rw [Moment.effects_of_isOk hok]
    obtain ⟨r, call⟩ := m
    generalize Moment.after ⟨r, call⟩ = t at hperforms ⊢
    cases hperforms with
    | registerBridge => rfl
    | registerAsset => rfl
    | registerContract => rfl
    | mint _ htoken hcredit =>
      rw [Call.effects, htoken]
      exact Effect.leads_singleton.mpr (Script.run_mapError_eq_ok.mpr hcredit)
    | createInterpreter => exact leads_foundEffects r _
    | runProgram _ _ haccept _ hrun =>
      rw [programScript_eq] at hrun
      obtain ⟨⟨⟩, s, hopening, hsteps⟩ := Script.run_bind_eq_ok.mp hrun
      rw [Call.effects, afterOpening, haccept]
      refine Effect.leads_append.mpr ⟨s, leads_opening hopening, ?_⟩
      dsimp only
      rw [Script.after_of_ok hopening]
      exact Interpreter.leads_steps (contract?_eq_none hcontracts) hsteps
    | takeEvents => rfl

/-- **A run does the effects of its calls to the store, and nothing else.** -/
theorem leads_of_history {calls : List Call}
    (hcontracts : (replay r calls).2.registry.contracts = []) :
    Leads ((history r calls).flatMap Moment.effects) r.store (replay r calls).2.store := by
  induction calls generalizing r with
  | nil => rfl
  | cons call rest ih =>
    have hlater := (later_replay r (call :: rest)).registry
    exact Effect.leads_append.mpr
      ⟨_, leads_of_moment (hlater.contracts_eq_nil hcontracts), ih hcontracts⟩

/-! ## Moments of a run without contracts -/

section Moments

variable {calls : List Call} {m : Moment} (hm : m ∈ history r calls)

include hm

theorem identities_subset_used : m.effects.flatMap Effect.identities ⊆ used r calls := by
  intro i hi
  obtain ⟨e, he, hi⟩ := List.mem_flatMap.mp hi
  exact List.mem_flatMap.mpr ⟨e, List.mem_flatMap.mpr ⟨m, hm, he⟩, hi⟩

variable (hcontracts : (replay r calls).2.registry.contracts = [])

include hcontracts

theorem contracts_before_eq_nil : m.before.registry.contracts = [] :=
  ((later_after m).trans (later_of_mem_history hm)).registry.contracts_eq_nil hcontracts

/-- A moment is reached by effects on entries that the run uses. -/
theorem leads_to_moment :
    ∃ es, Leads es r.store m.before.store ∧ es.flatMap Effect.identities ⊆ used r calls := by
  have hbefore := contracts_before_eq_nil hm hcontracts
  obtain ⟨front, back, rfl, hfront⟩ := mem_history.mp hm
  rw [hfront] at hbefore ⊢
  refine ⟨_, leads_of_history hbefore, ?_⟩
  rw [used_append]
  exact List.subset_append_left _ _

end Moments

end Crossnet.Router
