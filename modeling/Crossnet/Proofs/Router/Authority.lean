import Crossnet.Proofs.Router.Moments

/-!
# Calls without authority

Who may make a call is read off the calls before it alone: the administrator is
fixed, and the bridge of a network is the one that the administrator registered
last.  A call without authority is refused before anything else is looked at, so a
run goes as if it had not been made.

* `Call.isPermitted`: whether a call is made with authority, after some calls.
* `Heeds.after`: **the router always knows who has authority.**
* `result_of_not_isPermitted`: a call without authority is refused, whatever is in
  it.
* `unauthorized_calls_leave_no_trace`: **a run without those calls gives the same
  answers to the others and ends in the same router.**
-/

namespace Crossnet.Router

/-! ## Who may make a call -/

/-- The bridge that the call registers for a network, if it is one of the administrator's. -/
def Call.bridge? (admin : Address) (network : NetworkId) : Call → Option Address
  | registerBridge caller bridge served =>
    if caller = admin ∧ served = network then some bridge else none
  | _ => none

/-- The bridge that the administrator registered last for a network. -/
def lastBridge? (admin : Address) (network : NetworkId) (calls : List Call) : Option Address :=
  calls.foldl (fun last call => (call.bridge? admin network).or last) none

/-- Whether the call is made with authority, after some calls. -/
def Call.isPermitted (admin : Address) (front : List Call) : Call → Bool
  | registerBridge caller _ _ => caller = admin
  | registerAsset caller _ _ => caller = admin
  | registerContract caller _ _ => caller = admin
  | mint caller _ _ _ => caller = admin
  | createInterpreter _ => true
  | runProgram caller origin _ _ _ => lastBridge? admin origin.network front = some caller
  | addOwners .. => false
  | removeOwners .. => false
  | takeEvents => true

/-- What the call is refused with for want of authority, where it needs one. -/
def Call.refusal? : Call → Option RouterError
  | registerBridge caller _ _ => some (.unauthorized caller .registerBridges)
  | registerAsset caller _ _ => some (.unauthorized caller .registerAssets)
  | registerContract caller _ _ => some (.unauthorized caller .registerContracts)
  | mint caller _ _ _ => some (.unauthorized caller .mint)
  | createInterpreter _ => none
  | runProgram caller _ _ _ _ => some (.unauthorized caller .deliverPrograms)
  | addOwners caller _ _ => some (.unauthorized caller .manageOwners)
  | removeOwners caller _ _ => some (.unauthorized caller .manageOwners)
  | takeEvents => none

/-- Which calls of a run are made with authority, where some calls come before it. -/
def authority (admin : Address) : (front : List Call) → List Call → List Bool
  | _, [] => []
  | front, call :: rest => call.isPermitted admin front :: authority admin (front ++ [call]) rest

/-- The members of a list whose place is marked. -/
def select {α : Type} (marks : List Bool) (xs : List α) : List α :=
  ((marks.zip xs).filter Prod.fst).map Prod.snd

@[simp] theorem select_cons_true {α : Type} (marks : List Bool) (x : α) (xs : List α) :
    select (true :: marks) (x :: xs) = x :: select marks xs := rfl

@[simp] theorem select_cons_false {α : Type} (marks : List Bool) (x : α) (xs : List α) :
    select (false :: marks) (x :: xs) = select marks xs := rfl

/-! ## What the router knows of it -/

variable {admin : Address} {front : List Call} {r : Router}

theorem lastBridge?_concat (admin : Address) (network : NetworkId) (front : List Call)
    (call : Call) : lastBridge? admin network (front ++ [call]) =
      (call.bridge? admin network).or (lastBridge? admin network front) := by
  rw [lastBridge?, List.foldl_append]
  rfl

/-- After some calls the router knows the administrator and the bridges that they registered
last. -/
structure Heeds (admin : Address) (front : List Call) (r : Router) : Prop where
  admin_eq : r.config.admin = admin
  bridge_eq : ∀ network, r.registry.bridge? network = lastBridge? admin network front

theorem heeds_of_create {config : RouterConfig} {store : Store}
    (h : create config store = .ok r) : Heeds config.admin [] r := by
  obtain ⟨-, rfl⟩ := create_eq_ok.mp h
  exact ⟨rfl, fun _ => rfl⟩

/-- Only a registration of a bridge changes what the registry says of bridges. -/
theorem bridge?_of_performs {call : Call} {answer : Answer} {t : Router}
    (h : Performs r call answer t) (network : NetworkId) :
    t.registry.bridge? network =
      (call.bridge? r.config.admin network).or (r.registry.bridge? network) := by
  cases h with
  | @registerBridge caller bridge served hadmin =>
    rw [Registry.bridge?_registerBridge, Call.bridge?]
    by_cases hnetwork : served = network
    · rw [if_pos hnetwork, if_pos ⟨hadmin, hnetwork⟩]
      rfl
    · rw [if_neg hnetwork, if_neg fun h => hnetwork h.2]
      rfl
  | registerAsset _ hregistry =>
    obtain ⟨-, -, -, rfl⟩ := Registry.registerAsset_eq_ok.mp hregistry
    rfl
  | registerContract _ hregistry =>
    obtain ⟨-, -, rfl⟩ := Registry.registerContract_eq_ok.mp hregistry
    rfl
  | mint => rfl
  | createInterpreter =>
    unfold created
    split
    · rfl
    · rfl
  | runProgram => rfl
  | takeEvents => rfl

/-- **The router always knows who has authority.** -/
theorem Heeds.after (h : Heeds admin front r) (call : Call) :
    Heeds admin (front ++ [call]) (Moment.after ⟨r, call⟩) := by
  have hadmin : (Moment.after ⟨r, call⟩).config.admin = admin := by
    rw [(later_after ⟨r, call⟩).config, h.admin_eq]
  refine ⟨hadmin, fun network => ?_⟩
  rw [lastBridge?_concat, ← h.bridge_eq]
  rcases Moment.after_cases ⟨r, call⟩ with ⟨hfail, hafter⟩ | ⟨-, answer, hperforms⟩
  · -- What fails registers no bridge: the administrator's registrations end well.
    have hnone : call.bridge? admin network = none := by
      cases call with
      | registerBridge caller bridge served =>
        refine if_neg fun hboth => ?_
        have hok : (Call.registerBridge caller bridge served).perform r = .ok .done _ :=
          Call.perform_eq_ok.mpr (.registerBridge (hboth.1.trans h.admin_eq.symm))
        unfold Moment.answer Call.result at hfail
        rw [hok] at hfail
        cases hfail
      | _ => rfl
    rw [hafter, hnone]
    rfl
  · rw [bridge?_of_performs hperforms, h.admin_eq]

/-! ## Refusals -/

theorem requireAdmin_of_ne {caller : Address} {action : Action} (h : caller ≠ r.config.admin) :
    requireAdmin caller action r = .error (.unauthorized caller action) r := by
  refine (bind_of_ok (x := MonadState.get) rfl _).trans ?_
  rw [if_pos h]
  rfl

/-- **A call without authority is refused**, whatever is in it. -/
theorem result_of_not_isPermitted (h : Heeds admin front r) {call : Call}
    (hcall : call.isPermitted admin front = false) :
    ∃ e, call.refusal? = some e ∧ call.result r = (.error e, r) := by
  have hperform : ∀ {e}, call.perform r = .error e r → call.result r = (.error e, r) := by
    intro e hfail
    unfold Call.result
    rw [hfail]
  -- The administrator's calls begin with the same check.
  have hadmin : ∀ {caller action} {next : Unit → RouterM Unit},
      decide (caller = admin) = false →
      ((requireAdmin caller action >>= next) >>= fun _ => pure Answer.done) r =
        .error (.unauthorized caller action) r := by
    intro caller action next hne
    rw [decide_eq_false_iff_not, ← h.admin_eq] at hne
    exact bind_of_error (bind_of_error (requireAdmin_of_ne hne) _) _
  cases call with
  | registerBridge caller bridge network => exact ⟨_, rfl, hperform (hadmin hcall)⟩
  | registerAsset caller handle asset => exact ⟨_, rfl, hperform (hadmin hcall)⟩
  | registerContract caller address contract => exact ⟨_, rfl, hperform (hadmin hcall)⟩
  | mint caller asset holder amount => exact ⟨_, rfl, hperform (hadmin hcall)⟩
  | createInterpreter origin => cases hcall
  | runProgram caller origin program assets amounts =>
    have hbridge : r.registry.bridge? origin.network ≠ some caller := by
      rw [h.bridge_eq]
      exact decide_eq_false_iff_not.mp hcall
    have hrefused : Router.runProgram caller origin program assets amounts r =
        .error (.unauthorized caller .deliverPrograms) r := by
      rw [runProgram_eq, if_pos hbridge]
    exact ⟨_, rfl, hperform (bind_of_error hrefused _)⟩
  | addOwners caller origin owners => exact ⟨_, rfl, hperform rfl⟩
  | removeOwners caller origin owners => exact ⟨_, rfl, hperform rfl⟩
  | takeEvents => cases hcall

/-! ## Runs -/

theorem Heeds.replay (h : Heeds admin front r) (calls : List Call) :
    Heeds admin (front ++ calls) (Router.replay r calls).2 := by
  induction calls generalizing front r with
  | nil =>
    rw [List.append_nil]
    exact h
  | cons call rest ih =>
    have hrest := ih (h.after call)
    rw [List.append_assoc] at hrest
    exact hrest

theorem getElem?_replay {calls back : List Call} {call : Call} (h : calls = front ++ call :: back) :
    (replay r calls).1[front.length]? = some (call.result (replay r front).2).1 := by
  subst h
  induction front generalizing r with
  | nil => rfl
  | cons first front ih => exact ih

/-- A run without the calls that lack authority. -/
theorem replay_select (h : Heeds admin front r) (calls : List Call) :
    replay r (select (authority admin front calls) calls) =
      (select (authority admin front calls) (replay r calls).1, (replay r calls).2) := by
  induction calls generalizing front r with
  | nil => rfl
  | cons call rest ih =>
    have hrest := ih (h.after call)
    rw [authority]
    cases hcall : call.isPermitted admin front with
    | true =>
      show ((call.result r).1 :: (replay (call.result r).2 _).1, (replay (call.result r).2 _).2) = _
      exact congrArg (fun p => ((call.result r).1 :: p.1, p.2)) hrest
    | false =>
      obtain ⟨e, -, hresult⟩ := result_of_not_isPermitted h hcall
      have hafter : Moment.after ⟨r, call⟩ = r := congrArg Prod.snd hresult
      rw [hafter] at hrest
      have hwhole : replay r (call :: rest) =
          ((call.result r).1 :: (replay r rest).1, (replay r rest).2) := by
        show ((call.result r).1 :: (replay (call.result r).2 rest).1,
          (replay (call.result r).2 rest).2) = _
        rw [hresult]
      rw [hwhole, select_cons_false, select_cons_false]
      exact hrest

/-- **Calls without authority leave no trace.**  Of a run from a new router, each call that lacks
authority is refused for that, and the run without all of them gives every other call the same
answer and ends in the same router: the same store, registry, interpreters and events. -/
theorem unauthorized_calls_leave_no_trace {config : RouterConfig} {store : Store}
    (hcreate : create config store = .ok r) (calls : List Call) :
    (∀ {front back : List Call} {call : Call}, calls = front ++ call :: back →
      call.isPermitted config.admin front = false →
        ∃ e, call.refusal? = some e ∧ (replay r calls).1[front.length]? = some (.error e)) ∧
      replay r (select (authority config.admin [] calls) calls) =
        (select (authority config.admin [] calls) (replay r calls).1, (replay r calls).2) := by
  have hstart := heeds_of_create hcreate
  refine ⟨fun hcalls hcall => ?_, replay_select hstart calls⟩
  obtain ⟨e, hrefusal, hresult⟩ := result_of_not_isPermitted (hstart.replay _) hcall
  refine ⟨e, hrefusal, ?_⟩
  rw [getElem?_replay hcalls, hresult]

/-- Someone who registers what is not theirs to register. -/
def usurper : Address := ⟨.replicate 20 1⟩

/-- A bridge is replaced, and the old one and the new one go on calling. -/
def usurped : List Call :=
  [.registerBridge .zero .zero ⟨1⟩, .registerBridge usurper usurper ⟨1⟩,
    .mint usurper ⟨0⟩ usurper 5, .registerBridge .zero usurper ⟨1⟩,
    .runProgram .zero ⟨⟨1⟩, usurper⟩ [0] [⟨0⟩] [], .addOwners .zero ⟨⟨1⟩, .zero⟩ [usurper],
    .runProgram usurper ⟨⟨1⟩, usurper⟩ [] [⟨0⟩] []]

/-- Of the calls, the two registrations by the administrator and the last delivery are left. -/
theorem unauthorized_calls_leave_no_trace_usurped :
    authority .zero [] usurped = [true, false, false, true, false, false, true] ∧
      (replay fresh usurped).1[4]? = some (.error (.unauthorized .zero .deliverPrograms)) ∧
      (replay fresh [.registerBridge .zero .zero ⟨1⟩, .registerBridge .zero usurper ⟨1⟩,
        .runProgram usurper ⟨⟨1⟩, usurper⟩ [] [⟨0⟩] []]).2 = (replay fresh usurped).2 := by
  have hmarks : authority .zero [] usurped = [true, false, false, true, false, false, true] := by
    decide
  obtain ⟨hrefused, hrun⟩ := unauthorized_calls_leave_no_trace create_fresh usurped
  obtain ⟨e, hrefusal, hanswer⟩ := @hrefused (usurped.take 4) (usurped.drop 5)
    (.runProgram .zero ⟨⟨1⟩, usurper⟩ [0] [⟨0⟩] []) rfl (by decide)
  cases hrefusal
  refine ⟨hmarks, hanswer, ?_⟩
  have hshort := congrArg Prod.snd hrun
  rw [show fresh.config.admin = .zero from rfl, hmarks] at hshort
  exact hshort

end Crossnet.Router
