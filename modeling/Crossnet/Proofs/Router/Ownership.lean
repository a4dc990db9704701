import Crossnet.Proofs.Router.Deliveries

/-!
# Who owns an interpreter

An interpreter has no owners before it is created and its origin's account as
the only owner after that.  From then on its owners change in one way: a program
that is delivered for the same origin calls the interpreter through a binding of
its own address.

* `hasInterpreter_replay`: the interpreters are those of the origins that calls
  acted for.
* `filterMap_history`: the owner calls of a run are those among its effects.
* `effects_of_new`: the effects on the owners of a new interpreter are the first
  owner and then the owner calls.
* `owners_replay_of_new`, `owners_replay`: the owners at the end of a run are the
  first owner and the owner calls of the run in order.
* `owners_eq_fold`: **so it is, and no other call changes them.**
-/

namespace Crossnet.Router

variable {config : RouterConfig} {r : Router} {calls : List Call} {origin : Origin} {m : Moment}

namespace Moment

/-- Whether the call creates the interpreter of an origin or runs a program for it, and ends
well. -/
def actsFor (origin : Origin) (m : Moment) : Bool :=
  m.answer.isOk &&
    match m.call with
    | .createInterpreter o => o = origin
    | .runProgram _ o _ _ _ => o = origin
    | _ => false

/-- The owner calls of the program that is delivered for an origin and ends well. -/
def ownerCalls (origin : Origin) (m : Moment) : List OwnerCall :=
  if m.actsFor origin then
    match m.call with
    | .runProgram caller _ bytes assets amounts =>
      m.before.afterOpening caller origin bytes (assets.zip amounts) Interpreter.ownerCalls
    | _ => []
  else []

theorem ownerCalls_of_not_actsFor (h : m.actsFor origin = false) : m.ownerCalls origin = [] := by
  rw [ownerCalls, h]
  rfl

end Moment

/-- The owners of the origin's interpreter after changes to its first owner. -/
def ownersAfter (origin : Origin) (changes : List OwnerCall) : AddressSet :=
  changes.foldl (fun owners call => call.change owners) (Std.ExtTreeSet.ofList [origin.account])

/-- One owner who joins the first one is not too many. -/
theorem size_ownersAfter_lt {address : Address} {changes : List OwnerCall}
    (h : changes <+: [.add [address]]) : (ownersAfter origin changes).size < 2 ^ 64 := by
  rcases List.prefix_cons_iff.mp h with rfl | ⟨rest, rfl, hrest⟩
  · exact size_founder_lt origin
  · obtain rfl := List.prefix_nil.mp hrest
    exact size_joined_lt origin address

/-! ## Which interpreters there are -/

theorem hasInterpreter_eq_true_iff :
    r.hasInterpreter origin = true ↔ origin ∈ r.interpreters :=
  List.contains_iff_mem

theorem hasInterpreter_of_interpreters {t : Router} {o : Origin}
    (h : t.interpreters = if r.hasInterpreter o then r.interpreters else o :: r.interpreters) :
    t.hasInterpreter origin = (r.hasInterpreter origin || decide (o = origin)) := by
  rw [Bool.eq_iff_iff, Bool.or_eq_true, decide_eq_true_eq, hasInterpreter_eq_true_iff,
    hasInterpreter_eq_true_iff, h]
  by_cases ho : r.hasInterpreter o = true
  · rw [if_pos ho]
    constructor
    · exact .inl
    · rintro (hmem | rfl)
      · exact hmem
      · exact hasInterpreter_eq_true_iff.mp ho
  · rw [if_neg ho, List.mem_cons, or_comm, eq_comm]

/-- An interpreter is created by a call that acts for its origin. -/
theorem hasInterpreter_after (m : Moment) :
    m.after.hasInterpreter origin = (m.before.hasInterpreter origin || m.actsFor origin) := by
  rcases m.after_cases with ⟨hfail, heq⟩ | ⟨hok, answer, hperforms⟩
  · rw [heq, Moment.actsFor, hfail, Bool.false_and, Bool.or_false]
  · unfold Moment.actsFor
    rw [hok]
    obtain ⟨r, call⟩ := m
    generalize Moment.after ⟨r, call⟩ = t at hperforms ⊢
    cases hperforms with
    | createInterpreter =>
      refine hasInterpreter_of_interpreters ?_
      unfold created
      split <;> rfl
    | runProgram => exact hasInterpreter_of_interpreters rfl
    | registerBridge => exact (Bool.or_false _).symm
    | registerAsset => exact (Bool.or_false _).symm
    | registerContract => exact (Bool.or_false _).symm
    | mint => exact (Bool.or_false _).symm
    | takeEvents => exact (Bool.or_false _).symm

/-- There are the interpreters that there were and those that the run acted for. -/
theorem hasInterpreter_replay (r : Router) (calls : List Call) :
    (replay r calls).2.hasInterpreter origin =
      (r.hasInterpreter origin || (history r calls).any (Moment.actsFor origin)) := by
  induction calls generalizing r with
  | nil => exact (Bool.or_false _).symm
  | cons call rest ih =>
    rw [replay_cons, ih, hasInterpreter_after, history, List.any_cons, Bool.or_assoc]

/-- A new router has no interpreters, so a run's interpreters are those that it acted for. -/
theorem hasInterpreter_of_create {store : Store} (hcreate : create config store = .ok r)
    (calls : List Call) :
    (replay r calls).2.hasInterpreter origin =
      (history r calls).any (Moment.actsFor origin) := by
  obtain ⟨-, rfl⟩ := create_eq_ok.mp hcreate
  rw [hasInterpreter_replay]
  rfl

/-- The origin of every call that ends well and concerns an interpreter has that interpreter in the
end. -/
theorem mem_interpreters_of_actsFor (hm : m ∈ history r calls) (hacts : m.actsFor origin = true) :
    origin ∈ (replay r calls).2.interpreters := by
  refine (later_of_mem_history hm).interpreters.subset ?_
  rw [← hasInterpreter_eq_true_iff, hasInterpreter_after, hacts, Bool.or_true]

/-! ## Effects on owners -/

/-- Effects on owners are those of a call that acts for their interpreter. -/
theorem actsFor_of_owners_mem {interpreter : Address}
    (h : Identity.owners interpreter ∈ m.effects.flatMap Effect.identities) :
    ∃ o, m.actsFor o = true ∧ o.interpreterAddress = interpreter := by
  obtain ⟨e, he, hi⟩ := List.mem_flatMap.mp h
  obtain ⟨hok, ⟨token, holder, amount, rfl⟩ | ⟨o, hcall, rfl⟩ |
    ⟨caller, o, bytes, assets, amounts, hcall⟩⟩ := Moment.mem_effects he
  · simp [Effect.identities] at hi
  · cases List.mem_singleton.mp hi
    exact ⟨o, by simp [Moment.actsFor, hok, hcall], rfl⟩
  · refine ⟨o, by simp [Moment.actsFor, hok, hcall], ?_⟩
    rw [Moment.effects_of_isOk hok, hcall] at he
    rcases mem_delivery he with rfl | ⟨asset, amount, token, -, -, rfl⟩ |
      ⟨token, payee, amount, rfl⟩ | ⟨call, rfl⟩
    · cases List.mem_singleton.mp hi
      rfl
    · simp [Effect.identities] at hi
    · simp [Effect.identities] at hi
    · cases List.mem_singleton.mp hi
      rfl

/-- Interpreters of other origins have other addresses. -/
def AddressUnique (origin : Origin) (origins : List Origin) : Prop :=
  ∀ o ∈ origins, o.interpreterAddress = origin.interpreterAddress → o = origin

theorem owners_notMem_effects (hm : m ∈ history r calls)
    (hunique : AddressUnique origin (replay r calls).2.interpreters)
    (hacts : m.actsFor origin = false) :
    Identity.owners origin.interpreterAddress ∉ m.effects.flatMap Effect.identities := by
  intro hmem
  obtain ⟨o, ho, haddress⟩ := actsFor_of_owners_mem hmem
  obtain rfl := hunique o (mem_interpreters_of_actsFor hm ho) haddress
  rw [hacts] at ho
  cases ho

theorem filterMap_afterOpening {caller : Address} {bytes : Bytes}
    {incoming : List (AssetId × UInt128)} :
    (r.afterOpening caller origin bytes incoming Interpreter.stepsEffects).filterMap
        (Effect.ownerCall? origin.interpreterAddress) =
      r.afterOpening caller origin bytes incoming Interpreter.ownerCalls := by
  unfold afterOpening
  cases Program.accept bytes with
  | error e => rfl
  | ok program =>
    dsimp only
    cases hopening : (r.opening caller origin incoming).run r.store with
    | ok a s =>
      rw [Script.after_of_ok hopening, Script.after_of_ok hopening]
      show (Interpreter.stepsEffects (.ofOrigin origin) (r.environment caller)
        program.instructions s).filterMap
          (Effect.ownerCall? (Interpreter.ofOrigin origin).address) = _
      exact Interpreter.filterMap_stepsEffects program.instructions
    | error e s =>
      rw [Script.after, Script.after, hopening]
      rfl

/-- Of a call that acts for an origin, the effects on the owners are a first owner, where the
interpreter is new, and then the owner calls. -/
theorem effects_of_actsFor (hacts : m.actsFor origin = true) :
    ∃ es, m.effects = m.before.foundEffects origin ++ es ∧
      (∀ owner, .found origin.interpreterAddress owner ∉ es) ∧
      es.filterMap (Effect.ownerCall? origin.interpreterAddress) = m.ownerCalls origin := by
  have hok := (Bool.and_eq_true _ _).mp hacts
  rw [Moment.effects_of_isOk hok.1, Moment.ownerCalls, if_pos hacts]
  have hcall := hok.2
  obtain ⟨before, call⟩ := m
  cases call with
  | createInterpreter o =>
    obtain rfl := of_decide_eq_true hcall
    exact ⟨[], (List.append_nil _).symm, fun _ => List.not_mem_nil, rfl⟩
  | runProgram caller o bytes assets amounts =>
    obtain rfl := of_decide_eq_true hcall
    refine ⟨_, List.append_assoc _ _ _, ?_, ?_⟩
    · intro owner hmem
      rcases List.mem_append.mp hmem with hmem | hmem
      · obtain ⟨asset, amount, token, -, -, heq⟩ := Interpreter.mem_receiveEffects hmem
        cases heq
      · obtain ⟨program, s, -, hmem⟩ := mem_afterOpening hmem
        exact Interpreter.found_notMem_stepsEffects _ _ hmem
    · rw [List.filterMap_append, filterMap_afterOpening]
      have hreceive : (Interpreter.receiveEffects (.ofOrigin o) (before.environment caller)
          (assets.zip amounts)).filterMap (Effect.ownerCall? o.interpreterAddress) = [] := by
        refine List.filterMap_eq_nil_iff.mpr fun e he => ?_
        obtain ⟨asset, amount, token, -, -, rfl⟩ := Interpreter.mem_receiveEffects he
        rfl
      rw [hreceive]
      rfl
  | registerBridge => cases hcall
  | registerAsset => cases hcall
  | registerContract => cases hcall
  | mint => cases hcall
  | addOwners => cases hcall
  | removeOwners => cases hcall
  | takeEvents => cases hcall

/-- The owner calls of a call are those among its effects. -/
theorem filterMap_effects (hm : m ∈ history r calls)
    (hunique : AddressUnique origin (replay r calls).2.interpreters) :
    m.effects.filterMap (Effect.ownerCall? origin.interpreterAddress) = m.ownerCalls origin := by
  cases hacts : m.actsFor origin with
  | true =>
    obtain ⟨es, heffects, -, hcalls⟩ := effects_of_actsFor hacts
    have hfound : (m.before.foundEffects origin).filterMap
        (Effect.ownerCall? origin.interpreterAddress) = [] := by
      refine List.filterMap_eq_nil_iff.mpr fun e he => ?_
      obtain rfl := mem_foundEffects he
      rfl
    rw [heffects, List.filterMap_append, hfound, hcalls, List.nil_append]
  | false =>
    rw [Moment.ownerCalls_of_not_actsFor hacts]
    exact Effect.filterMap_ownerCall?_of_notMem (owners_notMem_effects hm hunique hacts)

/-- Once there is the interpreter, no call sets its first owner. -/
theorem found_notMem_effects (hm : m ∈ history r calls)
    (hunique : AddressUnique origin (replay r calls).2.interpreters)
    (hhas : m.before.hasInterpreter origin = true) (owner : Address) :
    .found origin.interpreterAddress owner ∉ m.effects := by
  cases hacts : m.actsFor origin with
  | true =>
    obtain ⟨es, heffects, hfound, -⟩ := effects_of_actsFor hacts
    rw [foundEffects, hhas] at heffects
    rw [heffects]
    exact hfound owner
  | false =>
    exact Effect.found_notMem_of_notMem (owners_notMem_effects hm hunique hacts) owner

/-! ## Owners at the end of a run -/

/-- The owner calls of a run are those among its effects. -/
theorem filterMap_history (hunique : AddressUnique origin (replay r calls).2.interpreters) :
    ((history r calls).flatMap Moment.effects).filterMap
        (Effect.ownerCall? origin.interpreterAddress) =
      (history r calls).flatMap (Moment.ownerCalls origin) := by
  rw [List.filterMap_flatMap]
  exact List.flatMap_congr fun m hm => filterMap_effects hm hunique

theorem found_notMem_history (hunique : AddressUnique origin (replay r calls).2.interpreters)
    (hhas : r.hasInterpreter origin = true) (owner : Address) :
    .found origin.interpreterAddress owner ∉ (history r calls).flatMap Moment.effects := by
  intro hmem
  obtain ⟨m, hm, he⟩ := List.mem_flatMap.mp hmem
  refine found_notMem_effects hm hunique ?_ owner he
  obtain ⟨front, back, -, hbefore⟩ := mem_history.mp hm
  rw [hbefore, hasInterpreter_replay, hhas, Bool.true_or]

/-- Where there is no interpreter before a run, the run does not touch its owners, or sets the first
owner before anything else. -/
theorem effects_of_new (hunique : AddressUnique origin (replay r calls).2.interpreters)
    (hnew : r.hasInterpreter origin = false) :
    ((history r calls).any (Moment.actsFor origin) = false ∧
        Identity.owners origin.interpreterAddress ∉ used r calls) ∨
      (history r calls).any (Moment.actsFor origin) = true ∧
        ∃ front back, (history r calls).flatMap Moment.effects =
            front ++ .found origin.interpreterAddress origin.account :: back ∧
          Identity.owners origin.interpreterAddress ∉ front.flatMap Effect.identities ∧
          (∀ owner, .found origin.interpreterAddress owner ∉ back) ∧
          back.filterMap (Effect.ownerCall? origin.interpreterAddress) =
            (history r calls).flatMap (Moment.ownerCalls origin) := by
  induction calls generalizing r with
  | nil => exact .inl ⟨rfl, List.not_mem_nil⟩
  | cons call rest ih =>
    rw [history, List.any_cons, List.flatMap_cons, List.flatMap_cons]
    cases hacts : Moment.actsFor origin ⟨r, call⟩ with
    | true =>
      have hafter : (Moment.after ⟨r, call⟩).hasInterpreter origin = true := by
        rw [hasInterpreter_after, hacts, Bool.or_true]
      obtain ⟨es, heffects, hfound, hcalls⟩ := effects_of_actsFor hacts
      have hcallsRest := filterMap_history (r := Moment.after ⟨r, call⟩) hunique
      have hfoundRest := found_notMem_history (r := Moment.after ⟨r, call⟩) hunique hafter
      rw [foundEffects, hnew] at heffects
      refine .inr ⟨rfl, [],
        es ++ (history (Moment.after ⟨r, call⟩) rest).flatMap Moment.effects,
        ?_, List.not_mem_nil, ?_, ?_⟩
      · rw [heffects]
        rfl
      · intro owner hmem
        rcases List.mem_append.mp hmem with hmem | hmem
        · exact hfound owner hmem
        · exact hfoundRest owner hmem
      · rw [List.filterMap_append, hcalls, hcallsRest]
    | false =>
      have hafter : (Moment.after ⟨r, call⟩).hasInterpreter origin = false := by
        rw [hasInterpreter_after, hnew, hacts]
        rfl
      have hfirst := owners_notMem_effects (m := ⟨r, call⟩) List.mem_cons_self hunique hacts
      rw [Moment.ownerCalls_of_not_actsFor hacts]
      rcases ih (r := Moment.after ⟨r, call⟩) hunique hafter with ⟨hany, hused⟩ |
        ⟨hany, front, back, hes, hfront, hback⟩
      · refine .inl ⟨hany, ?_⟩
        rw [used, history, List.flatMap_cons, List.flatMap_append, List.mem_append, not_or]
        exact ⟨hfirst, hused⟩
      · refine .inr ⟨hany, Moment.effects ⟨r, call⟩ ++ front, back, ?_, ?_, hback⟩
        · rw [hes, List.append_assoc]
        · rw [List.flatMap_append, List.mem_append, not_or]
          exact ⟨hfirst, hfront⟩

theorem owners_eq_ok {owners : AddressSet} :
    r.owners origin = .ok owners ↔
      Owners.setAt? r.store (Owners.key origin.interpreterAddress) = some owners := by
  unfold Router.owners
  rw [query_eq_ok]
  constructor
  · rintro ⟨s, h⟩
    exact (Owners.run_load_eq_ok.mp h).2
  · intro h
    exact ⟨r.store, Owners.run_load_eq_ok.mpr ⟨rfl, h⟩⟩

/-- What the moments of a run make of the owners. -/
def ownersOf (origin : Origin) (moments : List Moment) : AddressSet :=
  if moments.any (Moment.actsFor origin) then
    ownersAfter origin (moments.flatMap (Moment.ownerCalls origin))
  else ∅

/-- A call without owner calls for an interpreter that is there changes no owners. -/
theorem ownersOf_concat {moments : List Moment} (hcalls : m.ownerCalls origin = [])
    (hacts : m.actsFor origin = true → moments.any (Moment.actsFor origin) = true) :
    ownersOf origin (moments ++ [m]) = ownersOf origin moments := by
  have hany : (moments ++ [m]).any (Moment.actsFor origin) =
      moments.any (Moment.actsFor origin) := by
    rw [List.any_append, List.any_cons, List.any_nil, Bool.or_false]
    cases hm : m.actsFor origin with
    | false => exact Bool.or_false _
    | true => rw [hacts hm, Bool.or_true]
  rw [ownersOf, ownersOf, hany, List.flatMap_append, List.flatMap_cons, hcalls, List.flatMap_nil,
    List.append_nil, List.append_nil]

/-- A call that changes owners acts for the origin, and is the first to do so or makes owner
calls. -/
theorem actsFor_of_ownersOf_ne {moments : List Moment}
    (hne : ownersOf origin (moments ++ [m]) ≠ ownersOf origin moments) :
    m.actsFor origin = true ∧
      (moments.any (Moment.actsFor origin) = false ∨ m.ownerCalls origin ≠ []) := by
  cases hacts : m.actsFor origin with
  | false =>
    refine absurd (ownersOf_concat (Moment.ownerCalls_of_not_actsFor hacts) fun h => ?_) hne
    rw [hacts] at h
    cases h
  | true =>
    refine ⟨rfl, ?_⟩
    cases hany : moments.any (Moment.actsFor origin) with
    | false => exact .inl rfl
    | true => exact .inr fun hcalls => hne (ownersOf_concat hcalls fun _ => hany)

/-- Owners of a new interpreter: what is stored, then the first owner, then the changes to it. -/
theorem foldl_owners_of_new {front back : List Effect} (before : AddressSet)
    (hfront : Identity.owners origin.interpreterAddress ∉ front.flatMap Effect.identities)
    (hback : ∀ owner, .found origin.interpreterAddress owner ∉ back) :
    (front ++ .found origin.interpreterAddress origin.account :: back).foldl
        (Effect.owners origin.interpreterAddress) before =
      ownersAfter origin (back.filterMap (Effect.ownerCall? origin.interpreterAddress)) := by
  have hfirst : (Effect.found origin.interpreterAddress origin.account).owners
      origin.interpreterAddress before = Std.ExtTreeSet.ofList [origin.account] := if_pos rfl
  rw [List.foldl_append, Effect.foldl_owners_of_notMem hfront, List.foldl_cons, hfirst,
    Effect.foldl_owners_eq hback]
  rfl

/-- No set of owners on the way is larger than what was stored or those of the owner calls so
far. -/
theorem size_lt_of_prefix {front back early : List Effect} {before : AddressSet}
    (hbefore : before.size < 2 ^ 64)
    (hfront : Identity.owners origin.interpreterAddress ∉ front.flatMap Effect.identities)
    (hback : ∀ owner, .found origin.interpreterAddress owner ∉ back)
    (hsize : ∀ changes,
      changes <+: back.filterMap (Effect.ownerCall? origin.interpreterAddress) →
        (ownersAfter origin changes).size < 2 ^ 64)
    (hearly : early <+: front ++ .found origin.interpreterAddress origin.account :: back) :
    (early.foldl (Effect.owners origin.interpreterAddress) before).size < 2 ^ 64 := by
  rcases List.prefix_or_prefix_of_prefix hearly (List.prefix_append front _) with hle | hle
  · rw [Effect.foldl_owners_of_notMem]
    · exact hbefore
    · intro hmem
      obtain ⟨e, he, hi⟩ := List.mem_flatMap.mp hmem
      exact hfront (List.mem_flatMap.mpr ⟨e, hle.subset he, hi⟩)
  · obtain ⟨rest, rfl⟩ := hle
    have hrest := (List.prefix_append_right_inj front).mp hearly
    cases rest with
    | nil =>
      rw [List.append_nil, Effect.foldl_owners_of_notMem hfront]
      exact hbefore
    | cons e late =>
      obtain ⟨rfl, hlate⟩ := List.cons_prefix_cons.mp hrest
      rw [foldl_owners_of_new before hfront fun owner hmem => hback owner (hlate.subset hmem)]
      exact hsize _ (hlate.filterMap _)

/-- What the moments of a run make of owners that are stored before it, where the run finds no
interpreter. -/
def ownersFrom (origin : Origin) (before : AddressSet) (moments : List Moment) : AddressSet :=
  if moments.any (Moment.actsFor origin) then
    ownersAfter origin (moments.flatMap (Moment.ownerCalls origin))
  else before

/-- The owners at the end of a run of a router that has no interpreter of the origin.  What is
stored stays until the interpreter is created, and is gone after that. -/
theorem owners_replay_of_new {before : AddressSet} (hnew : r.hasInterpreter origin = false)
    (hbefore : Owners.setAt? r.store (Owners.key origin.interpreterAddress) = some before)
    (hfits : before.size < 2 ^ 64)
    (hcontracts : (replay r calls).2.registry.contracts = [])
    (hunique : AddressUnique origin (replay r calls).2.interpreters)
    (halone : (Identity.owners origin.interpreterAddress).Alone (used r calls))
    (hsize : ∀ changes, changes <+: (history r calls).flatMap (Moment.ownerCalls origin) →
      (ownersAfter origin changes).size < 2 ^ 64) :
    (replay r calls).2.owners origin = .ok (ownersFrom origin before (history r calls)) := by
  have hleads := leads_of_history hcontracts
  rw [owners_eq_ok, ownersFrom]
  rcases effects_of_new hunique hnew with ⟨hany, hused⟩ |
    ⟨hany, front, back, hes, hfront, hback, hcalls⟩
  · rw [hany, if_neg Bool.false_ne_true, Effect.setAt?_of_leads hleads halone hbefore,
      Effect.foldl_owners_of_notMem hused]
    intro early hearly
    rw [Effect.foldl_owners_of_notMem]
    · exact hfits
    · intro hmem
      obtain ⟨e, he, hi⟩ := List.mem_flatMap.mp hmem
      exact hused (List.mem_flatMap.mpr ⟨e, hearly.subset he, hi⟩)
  · rw [hany, if_pos rfl, ← hcalls, ← foldl_owners_of_new before hfront hback]
    rw [used] at halone
    rw [hes] at hleads halone
    rw [← hcalls] at hsize
    exact Effect.setAt?_of_leads hleads halone hbefore fun early hearly =>
      size_lt_of_prefix hfits hfront hback hsize hearly

/-- The owners at the end of a run. -/
theorem owners_replay (hcreate : create config Store.empty = .ok r)
    (hcontracts : (replay r calls).2.registry.contracts = [])
    (hunique : AddressUnique origin (replay r calls).2.interpreters)
    (halone : (Identity.owners origin.interpreterAddress).Alone (used r calls))
    (hsize : ∀ changes, changes <+: (history r calls).flatMap (Moment.ownerCalls origin) →
      (ownersAfter origin changes).size < 2 ^ 64) :
    (replay r calls).2.owners origin = .ok (ownersOf origin (history r calls)) := by
  obtain ⟨-, rfl⟩ := create_eq_ok.mp hcreate
  have hnone := Owners.setAt?_empty (Owners.key origin.interpreterAddress)
  exact owners_replay_of_new rfl hnone (Nat.two_pow_pos 64) hcontracts hunique halone hsize

/-- What holds of the owners at the end of a run holds after each front part of it. -/
theorem owners_replay_front {front back : List Call} (hcreate : create config Store.empty = .ok r)
    (hcontracts : (replay r (front ++ back)).2.registry.contracts = [])
    (hunique : AddressUnique origin (replay r (front ++ back)).2.interpreters)
    (halone : (Identity.owners origin.interpreterAddress).Alone (used r (front ++ back)))
    (hsize : ∀ changes,
      changes <+: (history r (front ++ back)).flatMap (Moment.ownerCalls origin) →
        (ownersAfter origin changes).size < 2 ^ 64) :
    (replay r front).2.owners origin = .ok (ownersOf origin (history r front)) := by
  have hlater := later_replay (replay r front).2 back
  rw [← replay_append] at hlater
  refine owners_replay hcreate (hlater.registry.contracts_eq_nil hcontracts)
    (fun o ho => hunique o (hlater.interpreters.subset ho)) (halone.mono ?_) ?_
  · rw [used_append]
    exact List.subset_append_left _ _
  · intro changes hchanges
    refine hsize changes (hchanges.trans ?_)
    rw [history_append, List.flatMap_append]
    exact List.prefix_append _ _

/-- **An interpreter's owners are the first owner and the owner calls in order**, from the first
call that acts for its origin on, and none before.  A call that changes them acts for the same
origin, and creates the interpreter or makes owner calls.  The sets on the way must not be larger
than the 64-bit count that is stored with them can say. -/
theorem owners_eq_fold (hcreate : create config Store.empty = .ok r)
    (hcontracts : (replay r calls).2.registry.contracts = [])
    (hunique : AddressUnique origin (replay r calls).2.interpreters)
    (hsha : CollisionFree (used r calls ++ [.owners origin.interpreterAddress]))
    (hsize : ∀ changes, changes <+: (history r calls).flatMap (Moment.ownerCalls origin) →
      (ownersAfter origin changes).size < 2 ^ 64) :
    (replay r calls).2.owners origin = .ok (ownersOf origin (history r calls)) ∧
      ∀ m ∈ history r calls, m.after.owners origin ≠ m.before.owners origin →
        m.actsFor origin = true ∧
          (m.before.hasInterpreter origin = false ∨ m.ownerCalls origin ≠ []) := by
  have halone : (Identity.owners origin.interpreterAddress).Alone (used r calls) :=
    hsha.alone (fun _ => isEntry_of_mem_used) (List.mem_singleton.mpr rfl) trivial
  have hfront {front back : List Call} (hcalls : calls = front ++ back) :=
    owners_replay_front hcreate (hcalls ▸ hcontracts) (hcalls ▸ hunique) (hcalls ▸ halone)
      (hcalls ▸ hsize)
  refine ⟨owners_replay hcreate hcontracts hunique halone hsize, fun m hm hne => ?_⟩
  obtain ⟨front, back, hcalls, hbefore⟩ := mem_history.mp hm
  have hthen : (replay r front).2.owners origin = .ok (ownersOf origin (history r front)) :=
    hfront hcalls
  have hnow : (replay r (front ++ [m.call])).2.owners origin =
      .ok (ownersOf origin (history r (front ++ [m.call]))) :=
    hfront (hcalls.trans (List.append_assoc front [m.call] back).symm)
  rw [replay_append, history_append, ← hbefore] at hnow
  rw [← hbefore] at hthen
  have hchange : ownersOf origin (history r front ++ [m]) ≠ ownersOf origin (history r front) := by
    intro heq
    exact hne (hnow.trans ((congrArg Except.ok heq).trans hthen.symm))
  rw [hbefore, hasInterpreter_of_create hcreate]
  exact actsFor_of_ownersOf_ne hchange

theorem unique_expedition : AddressUnique explorer (replay fresh expedition).2.interpreters := by
  rw [interpreters_expedition]
  exact fun o ho _ => List.mem_singleton.mp ho

theorem ownerCalls_expedition :
    (history fresh expedition).flatMap (Moment.ownerCalls explorer) =
      [.add [Party.guide.address]] := by
  -- The effects are taken off one by one: to compare the interpreter's address with itself by
  -- evaluation would be to hash it.
  rw [← filterMap_history unique_expedition, effects_expedition,
    List.filterMap_cons_none (Effect.ownerCall?_credit _ _ _),
    List.filterMap_cons_none (Effect.ownerCall?_found _ _),
    List.filterMap_cons_none (Effect.ownerCall?_move _ _ _ _),
    List.filterMap_cons_some (Effect.ownerCall?_manage _ _),
    List.filterMap_cons_none (Effect.ownerCall?_move _ _ _ _),
    List.filterMap_cons_none (Effect.ownerCall?_move _ _ _ _),
    List.filterMap_cons_none (Effect.ownerCall?_move _ _ _ _), List.filterMap_nil]

/-- The owners are the explorer's account and the guide, whom one of the programs adds. -/
theorem owners_expedition :
    (replay fresh expedition).2.owners explorer = .ok guides ∧
      ∀ m ∈ history fresh expedition, m.after.owners explorer ≠ m.before.owners explorer →
        m.actsFor explorer = true ∧
          (m.before.hasInterpreter explorer = false ∨ m.ownerCalls explorer ≠ []) := by
  have hsha : CollisionFree (used fresh expedition ++ [.owners explorer.interpreterAddress]) :=
    collisionFree_expedition (List.cons_subset.mpr ⟨List.mem_cons_self, List.nil_subset _⟩)
  have hacted : (history fresh expedition).any (Moment.actsFor explorer) = true := by
    rw [← hasInterpreter_of_create create_fresh, hasInterpreter_eq_true_iff,
      interpreters_expedition]
    exact List.mem_cons_self
  have hsize : ∀ changes,
      changes <+: (history fresh expedition).flatMap (Moment.ownerCalls explorer) →
        (ownersAfter explorer changes).size < 2 ^ 64 := by
    rw [ownerCalls_expedition]
    exact fun changes => size_ownersAfter_lt
  obtain ⟨howners, hchanges⟩ :=
    owners_eq_fold create_fresh contracts_expedition unique_expedition hsha hsize
  rw [ownersOf, if_pos hacted, ownerCalls_expedition] at howners
  exact ⟨howners, hchanges⟩

end Crossnet.Router
