import Crossnet.Proofs.Owners.Stored
import Crossnet.Proofs.Router.Parts

/-!
# Creating interpreters and running programs

Each of the two calls is told by one equation.  `createInterpreter` always ends
well.  `runProgram` looks at the bridge, the two lists, the bytes and the assets,
in this order, and then runs the program; the first thing that is wrong decides
what it answers.  The overlay that the router opens and the one that the
interpreter opens leave no trace, so a delivered program is one script on the
store.

* `createInterpreter_eq`, `runProgram_eq`: **what the calls do to a router.**
* `runProgram_eq_ok`, `safe_runProgram`: a program that is run, and one that is
  not.
* `refuses_of_runProgram`: **a program is not run for one of five causes.**
-/

namespace Crossnet.Router

variable {r t : Router}

/-! ## Creating interpreters -/

/-- The router after the interpreter of an origin was created, if there was none. -/
def created (r : Router) (origin : Origin) : Router :=
  if r.hasInterpreter origin then r
  else { r with
    interpreters := origin :: r.interpreters
    store := Owners.setOwners r.store (Owners.key origin.interpreterAddress)
      (Std.ExtTreeSet.ofList [origin.account])
    events := r.events ++ [.interpreterCreated origin origin.interpreterAddress] }

theorem createInterpreter_eq (origin : Origin) (r : Router) :
    createInterpreter origin r = .ok origin.interpreterAddress (r.created origin) := by
  unfold created
  cases hnew : r.hasInterpreter origin with
  | true =>
    refine bind_eq_ok.mpr ⟨r, r, rfl, ?_⟩
    rw [hnew]
    rfl
  | false =>
    refine bind_eq_ok.mpr ⟨r, r, rfl, ?_⟩
    rw [hnew]
    refine bind_eq_ok.mpr ⟨(), _, onStore_eq_ok.mpr ⟨_, Owners.run_init _ _ _, rfl⟩, rfl⟩

/-! ## Assets without a token -/

/-- Whether the router has no token for an asset. -/
def lacks (r : Router) (asset : AssetId) : Bool := (r.registry.assetHandle? asset).isNone

theorem find?_lacks_eq_none {assets : List AssetId} :
    assets.find? r.lacks = none ↔ ∀ asset ∈ assets, (r.registry.assetHandle? asset).isSome := by
  rw [List.find?_eq_none]
  simp only [lacks, Option.isNone_iff_eq_none, Option.isSome_iff_ne_none, ne_eq]

theorem discard_token_eq (asset : AssetId) (r : Router) :
    (discard (Router.token asset) : RouterM Unit) r =
      if r.lacks asset then .error (.unknownAsset asset) r else .ok () r := by
  unfold lacks
  cases hhandle : r.registry.assetHandle? asset with
  | some token => exact bind_of_ok (token_eq_ok.mpr ⟨hhandle, rfl⟩) _
  | none =>
    have hnone : Router.token asset r = .error (.unknownAsset asset) r := by
      refine bind_eq_error.mpr (.inr ⟨r, r, rfl, ?_⟩)
      rw [hhandle]
      rfl
    exact bind_of_error hnone _

/-- The first asset without a token is refused. -/
theorem forM_token_eq (assets : List AssetId) (r : Router) :
    (assets.forM fun asset => discard (Router.token asset)) r =
      match assets.find? r.lacks with
      | some asset => .error (.unknownAsset asset) r
      | none => .ok () r := by
  induction assets with
  | nil => rfl
  | cons asset rest ih =>
    have hfirst := discard_token_eq asset r
    show ((discard (Router.token asset) : RouterM Unit) >>= fun _ =>
      rest.forM fun asset => discard (Router.token asset)) r = _
    rw [List.find?_cons]
    cases hlacks : r.lacks asset with
    | true =>
      rw [hlacks] at hfirst
      exact bind_of_error hfirst _
    | false =>
      rw [hlacks] at hfirst
      exact (bind_of_ok hfirst _).trans ih

/-! ## Running programs on overlays -/

/-- What a delivered program does to the store, as one script: the overlay that the router opens and
the one that the interpreter opens leave no trace. -/
def programScript (interpreter : Interpreter) (env : Environment) (isNew : Bool)
    (program : Program) (incoming : List (AssetId × UInt128)) : Script ExecutionError Outcome := do
  if isNew then
    Owners.init interpreter.address interpreter.origin.account
  interpreter.run env program.instructions incoming

section Launch

open Storage (Alike)

variable {σ τ : Type} [Storage σ] [Storage τ] [LawfulStorage σ] [LawfulStorage τ] {s : σ}
  {u v : τ} {interp : Interpreter} {env : Environment} {isNew : Bool} {program : Program}
  {incoming : List (AssetId × UInt128)}

theorem launch_of_run_ok (h : Alike s u) {outcome : Outcome}
    (hrun : (programScript interp env isNew program incoming).run u = .ok outcome v) :
    ∃ s', launch interp env isNew program incoming s = .ok outcome s' ∧ Alike s' v := by
  cases isNew with
  | false => exact Script.atomically_of_run_ok h hrun
  | true => exact Script.atomically_of_run_ok (h.put _ _) hrun

theorem launch_of_run_error (h : Alike s u) {e : ExecutionError}
    (hrun : (programScript interp env isNew program incoming).run u = .error e v) :
    ∃ s', launch interp env isNew program incoming s = .error e s' := by
  cases isNew with
  | false => exact ⟨_, Script.atomically_of_run_error h hrun⟩
  | true => exact ⟨_, Script.atomically_of_run_error (h.put _ _) hrun⟩

/-- A delivered program on its two overlays is the script on the store. -/
theorem onOverlay_launch_eq (interp : Interpreter) (env : Environment) (isNew : Bool)
    (program : Program) (incoming : List (AssetId × UInt128)) (r : Router) :
    onOverlay (launch interp env isNew program incoming) r =
      match (programScript interp env isNew program incoming).run r.store with
      | .ok outcome store => .ok outcome { r with store := store }
      | .error cause _ => .error (.execution cause) r := by
  have hfresh : Alike (Overlay.fresh r.store) r.store := Overlay.fresh_alike r.store
  unfold onOverlay
  cases hrun : (programScript interp env isNew program incoming).run r.store with
  | ok outcome store =>
    obtain ⟨overlay, hlaunch, halike⟩ := launch_of_run_ok hfresh hrun
    have hcommit : overlay.commit = store := (overlay.commit_alike.trans halike).eq
    rw [hlaunch]
    dsimp only
    rw [hcommit]
  | error cause store =>
    obtain ⟨overlay, hlaunch⟩ := launch_of_run_error hfresh hrun
    rw [hlaunch]

end Launch

/-! ## What the router notes -/

theorem forM_report_eq (records : List SpawnRecord) (r : Router) :
    (records.forM fun record => report (.spawn record)) r =
      .ok () { r with events := r.events ++ records.map .spawn } := by
  induction records generalizing r with
  | nil =>
    show EStateM.Result.ok () r = _
    rw [List.map_nil, List.append_nil]
  | cons record rest ih =>
    refine bind_eq_ok.mpr ⟨(), _, report_eq _, ?_⟩
    refine (ih _).trans ?_
    simp only [List.map_cons, List.append_assoc, List.cons_append, List.nil_append]

/-- What a delivered program that ended well makes the router note. -/
def settle (origin : Origin) (isNew : Bool) (program : Program) (outcome : Outcome) :
    RouterM Outcome := do
  if isNew then
    recordInterpreter origin origin.interpreterAddress
  report (.programExecuted origin program.hash)
  outcome.spawns.forM fun record => report (.spawn record)
  pure outcome

/-- What is left of `runProgram` once the program's bytes are read. -/
def deliver (caller : Address) (origin : Origin) (program : Program) (assets : List AssetId)
    (amounts : List UInt128) (before : Router) : RouterM Outcome := do
  assets.forM fun asset => discard (Router.token asset)
  let outcome ←
    onOverlay (launch (.ofOrigin origin) (before.environment caller)
      (!before.hasInterpreter origin) program (assets.zip amounts))
  settle origin (!before.hasInterpreter origin) program outcome

/-- The router after a delivered program ended well. -/
def delivered (r : Router) (origin : Origin) (program : Program) (outcome : Outcome)
    (store : Store) : Router :=
  { r with
    interpreters := if r.hasInterpreter origin then r.interpreters else origin :: r.interpreters
    store := store
    events := r.events ++
      (if r.hasInterpreter origin then []
        else [.interpreterCreated origin origin.interpreterAddress]) ++
      .programExecuted origin program.hash :: outcome.spawns.map .spawn }

theorem registry_delivered (r : Router) (origin : Origin) (program : Program) (outcome : Outcome)
    (store : Store) : (r.delivered origin program outcome store).registry = r.registry := rfl

theorem settle_eq (origin : Origin) (program : Program) (outcome : Outcome) (r : Router)
    (store : Store) :
    settle origin (!r.hasInterpreter origin) program outcome { r with store := store } =
      .ok outcome (r.delivered origin program outcome store) := by
  have hreport : ∀ u : Router, (report (.programExecuted origin program.hash) >>= fun _ =>
      (outcome.spawns.forM fun record => report (.spawn record)) >>= fun _ =>
        (pure outcome : RouterM Outcome)) u =
      .ok outcome { u with
        events := u.events ++ RouterEvent.programExecuted origin program.hash ::
          outcome.spawns.map .spawn } := by
    intro u
    refine bind_eq_ok.mpr ⟨(), _, report_eq _, ?_⟩
    refine bind_eq_ok.mpr ⟨(), _, forM_report_eq _ _, ?_⟩
    show EStateM.Result.ok outcome _ = _
    simp only [List.append_assoc, List.cons_append, List.nil_append]
  unfold settle delivered
  cases hnew : r.hasInterpreter origin with
  | true =>
    refine (hreport _).trans ?_
    simp
  | false =>
    refine bind_eq_ok.mpr ⟨(), _, rfl, ?_⟩
    refine (hreport _).trans ?_
    simp

/-! ## The whole call -/

variable {caller : Address} {origin : Origin} {bytes : Bytes} {assets : List AssetId}
  {amounts : List UInt128}

theorem deliver_eq (caller : Address) (origin : Origin) (program : Program)
    (assets : List AssetId) (amounts : List UInt128) (r : Router) :
    deliver caller origin program assets amounts r r =
      match assets.find? r.lacks with
      | some asset => .error (.unknownAsset asset) r
      | none =>
        match (programScript (.ofOrigin origin) (r.environment caller)
            (!r.hasInterpreter origin) program (assets.zip amounts)).run r.store with
        | .ok outcome store => .ok outcome (r.delivered origin program outcome store)
        | .error cause _ => .error (.execution cause) r := by
  have hassets := forM_token_eq assets r
  have hlaunch := onOverlay_launch_eq (.ofOrigin origin) (r.environment caller)
    (!r.hasInterpreter origin) program (assets.zip amounts) r
  unfold deliver
  cases hfind : assets.find? r.lacks with
  | some asset =>
    rw [hfind] at hassets
    exact bind_of_error hassets _
  | none =>
    rw [hfind] at hassets
    refine (bind_of_ok hassets _).trans ?_
    cases hrun : (programScript (.ofOrigin origin) (r.environment caller)
        (!r.hasInterpreter origin) program (assets.zip amounts)).run r.store with
    | ok outcome store =>
      rw [hrun] at hlaunch
      exact (bind_of_ok hlaunch _).trans (settle_eq origin program outcome r store)
    | error cause store =>
      rw [hrun] at hlaunch
      exact bind_of_error hlaunch _

/-- **What `runProgram` does to a router.** -/
theorem runProgram_eq (caller : Address) (origin : Origin) (bytes : Bytes)
    (assets : List AssetId) (amounts : List UInt128) (r : Router) :
    runProgram caller origin bytes assets amounts r =
      if r.registry.bridge? origin.network ≠ some caller then
        .error (.unauthorized caller .deliverPrograms) r
      else if assets.length ≠ amounts.length then
        .error (.mismatchedAssets assets.length amounts.length) r
      else
        match Program.accept bytes with
        | .error cause => .error (.program cause) r
        | .ok program =>
          match assets.find? r.lacks with
          | some asset => .error (.unknownAsset asset) r
          | none =>
            match (programScript (.ofOrigin origin) (r.environment caller)
                (!r.hasInterpreter origin) program (assets.zip amounts)).run r.store with
            | .ok outcome store => .ok outcome (r.delivered origin program outcome store)
            | .error cause _ => .error (.execution cause) r := by
  unfold runProgram
  refine (bind_of_ok (x := MonadState.get) rfl _).trans ?_
  by_cases hbridge : r.registry.bridge? origin.network ≠ some caller
  · rw [if_pos hbridge, if_pos hbridge]
    rfl
  · rw [if_neg hbridge, if_neg hbridge]
    by_cases hlength : assets.length ≠ amounts.length
    · rw [if_pos hlength, if_pos hlength]
      rfl
    · rw [if_neg hlength, if_neg hlength]
      cases Program.accept bytes with
      | error cause => rfl
      | ok program => exact deliver_eq caller origin program assets amounts r

/-- A program is run when a bridge of the origin's network delivers acceptable bytes with as many
amounts as assets, all of them registered, and the script ends well. -/
theorem runProgram_eq_ok {outcome : Outcome} :
    runProgram caller origin bytes assets amounts r = .ok outcome t ↔
      r.registry.bridge? origin.network = some caller ∧ assets.length = amounts.length ∧
        ∃ program, Program.accept bytes = .ok program ∧
          (∀ asset ∈ assets, (r.registry.assetHandle? asset).isSome) ∧
          ∃ store, (programScript (.ofOrigin origin) (r.environment caller)
              (!r.hasInterpreter origin) program (assets.zip amounts)).run r.store =
                .ok outcome store ∧
            t = r.delivered origin program outcome store := by
  simp only [← find?_lacks_eq_none]
  rw [runProgram_eq]
  constructor
  · intro h
    by_cases hbridge : r.registry.bridge? origin.network ≠ some caller
    · rw [if_pos hbridge] at h
      cases h
    · rw [if_neg hbridge] at h
      by_cases hlength : assets.length ≠ amounts.length
      · rw [if_pos hlength] at h
        cases h
      · rw [if_neg hlength] at h
        refine ⟨not_ne_iff.mp hbridge, not_ne_iff.mp hlength, ?_⟩
        split at h
        · cases h
        next program haccept =>
          refine ⟨program, haccept, ?_⟩
          split at h
          · cases h
          next hfind =>
            refine ⟨hfind, ?_⟩
            split at h
            next found store hrun =>
              cases h
              exact ⟨store, hrun, rfl⟩
            · cases h
  · rintro ⟨hbridge, hlength, program, haccept, hfind, store, hrun, rfl⟩
    rw [if_neg (not_ne_iff.mpr hbridge), if_neg (not_ne_iff.mpr hlength), haccept]
    dsimp only
    rw [hfind]
    dsimp only
    rw [hrun]

/-- The causes for which a program is not run, each where those before it do not apply. -/
inductive Refuses (r : Router) (caller : Address) (origin : Origin) (bytes : Bytes)
    (assets : List AssetId) (amounts : List UInt128) : RouterError → Prop
  | unauthorized (hbridge : r.registry.bridge? origin.network ≠ some caller) :
      Refuses r caller origin bytes assets amounts (.unauthorized caller .deliverPrograms)
  | mismatchedAssets (hbridge : r.registry.bridge? origin.network = some caller)
      (hlength : assets.length ≠ amounts.length) :
      Refuses r caller origin bytes assets amounts
        (.mismatchedAssets assets.length amounts.length)
  | program {cause : ProgramError} (hbridge : r.registry.bridge? origin.network = some caller)
      (hlength : assets.length = amounts.length) (haccept : Program.accept bytes = .error cause) :
      Refuses r caller origin bytes assets amounts (.program cause)
  | unknownAsset {program : Program} {asset : AssetId}
      (hbridge : r.registry.bridge? origin.network = some caller)
      (hlength : assets.length = amounts.length) (haccept : Program.accept bytes = .ok program)
      (hfind : assets.find? r.lacks = some asset) :
      Refuses r caller origin bytes assets amounts (.unknownAsset asset)
  | execution {program : Program} {cause : ExecutionError} {store : Store}
      (hbridge : r.registry.bridge? origin.network = some caller)
      (hlength : assets.length = amounts.length) (haccept : Program.accept bytes = .ok program)
      (hfind : assets.find? r.lacks = none)
      (hrun : (programScript (.ofOrigin origin) (r.environment caller)
        (!r.hasInterpreter origin) program (assets.zip amounts)).run r.store =
          .error cause store) :
      Refuses r caller origin bytes assets amounts (.execution cause)

/-- **A program is not run for one of the causes**, and the router stays as it was. -/
theorem refuses_of_runProgram {e : RouterError}
    (h : runProgram caller origin bytes assets amounts r = .error e t) :
    t = r ∧ Refuses r caller origin bytes assets amounts e := by
  rw [runProgram_eq] at h
  by_cases hbridge : r.registry.bridge? origin.network ≠ some caller
  · rw [if_pos hbridge] at h
    cases h
    exact ⟨rfl, .unauthorized hbridge⟩
  · rw [if_neg hbridge] at h
    by_cases hlength : assets.length ≠ amounts.length
    · rw [if_pos hlength] at h
      cases h
      exact ⟨rfl, .mismatchedAssets (not_ne_iff.mp hbridge) hlength⟩
    · rw [if_neg hlength] at h
      rw [not_ne_iff] at hbridge hlength
      split at h
      next cause haccept =>
        cases h
        exact ⟨rfl, .program hbridge hlength haccept⟩
      next program haccept =>
        split at h
        next asset hfind =>
          cases h
          exact ⟨rfl, .unknownAsset hbridge hlength haccept hfind⟩
        next hfind =>
          split at h
          · cases h
          next cause store hrun =>
            cases h
            exact ⟨rfl, .execution hbridge hlength haccept hfind hrun⟩

theorem safe_runProgram (caller : Address) (origin : Origin) (bytes : Bytes)
    (assets : List AssetId) (amounts : List UInt128) :
    Safe (runProgram caller origin bytes assets amounts) :=
  fun _ _ _ h => (refuses_of_runProgram h).1

end Crossnet.Router
