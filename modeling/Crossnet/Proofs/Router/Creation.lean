import Crossnet.Proofs.Router.Reopening

/-!
# Interpreters that a program creates

The interpreter of an origin is created by a call of its own, or by the first
program that is delivered for the origin.  The call writes the first owner to the
store; the delivery writes it to the overlay on which the program runs, before
the first instruction.  The program cannot tell the two apart, since what it reads
is the same, and the router notes the same in the same order.

* `created_of_new`: what the call makes of a router.
* `programScript_created`: **a program finds the same owners either way.**
* `runProgram_created`: a delivery after the creation and one without it.
* `creation_implicit_or_explicit`: **the first program of an origin creates the
  interpreter as the call does.**
-/

namespace Crossnet.Router

variable {r : Router} {origin : Origin}

/-! ## The router after the creation -/

theorem created_of_has (h : r.hasInterpreter origin = true) : r.created origin = r := by
  rw [created, h]
  rfl

theorem created_of_new (hnew : r.hasInterpreter origin = false) :
    r.created origin = { r with
      interpreters := origin :: r.interpreters
      store := Owners.setOwners r.store (Owners.key origin.interpreterAddress)
        (Std.ExtTreeSet.ofList [origin.account])
      events := r.events ++ [.interpreterCreated origin origin.interpreterAddress] } := by
  rw [created, hnew]
  rfl

theorem hasInterpreter_created (r : Router) (origin : Origin) :
    (r.created origin).hasInterpreter origin = true := by
  cases h : r.hasInterpreter origin with
  | true => rw [created_of_has h, h]
  | false =>
    rw [created_of_new h]
    exact List.contains_iff_mem.mpr List.mem_cons_self

/-- The tables are as before, and so is all that a program finds besides the store. -/
theorem registry_created (r : Router) (origin : Origin) :
    (r.created origin).registry = r.registry ∧
      ∀ caller, (r.created origin).environment caller = r.environment caller := by
  cases h : r.hasInterpreter origin with
  | true =>
    rw [created_of_has h]
    exact ⟨rfl, fun _ => rfl⟩
  | false =>
    rw [created_of_new h]
    exact ⟨rfl, fun _ => rfl⟩

/-- **A program finds the same owners either way**: those that are in the store, or those that it is
told to write first. -/
theorem programScript_created (r : Router) (origin : Origin) (env : Environment)
    (program : Program) (incoming : List (AssetId × UInt128)) :
    (programScript (.ofOrigin origin) env (!(r.created origin).hasInterpreter origin) program
        incoming).run (r.created origin).store =
      (programScript (.ofOrigin origin) env (!r.hasInterpreter origin) program incoming).run
        r.store := by
  rw [hasInterpreter_created]
  cases h : r.hasInterpreter origin with
  | true => rw [created_of_has h]
  | false =>
    have hfirst : programScript (.ofOrigin origin) env true program incoming =
        Owners.init origin.interpreterAddress origin.account >>= fun _ =>
          programScript (.ofOrigin origin) env false program incoming := rfl
    have hinit := Owners.run_init origin.interpreterAddress origin.account r.store
    rw [Bool.not_false, hfirst, Script.run_bind_of_ok hinit, created_of_new h]
    rfl

/-- What is noted of a delivery comes after what was noted of the creation. -/
theorem delivered_created (r : Router) (origin : Origin) (program : Program) (outcome : Outcome)
    (store : Store) :
    (r.created origin).delivered origin program outcome store =
      r.delivered origin program outcome store := by
  cases h : r.hasInterpreter origin with
  | true => rw [created_of_has h]
  | false =>
    unfold delivered
    rw [hasInterpreter_created, h, created_of_new h]
    simp

/-! ## Deliveries -/

/-- A delivery after the creation comes to what it comes to without it, but for the creation, which
stays when the program is not run. -/
theorem runProgram_created (r : Router) (origin : Origin) (caller : Address) (bytes : Bytes)
    (assets : List AssetId) (amounts : List UInt128) :
    runProgram caller origin bytes assets amounts (r.created origin) =
      match runProgram caller origin bytes assets amounts r with
      | .ok outcome t => .ok outcome t
      | .error e _ => .error e (r.created origin) := by
  obtain ⟨hregistry, henv⟩ := registry_created r origin
  have hlacks : (r.created origin).lacks = r.lacks := by
    funext asset
    rw [lacks, lacks, hregistry]
  rw [runProgram_eq, runProgram_eq, hregistry, hlacks, henv]
  by_cases hbridge : r.registry.bridge? origin.network ≠ some caller
  · rw [if_pos hbridge, if_pos hbridge]
  · rw [if_neg hbridge, if_neg hbridge]
    by_cases hlength : assets.length ≠ amounts.length
    · rw [if_pos hlength, if_pos hlength]
    · rw [if_neg hlength, if_neg hlength]
      cases Program.accept bytes with
      | error cause => rfl
      | ok program =>
        dsimp only
        cases assets.find? r.lacks with
        | some asset => rfl
        | none =>
          dsimp only
          rw [programScript_created]
          cases (programScript (.ofOrigin origin) (r.environment caller)
              (!r.hasInterpreter origin) program (assets.zip amounts)).run r.store with
          | ok outcome store =>
            dsimp only
            rw [delivered_created]
          | error cause store => rfl

/-- What a router looks like after the first program of an origin. -/
theorem parts_of_first (hnew : r.hasInterpreter origin = false) {caller : Address} {bytes : Bytes}
    {assets : List AssetId} {amounts : List UInt128} {outcome : Outcome} {t : Router}
    (h : runProgram caller origin bytes assets amounts r = .ok outcome t) :
    t.registry = r.registry ∧ t.interpreters = origin :: r.interpreters ∧
      ∃ program, Program.accept bytes = .ok program ∧
        t.events = r.events ++ .interpreterCreated origin origin.interpreterAddress ::
          .programExecuted origin program.hash :: outcome.spawns.map .spawn := by
  obtain ⟨-, -, program, haccept, -, store, -, rfl⟩ := runProgram_eq_ok.mp h
  unfold delivered
  rw [hnew]
  refine ⟨rfl, rfl, program, haccept, ?_⟩
  simp

/-- **The first program of an origin creates the interpreter as the call does.**  On every router,
whatever its store holds and whatever contracts it has, a program for an origin without an
interpreter is run exactly when it is run after the interpreter was created; the outcome is the same
then, and so is the router, with all its parts: the creation is noted before the program, and the
program before its spawns.  Where the program is not run, the cause is the same, and what is left of
creating the interpreter first is the interpreter. -/
theorem creation_implicit_or_explicit (hnew : r.hasInterpreter origin = false) (caller : Address)
    (bytes : Bytes) (assets : List AssetId) (amounts : List UInt128) :
    let implicit := runProgram caller origin bytes assets amounts
    let explicit := do
      let _ ← createInterpreter origin
      runProgram caller origin bytes assets amounts
    (∀ outcome t, implicit r = .ok outcome t ↔ explicit r = .ok outcome t) ∧
      (∀ outcome t, implicit r = .ok outcome t →
        t.registry = r.registry ∧ t.interpreters = origin :: r.interpreters ∧
          ∃ program, Program.accept bytes = .ok program ∧
            t.events = r.events ++ .interpreterCreated origin origin.interpreterAddress ::
              .programExecuted origin program.hash :: outcome.spawns.map .spawn) ∧
      ∀ e t, implicit r = .error e t →
        t = r ∧ explicit r = .error e (r.created origin) := by
  intro implicit explicit
  have hexplicit : explicit r = runProgram caller origin bytes assets amounts (r.created origin) :=
    bind_of_ok (createInterpreter_eq origin r) _
  rw [runProgram_created] at hexplicit
  refine ⟨fun outcome t => ?_, fun outcome t => parts_of_first hnew, fun e t hfail => ?_⟩
  · show runProgram caller origin bytes assets amounts r = _ ↔ _
    rw [hexplicit]
    cases runProgram caller origin bytes assets amounts r with
    | ok _ _ => exact Iff.rfl
    | error _ _ => exact ⟨nofun, nofun⟩
  · have hrun : runProgram caller origin bytes assets amounts r = .error e t := hfail
    rw [hrun] at hexplicit
    exact ⟨safe_runProgram _ _ _ _ _ hrun, hexplicit⟩

/-- The invitation of a second owner as the first program of the founder, from the bridge and from
someone else. -/
theorem creation_implicit_or_explicit_invitation :
    bridged.hasInterpreter founder = false ∧
      (∃ t, runProgram .zero founder invitation.toWire [] [] bridged = .ok (.answered []) t ∧
        t.owners founder = .ok partners ∧ t.interpreters = [founder] ∧
        t.events = bridged.events ++
          [.interpreterCreated founder founder.interpreterAddress,
            .programExecuted founder invitation.hash]) ∧
      (createInterpreter founder >>= fun _ =>
          runProgram partner founder invitation.toWire [] []) bridged =
        .error (.unauthorized partner .deliverPrograms) founded := by
  have hnew : bridged.hasInterpreter founder = false := rfl
  have hexplicit : (createInterpreter founder >>= fun _ =>
      runProgram .zero founder invitation.toWire [] []) bridged =
        .ok (.answered []) (founded.delivered founder invitation (.answered [])
          (Owners.setOwners founded.store (Owners.key founder.interpreterAddress) partners)) := by
    refine (bind_of_ok (createInterpreter_eq founder bridged) _).trans ?_
    exact arrives_invitation.runProgram_eq
  have hrefused : runProgram partner founder invitation.toWire [] [] bridged =
      .error (.unauthorized partner .deliverPrograms) bridged := rfl
  obtain ⟨hsame, hparts, -⟩ :=
    creation_implicit_or_explicit hnew .zero invitation.toWire [] []
  obtain ⟨-, -, hfailed⟩ := creation_implicit_or_explicit hnew partner invitation.toWire [] []
  have himplicit := (hsame _ _).mpr hexplicit
  obtain ⟨-, hinterpreters, program, haccept, hevents⟩ := hparts _ _ himplicit
  rw [accept_invitation] at haccept
  cases haccept
  refine ⟨hnew, ⟨_, himplicit, ?_, hinterpreters, hevents⟩, (hfailed _ _ hrefused).2⟩
  rw [owners_eq_ok]
  exact Owners.setAt?_setOwners founded.store _ (size_joined_lt founder partner)

end Crossnet.Router
