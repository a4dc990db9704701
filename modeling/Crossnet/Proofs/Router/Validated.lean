import Crossnet.Proofs.Interpreter.Validated
import Crossnet.Proofs.Router.Programs

/-!
# Validation covers execution

A router runs a program only after validation, and what validation lets through
is never found faulty while it runs, whatever storage, interpreter and host it
meets.  So no call of a router answers that a running program was at fault, and
no write into a payload can miss it.

* `faultless_programScript`: a well-formed program that is delivered.
* `validation_covers_execution`: **what is accepted fails for no fault of its own,
  and fills in every binding inside its payload.**
-/

namespace Crossnet

open ExecutionError (IsFault)

namespace Router

variable {σ : Type} [Storage σ] {env : Environment} {program : Program}

theorem faultless_programScript (hhost : env.host.Blameless σ) (h : program.WellFormed)
    (interp : Interpreter) (isNew : Bool) (incoming : List (AssetId × UInt128)) (s : σ) :
    (programScript interp env isNew program incoming).Ends IsFault s fun _ _ => True := by
  cases isNew with
  | false => exact Interpreter.faultless_run hhost h incoming s
  | true => exact Interpreter.faultless_run hhost h incoming _

theorem runProgram_ne_fault {r t : Router} (hhost : r.registry.host.Blameless Store)
    (caller : Address) (origin : Origin) (bytes : Bytes) (assets : List AssetId)
    (amounts : List UInt128) (cause : ProgramError) :
    runProgram caller origin bytes assets amounts r ≠ .error (.execution (.program cause)) t := by
  intro h
  obtain ⟨-, hrefuses⟩ := refuses_of_runProgram h
  cases hrefuses with
  | execution hbridge hlength haccept hfind hrun =>
    have hwf := (Program.accept_eq_ok_iff.mp haccept).2.2.2
    exact (faultless_programScript hhost hwf _ _ _ _).of_run_error hrun trivial

end Router

theorem Interpreter.execute_ne_fault {σ : Type} [Storage σ] [LawfulStorage σ]
    {env : Environment} {program : Program} (hhost : env.host.Blameless σ)
    (h : program.WellFormed) (interp : Interpreter) (incoming : List (AssetId × UInt128))
    (s t : σ) (cause : ProgramError) :
    interp.execute env program incoming s ≠ .error (.program cause) t := by
  intro hrun
  have hends : (interp.run env program.instructions incoming).Ends IsFault s fun _ _ => True :=
    faultless_run hhost h incoming s
  have hself : Storage.Alike s s := fun _ => rfl
  unfold execute at hrun
  cases hwhole : (interp.run env program.instructions incoming).run s with
  | ok outcome u =>
    obtain ⟨v, hv, -⟩ := Script.atomically_of_run_ok hself hwhole
    rw [hrun] at hv
    cases hv
  | error e u =>
    rw [Script.atomically_of_run_error hself hwhole] at hrun
    cases hrun
    exact hends.of_run_error hwhole trivial

/-- **Validation covers all that execution checks.**  Of bytes that are accepted as a program, where
no contract fails as if the program were at fault: no run of the program fails for a fault of the
program, and the values of a call's bindings are written one after the other, each over the span of
its binding inside the payload.  So no delivered bytes make a router answer that the program it ran
was at fault. -/
theorem validation_covers_execution (bytes : Bytes) :
    (∀ {program : Program}, Program.accept bytes = .ok program →
      ∀ {σ : Type} [Storage σ] [LawfulStorage σ] (interp : Interpreter) (env : Environment),
        (env.host.Blameless σ → ∀ (incoming : List (AssetId × UInt128)) (s t : σ)
          (cause : ProgramError),
            interp.execute env program incoming s ≠ .error (.program cause) t) ∧
        ∀ {payload : Bytes} {bindings : List Binding},
          .call payload bindings ∈ program.instructions → ∀ {s t : σ},
            (∀ cause : ProgramError,
              (resolvePayload (interp.liveValues env) payload bindings).run s ≠
                .error (.program cause) t) ∧
            ∀ {resolved : Bytes},
              (resolvePayload (interp.liveValues env) payload bindings).run s =
                  .ok resolved t →
                ∃ values,
                  List.Forall₂
                    (fun b value =>
                      (b.value.resolve (interp.liveValues env)).run s = .ok value s)
                    bindings values ∧
                  resolved = splice payload (bindings.zip values) ∧
                  Interpreter.Splices payload (bindings.zip values)) ∧
      ∀ (r t : Router), r.registry.host.Blameless Store →
        ∀ (caller : Address) (origin : Origin) (assets : List AssetId) (amounts : List UInt128)
          (cause : ProgramError),
          Router.runProgram caller origin bytes assets amounts r ≠
            .error (.execution (.program cause)) t := by
  refine ⟨fun haccept σ _ _ interp env => ⟨fun hhost incoming s t cause => ?_, ?_⟩, ?_⟩
  · have hwf := (Program.accept_eq_ok_iff.mp haccept).2.2.2
    exact Interpreter.execute_ne_fault hhost hwf interp incoming s t cause
  · intro payload bindings hcall s t
    have hwf := (Program.wellFormed_iff _).mp (Program.accept_eq_ok_iff.mp haccept).2.2.2 _ hcall
    refine ⟨fun cause hrun => ?_, Interpreter.splices_of_resolvePayload⟩
    exact (Interpreter.faultless_resolvePayload hwf s).of_run_error hrun trivial
  · intro r t hhost caller origin assets amounts cause
    exact Router.runProgram_ne_fault hhost caller origin bytes assets amounts cause

/-- A host where every address is a contract that refuses. -/
def refusing : Host where
  assetHandle _ := some .zero
  isToken _ := false
  contract _ := some fun _ _ => throw (.reverted .zero "closed")

theorem blameless_refusing : refusing.Blameless Store := by
  intro address contract hcontract caller calldata s t cause h
  cases hcontract
  cases h

/-- A call with two bindings behind a spawn, run where every contract refuses and where none is
registered. -/
theorem validation_covers_chain :
    (∀ incoming (s t : Store) cause,
      Interpreter.execute ⟨⟨⟨1⟩, .zero⟩, .zero⟩ ⟨⟨1⟩, .zero, .zero, 1, refusing⟩ (.chain 1)
        incoming s ≠ .error (.program cause) t) ∧
      (∃ values, Interpreter.Splices (List.replicate 36 0)
        (List.zip [⟨20, .assetAmount ⟨9⟩ ⟨1, 2⟩⟩, ⟨0, .self⟩] values)) ∧
      ∀ (t : Router) caller origin assets amounts cause,
        Router.runProgram caller origin (Program.chain 1).toWire assets amounts
            ⟨⟨⟨1⟩, .zero, 1⟩, .empty, [], .empty, []⟩ ≠ .error (.execution (.program cause)) t := by
  have haccept : Program.accept (Program.chain 1).toWire = .ok (.chain 1) :=
    Program.accept_eq_ok_iff.mpr
      ⟨Program.chain_fits 1, rfl, by decide, Program.chain_wellFormed 1⟩
  have hempty : Registry.empty.host.Blameless Store := fun _ _ hcontract => nomatch hcontract
  obtain ⟨hprogram, hrouter⟩ := validation_covers_execution (Program.chain 1).toWire
  obtain ⟨hexecute, hcall⟩ := @hprogram _ haccept Store _ _ ⟨⟨⟨1⟩, .zero⟩, .zero⟩
    ⟨⟨1⟩, .zero, .zero, 1, refusing⟩
  refine ⟨hexecute blameless_refusing, ?_, fun t => hrouter _ t hempty⟩
  obtain ⟨-, hsplices⟩ := @hcall _ _ (.tail _ (.head _)) Store.empty Store.empty
  obtain ⟨values, -, -, hvalues⟩ := hsplices rfl
  exact ⟨values, hvalues⟩

end Crossnet
