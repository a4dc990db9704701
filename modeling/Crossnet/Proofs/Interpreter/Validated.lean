import Crossnet.Proofs.Amount
import Crossnet.Proofs.Interpreter.Ends

/-!
# What is left to refuse in a well-formed program

A running program fails with a cause of its own, `ExecutionError.program`, where a
ratio has denominator zero or bindings do not fit their payload.  Validation looks
for the same faults by a traversal of its own, so none of them is left in a
well-formed program, whatever runs it.

* `faultless_withdrawals`, `faultless_resolvePayload`: the places where a fault would
  show.
* `faultless_run`: **a well-formed program is never found faulty while it runs.**
* `splices_of_resolvePayload`: **every write into a payload fills a span inside
  it.**
-/

namespace Crossnet

/-- No contract fails as if the program were at fault. -/
def Host.Blameless (σ : Type) [Storage σ] (host : Host) : Prop :=
  ∀ ⦃address contract⦄, host.contract address = some contract →
    ∀ caller calldata (s t : σ) cause, (contract caller calldata).run s ≠ .error (.program cause) t

namespace Interpreter

open ExecutionError (IsFault)

variable {σ : Type} [Storage σ] {interp : Interpreter} {env : Environment} {s t : σ}

/-! ## The places where a fault would show -/

/-- The ledger knows nothing of programs. -/
theorem faultless_onLedger {α : Type} (script : Script LedgerError α) (s : σ) :
    (onLedger script).Ends IsFault s fun _ _ => True :=
  Script.ends_mapError.mpr (.of_harmless (fun _ => id) script s)

theorem faultless_withdrawals {portions : List Portion} (h : ∀ p ∈ portions, p.selector.Proper)
    (payee : Address) (s : σ) :
    (portions.mapM (interp.withdraw env payee)).Ends IsFault s fun _ _ => True := by
  refine Script.Ends.mapM (fun _ => True) (fun p hp t _ => ?_) trivial
  refine ends_withdraw (fun _ => .inl) (fun held hamount => ?_)
    (fun _ _ => faultless_onLedger _ t) fun _ _ u _ _ => faultless_onLedger _ u
  exact absurd hamount ((h p hp).amount_ne held env.unitScale)

theorem faultless_resolvePayload {payload : Bytes} {bindings : List Binding}
    (h : (Instruction.call payload bindings).WellFormed) (s : σ) :
    (resolvePayload (interp.liveValues env) payload bindings).Ends IsFault s fun _ _ => True := by
  obtain ⟨hproper, hlayout⟩ := h
  refine ends_resolvePayload (fun _ => .inl) trivial (fun e he => ?_)
    (fun b hb asset share held hvalue hof => ?_) fun _ _ _ _ _ t _ _ _ => faultless_onLedger _ t
  · rw [checkLayout_eq_ok_iff.mpr hlayout] at he
    cases he
  · have hshare := hproper b hb
    rw [hvalue] at hshare
    exact absurd hof (Ratio.of_ne_zeroDenominator hshare held)

theorem Owners.faultless_apply (caller interpreter : Address) (call : OwnerCall) (s : σ) :
    (Owners.apply caller interpreter call).Ends IsFault s fun _ _ => True := by
  have hload : (Owners.load interpreter).Ends IsFault s fun _ _ => True := by
    refine (Script.ends_get?.mpr trivial : Script.Ends IsFault _ s fun _ _ => True).bind
      fun raw t _ _ => ?_
    cases raw with
    | none => exact Script.ends_pure.mpr trivial
    | some raw =>
      dsimp only
      cases (Wire.decode raw : Except DecodeError (List Address)) with
      | ok owners => exact Script.ends_pure.mpr trivial
      | error cause => exact Script.ends_throw.mpr id
  unfold Owners.apply
  split
  · exact Script.ends_throw.mpr id
  · exact hload.bind fun _ _ _ _ => Script.ends_put.mpr trivial

/-! ## Runs -/

section Blameless

variable (hhost : env.host.Blameless σ)

include hhost

theorem faultless_call {payload : Bytes} {bindings : List Binding}
    (h : (Instruction.call payload bindings).WellFormed) (s : σ) :
    (interp.call env payload bindings).Ends IsFault s fun _ _ => True := by
  refine ends_call (fun _ => .inl) (faultless_resolvePayload h s)
    (fun _ change t _ _ => Owners.faultless_apply _ _ change t)
    (fun _ _ _ _ t _ _ _ _ _ => faultless_onLedger _ t) fun _ _ contract t hcontract => ?_
  refine Script.ends_iff.mpr ⟨fun _ _ _ => trivial, fun e u hrun hfault => ?_⟩
  cases e with
  | program cause => exact hhost hcontract _ _ t u cause hrun
  | _ => exact hfault

theorem faultless_step {i : Instruction} (h : i.WellFormed) (s : σ) :
    (interp.step env i).Ends IsFault s fun _ _ => True := by
  cases i with
  | transfer recipient portions =>
    exact (faultless_withdrawals h _ s).bind fun _ _ _ _ => Script.ends_pure.mpr trivial
  | call payload bindings =>
    exact (faultless_call hhost h s).bind fun _ _ _ _ => Script.ends_pure.mpr trivial
  | spawn network salt version program portions =>
    exact (faultless_withdrawals h.1 _ s).bind fun _ _ _ _ => Script.ends_pure.mpr trivial

/-- **A well-formed program is never found faulty while it runs.** -/
theorem faultless_run {program : Program} (h : program.WellFormed)
    (incoming : List (AssetId × UInt128)) (s : σ) :
    (interp.run env program.instructions incoming).Ends IsFault s fun _ _ => True := by
  have hreceive : (interp.receive env incoming).Ends IsFault s fun _ _ => True :=
    ends_receive (fun _ => .inl) trivial fun _ _ _ t _ _ _ => faultless_onLedger _ t
  refine hreceive.bind fun _ t _ _ => ?_
  refine ends_steps (fun _ _ => True) (fun i rest u hsuffix _ => ?_) trivial
  exact faultless_step hhost (program.wellFormed_iff.mp h i (hsuffix.subset List.mem_cons_self)) u

end Blameless

/-! ## Writes into a payload -/

/-- The values that a payload is filled in with are written one after the other, each over a span
that ends inside the payload and is as wide as the value. -/
def Splices (payload : Bytes) (values : List (Binding × Bytes)) : Prop :=
  ∀ ⦃front back : List (Binding × Bytes)⦄ ⦃b : Binding⦄ ⦃value : Bytes⦄,
    values = front ++ (b, value) :: back →
      value.length = b.value.width ∧ b.start + value.length = b.stop ∧
        b.stop ≤ (splice payload front).length

theorem splices_of_fills {payload : Bytes} {values : List (Binding × Bytes)}
    (h : ∀ v ∈ values, Binding.Fills payload.length v) : Splices payload values := by
  rintro front back b value rfl
  obtain ⟨hwidth, hstop⟩ := h (b, value) (List.mem_append_right _ List.mem_cons_self)
  rw [length_splice fun v hv => h v (List.mem_append_left _ hv)]
  exact ⟨hwidth, by rw [hwidth, Binding.stop], hstop⟩

/-- **Every write into a payload fills a span inside it.** -/
theorem splices_of_resolvePayload {payload resolved : Bytes} {bindings : List Binding}
    (h : (resolvePayload (interp.liveValues env) payload bindings).run s = .ok resolved t) :
    ∃ values,
      List.Forall₂ (fun b value => (b.value.resolve (interp.liveValues env)).run s = .ok value s)
        bindings values ∧
      resolved = splice payload (bindings.zip values) ∧
      Splices payload (bindings.zip values) := by
  obtain ⟨-, hlayout, values, hvalues, hresolved⟩ :=
    run_resolvePayload_eq_ok (fun _ _ _ h => run_held_reads h) h
  refine ⟨values, hvalues, hresolved, splices_of_fills ?_⟩
  exact fills_of_resolve hvalues (checkLayout_eq_ok_iff.mp hlayout).1

end Interpreter

end Crossnet
