import Crossnet.Proofs.Storage.Transparent

/-!
# How a run ends

`script.Ends bad s good` says both things that one asks of a run from `s`: where
it ends well, its answer and what it leaves are `good`, and where it fails, the
cause is not `bad`.  It is worked out part by part along the script.

* `Ends.bind`: the second part is asked about from where the first one may end.
* `Ends.mapM`, `Ends.forM`: **what each run of a row keeps, the row keeps.**
* `Ends.of_run_ok`, `Ends.of_run_error`: what it says about a run at hand.
-/

namespace Crossnet.Script

variable {ε ε' α β σ : Type} [Storage σ] {bad : ε → Prop} {good : α → σ → Prop} {s t : σ}

/-- From `s` the script ends well with something `good`, or fails for a cause that is not `bad`. -/
def Ends (bad : ε → Prop) (script : Script ε α) (s : σ) (good : α → σ → Prop) : Prop :=
  match script.run s with
  | .ok a t => good a t
  | .error e _ => ¬bad e

theorem Ends.of_run_ok {script : Script ε α} {a : α} (h : script.Ends bad s good)
    (hrun : script.run s = .ok a t) : good a t := by
  rw [Ends, hrun] at h
  exact h

theorem Ends.of_run_error {script : Script ε α} {e : ε} (h : script.Ends bad s good)
    (hrun : script.run s = .error e t) : ¬bad e := by
  rw [Ends, hrun] at h
  exact h

theorem Ends.of_run {script : Script ε α} {a : α} (hrun : script.run s = .ok a t)
    (h : good a t) : script.Ends bad s good := by
  rw [Ends, hrun]
  exact h

theorem ends_iff {script : Script ε α} :
    script.Ends bad s good ↔
      (∀ a t, script.run s = .ok a t → good a t) ∧
        ∀ e t, script.run s = .error e t → ¬bad e := by
  constructor
  · intro h
    exact ⟨fun _ _ => h.of_run_ok, fun _ _ => h.of_run_error⟩
  · rintro ⟨hok, herror⟩
    unfold Ends
    cases hrun : script.run s with
    | ok a t => exact hok a t hrun
    | error e t => exact herror e t hrun

theorem Ends.mono {script : Script ε α} {better : α → σ → Prop} (h : script.Ends bad s better)
    (hgood : ∀ a t, script.run s = .ok a t → better a t → good a t) :
    script.Ends bad s good := by
  rw [ends_iff] at h ⊢
  exact ⟨fun a t hrun => hgood a t hrun (h.1 a t hrun), h.2⟩

/-- A script none of whose causes is bad. -/
theorem Ends.of_harmless (hbad : ∀ e, ¬bad e) (script : Script ε α) (s : σ) :
    script.Ends bad s fun _ _ => True :=
  ends_iff.mpr ⟨fun _ _ _ => trivial, fun e _ _ => hbad e⟩

/-! ## Parts of a script -/

theorem ends_pure {a : α} : (pure a : Script ε α).Ends bad s good ↔ good a s := Iff.rfl

theorem ends_throw {e : ε} : (throw e : Script ε α).Ends bad s good ↔ ¬bad e := Iff.rfl

theorem ends_get? {key : Digest} {good : Option Bytes → σ → Prop} :
    (get? key : Script ε _).Ends bad s good ↔ good (Storage.get? s key) s := Iff.rfl

theorem ends_put {key : Digest} {value : Option Bytes} {good : Unit → σ → Prop} :
    (put key value : Script ε _).Ends bad s good ↔ good () (Storage.put s key value) := Iff.rfl

/-- The second part of a script is asked about from where the first one may end. -/
theorem Ends.bind {script : Script ε α} {f : α → Script ε β} {good : α → σ → Prop}
    {last : β → σ → Prop} (h : script.Ends bad s good)
    (hf : ∀ a t, script.run s = .ok a t → good a t → (f a).Ends bad t last) :
    (script >>= f).Ends bad s last := by
  unfold Ends at h ⊢
  rw [run_bind]
  cases hrun : script.run s with
  | ok a t =>
    rw [hrun] at h
    exact hf a t hrun h
  | error e t =>
    rw [hrun] at h
    exact h

theorem ends_mapError {f : ε → ε'} {bad : ε' → Prop} {script : Script ε α} :
    (script.mapError f).Ends bad s good ↔ script.Ends (fun e => bad (f e)) s good := by
  unfold Ends
  rw [run_mapError]
  cases script.run s with
  | ok a t => exact Iff.rfl
  | error e t => exact Iff.rfl

/-! ## Rows -/

/-- **What each run of a row keeps, the row keeps.** -/
theorem Ends.mapM (keeps : σ → Prop) {f : α → Script ε β} {xs : List α}
    (hf : ∀ x ∈ xs, ∀ s, keeps s → (f x).Ends bad s fun _ t => keeps t) (h : keeps s) :
    (xs.mapM f).Ends bad s fun _ t => keeps t := by
  induction xs generalizing s with
  | nil => exact h
  | cons x rest ih =>
    rw [List.mapM_cons]
    refine (hf x List.mem_cons_self s h).bind fun y t _ ht => ?_
    have hrest := ih (fun x hx => hf x (List.mem_cons_of_mem _ hx)) ht
    exact hrest.bind fun _ _ _ hlast => hlast

theorem Ends.forM (keeps : σ → Prop) {f : α → Script ε Unit} {xs : List α}
    (hf : ∀ x ∈ xs, ∀ s, keeps s → (f x).Ends bad s fun _ t => keeps t) (h : keeps s) :
    (xs.forM f).Ends bad s fun _ t => keeps t := by
  induction xs generalizing s with
  | nil => exact h
  | cons x rest ih =>
    refine (hf x List.mem_cons_self s h).bind fun done t _ ht => ?_
    exact ih (fun x hx => hf x (List.mem_cons_of_mem _ hx)) ht

end Crossnet.Script
