import Mathlib.Data.Set.Defs
import Crossnet.Proofs.Storage.Transparent

/-!
# Confined runs

Which keys a script touches is decided while it runs.  `Within keys` says of a run
that each of them is among the given ones.  Such a run goes the same way on every
storage that has the same under these keys, and as a whole it leaves the same
writes.

* `within_bind`: the second part is asked about where the first one ends well.
* `run_of_within`: **a confined run depends on its keys alone.**
* `atomically_of_within`: as a whole it writes the same on both storages, or
  fails alike on both.
-/

namespace Crossnet

namespace Storage

variable {σ τ : Type} [Storage σ] [Storage τ]

/-- The storages have the same under the keys. -/
def AgreeOn (keys : Set Digest) (s : σ) (t : τ) : Prop := ∀ key ∈ keys, get? s key = get? t key

theorem AgreeOn.put [LawfulStorage σ] [LawfulStorage τ] {keys : Set Digest} {s : σ} {t : τ}
    (h : AgreeOn keys s t) (key : Digest) (value : Option Bytes) :
    AgreeOn keys (put s key value) (put t key value) := by
  intro other hother
  rw [LawfulStorage.get?_put, LawfulStorage.get?_put, h other hother]

end Storage

open Storage (Alike AgreeOn)

namespace Script

variable {ε ε' α β σ τ : Type} [Storage σ] [Storage τ] {keys : Set Digest}

/-- Every key that the run reads or writes is among the keys. -/
def Within (keys : Set Digest) : Script ε α → σ → Prop
  | done _, _ => True
  | fail _, _ => True
  | read key next, s => key ∈ keys ∧ (next (Storage.get? s key)).Within keys s
  | write key value next, s => key ∈ keys ∧ next.Within keys (Storage.put s key value)

@[simp] theorem within_pure (a : α) (s : σ) : (pure a : Script ε α).Within keys s := trivial

@[simp] theorem within_throw (e : ε) (s : σ) : (throw e : Script ε α).Within keys s := trivial

@[simp] theorem within_get? {key : Digest} {s : σ} :
    (get? key : Script ε _).Within keys s ↔ key ∈ keys :=
  ⟨And.left, fun h => ⟨h, trivial⟩⟩

@[simp] theorem within_put {key : Digest} {value : Option Bytes} {s : σ} :
    (put key value : Script ε _).Within keys s ↔ key ∈ keys :=
  ⟨And.left, fun h => ⟨h, trivial⟩⟩

/-- The second part of a run is asked about where the first one ends well. -/
theorem within_bind {script : Script ε α} {f : α → Script ε β} {s : σ} :
    (script >>= f).Within keys s ↔
      script.Within keys s ∧ ∀ a t, script.run s = .ok a t → (f a).Within keys t := by
  show (script.bind f).Within keys s ↔ _
  induction script generalizing s with
  | done a =>
    constructor
    · intro h
      refine ⟨trivial, fun b t hrun => ?_⟩
      cases hrun
      exact h
    · intro h
      exact h.2 a s rfl
  | fail e =>
    constructor
    · intro _
      refine ⟨trivial, fun b t hrun => ?_⟩
      cases hrun
    · intro _
      trivial
  | read key next ih => exact (and_congr_right fun _ => ih _).trans and_assoc.symm
  | write key value next ih => exact (and_congr_right fun _ => ih).trans and_assoc.symm

theorem within_mapError {f : ε → ε'} {script : Script ε α} {s : σ} :
    (script.mapError f).Within keys s ↔ script.Within keys s := by
  induction script generalizing s with
  | done a => exact Iff.rfl
  | fail e => exact Iff.rfl
  | read key next ih => exact and_congr_right fun _ => ih _
  | write key value next ih => exact and_congr_right fun _ => ih

/-- A list of runs is confined where each is, whatever the storage. -/
theorem within_mapM {f : α → Script ε β} {xs : List α}
    (hf : ∀ x ∈ xs, ∀ s : σ, (f x).Within keys s) (s : σ) : (xs.mapM f).Within keys s := by
  induction xs generalizing s with
  | nil => trivial
  | cons x rest ih =>
    rw [List.mapM_cons]
    refine within_bind.mpr ⟨hf x List.mem_cons_self s, fun y t _ => ?_⟩
    have hrest := ih (fun x hx => hf x (List.mem_cons_of_mem _ hx)) t
    exact within_bind.mpr ⟨hrest, fun _ _ _ => trivial⟩

theorem Within.of_alike [LawfulStorage σ] [LawfulStorage τ] {script : Script ε α} {s : σ} {t : τ}
    (hwithin : script.Within keys s) (h : Alike s t) : script.Within keys t := by
  induction script generalizing s t with
  | done a => trivial
  | fail e => trivial
  | read key next ih =>
    refine ⟨hwithin.1, ?_⟩
    rw [← h key]
    exact ih _ hwithin.2 h
  | write key value next ih => exact ⟨hwithin.1, ih hwithin.2 (h.put key value)⟩

/-! ## Two runs -/

variable {script : Script ε α} {s : σ} {t : τ}

/-- **A confined run depends on its keys alone.** -/
theorem run_of_within [LawfulStorage σ] [LawfulStorage τ] (hwithin : script.Within keys s)
    (h : AgreeOn keys s t) :
    (∃ a s' t', script.run s = .ok a s' ∧ script.run t = .ok a t' ∧ AgreeOn keys s' t') ∨
      ∃ e s' t', script.run s = .error e s' ∧ script.run t = .error e t' ∧
        AgreeOn keys s' t' := by
  induction script generalizing s t with
  | done a => exact .inl ⟨a, s, t, rfl, rfl, h⟩
  | fail e => exact .inr ⟨e, s, t, rfl, rfl, h⟩
  | read key next ih =>
    have hnext := ih (Storage.get? s key) hwithin.2 h
    rw [h key hwithin.1] at hnext
    simp only [run, h key hwithin.1]
    exact hnext
  | write key value next ih => exact ih hwithin.2 (h.put key value)

/-- Confined runs that end well have the same answer. -/
theorem eq_of_within [LawfulStorage σ] [LawfulStorage τ] (hwithin : script.Within keys s)
    (h : AgreeOn keys s t) {a b : α} {s' : σ} {t' : τ} (hs : script.run s = .ok a s')
    (ht : script.run t = .ok b t') : a = b := by
  rcases run_of_within hwithin h with ⟨c, u, v, hu, hv, -⟩ | ⟨e, u, v, hu, -, -⟩
  · cases hs.symm.trans hu
    cases ht.symm.trans hv
    rfl
  · cases hs.symm.trans hu

/-- On overlays that hold the same writes, a confined run leaves the same writes. -/
theorem run_overlay_of_within {writes : Writes} (hwithin : script.Within keys (Overlay.mk s writes))
    (h : AgreeOn keys s t) (hkeys : ∀ key ∈ writes, key ∈ keys) :
    ∃ last : Writes, (∀ key ∈ last, key ∈ keys) ∧
      ((∃ a, script.run (Overlay.mk s writes) = .ok a ⟨s, last⟩ ∧
          script.run (Overlay.mk t writes) = .ok a ⟨t, last⟩) ∨
        ∃ e, script.run (Overlay.mk s writes) = .error e ⟨s, last⟩ ∧
          script.run (Overlay.mk t writes) = .error e ⟨t, last⟩) := by
  -- The overlays hold the same writes all the way, so what they read differs below them only.
  induction script generalizing writes with
  | done a => exact ⟨writes, hkeys, .inl ⟨a, rfl, rfl⟩⟩
  | fail e => exact ⟨writes, hkeys, .inr ⟨e, rfl, rfl⟩⟩
  | read key next ih =>
    have hread : Storage.get? (Overlay.mk s writes) key =
        Storage.get? (Overlay.mk t writes) key := by
      simp only [Storage.get?]
      cases writes[key]? with
      | some value => rfl
      | none => exact h key hwithin.1
    have hnext := ih _ hwithin.2 hkeys
    simp only [run, ← hread]
    exact hnext
  | write key value next ih =>
    refine ih hwithin.2 fun other hother => ?_
    rcases Std.ExtTreeMap.mem_insert.mp hother with heq | hold
    · rw [← Std.LawfulEqCmp.compare_eq_iff_eq.mp heq]
      exact hwithin.1
    · exact hkeys other hold

/-- **As a whole, a confined script writes the same on both storages**, or fails alike on both. -/
theorem atomically_of_within [LawfulStorage σ] (hwithin : script.Within keys s)
    (h : AgreeOn keys s t) :
    (∃ a writes, script.atomically s = .ok a (Storage.putAll s writes) ∧
        script.atomically t = .ok a (Storage.putAll t writes) ∧ ∀ w ∈ writes, w.1 ∈ keys) ∨
      ∃ e, script.atomically s = .error e s ∧ script.atomically t = .error e t := by
  have hfresh : script.Within keys (Overlay.fresh s) :=
    hwithin.of_alike (Overlay.fresh_alike s).symm
  have hnone : ∀ key ∈ (∅ : Writes), key ∈ keys := by
    intro key hkey
    exact absurd hkey Std.ExtTreeMap.not_mem_empty
  obtain ⟨last, hlast, ⟨a, hs, ht⟩ | ⟨e, hs, ht⟩⟩ := run_overlay_of_within hfresh h hnone
  · refine .inl ⟨a, last.toList, ?_, ?_, fun w hw => ?_⟩
    · unfold atomically Overlay.fresh
      rw [hs]
      rfl
    · unfold atomically Overlay.fresh
      rw [ht]
      rfl
    · have hfound := Std.ExtTreeMap.mem_toList_iff_getElem?_eq_some.mp hw
      refine hlast w.1 (Std.ExtTreeMap.mem_iff_isSome_getElem?.mpr ?_)
      rw [hfound]
      rfl
  · refine .inr ⟨e, ?_, ?_⟩
    · unfold atomically Overlay.fresh
      rw [hs]
    · unfold atomically Overlay.fresh
      rw [ht]

end Script

end Crossnet
