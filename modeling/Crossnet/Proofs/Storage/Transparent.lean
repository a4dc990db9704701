import Mathlib.Data.List.Forall2
import Crossnet.Storage.Script
import Crossnet.Storage.Store

/-!
# Overlays are transparent

A script cannot tell two storages apart that answer every read alike.  An
overlay answers as the storage below it will once the writes are carried out, so
on a store nothing is left of the overlay: a script that runs as a whole or not
at all leaves just what it leaves when it runs on the store itself.

* `Script.run_bind_eq_ok`, `Script.run_mapError_eq_ok`: what a run that ends well
  says about its parts.
* `Script.run_mapM_of_reads`: a list of runs that only read.
* `Script.run_of_alike`: **equal answers to reads give equal runs.**
* `Overlay.commit_alike`: carrying the writes out changes no answer.
* `Script.atomically_of_run_ok`, `Script.atomically_of_run_error`: a script as a
  whole and the same script when it just runs.
* `Script.atomically_bind`: **writes that are carried out between two scripts
  make no difference.**
-/

namespace Crossnet

namespace Script

variable {ε ε' α β σ : Type} [Storage σ]

/-! ## The parts of a run -/

@[simp] theorem run_pure_eq_ok {a b : α} {s t : σ} :
    (pure a : Script ε α).run s = .ok b t ↔ t = s ∧ a = b := by
  constructor
  · intro h
    cases h
    exact ⟨rfl, rfl⟩
  · rintro ⟨rfl, rfl⟩
    rfl

@[simp] theorem run_throw_ne_ok {e : ε} {a : α} {s t : σ} :
    (throw e : Script ε α).run s ≠ .ok a t := by
  intro h
  cases h

@[simp] theorem run_get? (key : Digest) (s : σ) :
    (get? key : Script ε _).run s = .ok (Storage.get? s key) s := rfl

@[simp] theorem run_put (key : Digest) (value : Option Bytes) (s : σ) :
    (put key value : Script ε _).run s = .ok () (Storage.put s key value) := rfl

theorem run_bind_eq_ok {script : Script ε α} {f : α → Script ε β} {s t : σ} {b : β} :
    (script >>= f).run s = .ok b t ↔
      ∃ a u, script.run s = .ok a u ∧ (f a).run u = .ok b t := by
  rw [run_bind]
  cases script.run s with
  | ok a u =>
    constructor
    · intro h
      exact ⟨a, u, rfl, h⟩
    · rintro ⟨a, u, h, hf⟩
      cases h
      exact hf
  | error e u =>
    constructor
    · intro h
      cases h
    · rintro ⟨a, u, h, -⟩
      cases h

theorem run_bind_eq_error {script : Script ε α} {f : α → Script ε β} {s t : σ} {e : ε} :
    (script >>= f).run s = .error e t ↔
      script.run s = .error e t ∨ ∃ a u, script.run s = .ok a u ∧ (f a).run u = .error e t := by
  rw [run_bind]
  cases script.run s with
  | ok a u => simp
  | error d u => simp

theorem run_bind_of_ok {script : Script ε α} {s u : σ} {a : α} (h : script.run s = .ok a u)
    (f : α → Script ε β) : (script >>= f).run s = (f a).run u := by
  rw [run_bind, h]

theorem run_map_eq_ok {f : α → β} {script : Script ε α} {s t : σ} {b : β} :
    (f <$> script).run s = .ok b t ↔ ∃ a, script.run s = .ok a t ∧ f a = b := by
  rw [← bind_pure_comp, run_bind_eq_ok]
  constructor
  · rintro ⟨a, u, h, hb⟩
    obtain ⟨rfl, rfl⟩ := run_pure_eq_ok.mp hb
    exact ⟨a, h, rfl⟩
  · rintro ⟨a, h, rfl⟩
    exact ⟨a, t, h, run_pure_eq_ok.mpr ⟨rfl, rfl⟩⟩

theorem run_mapError_eq_ok {f : ε → ε'} {script : Script ε α} {s t : σ} {a : α} :
    (script.mapError f).run s = .ok a t ↔ script.run s = .ok a t := by
  rw [run_mapError]
  cases script.run s with
  | ok b u =>
    constructor
    · intro h
      cases h
      rfl
    · intro h
      cases h
      rfl
  | error e u =>
    constructor
    · intro h
      cases h
    · intro h
      cases h

theorem run_mapError_eq_error {f : ε → ε'} {script : Script ε α} {s t : σ} {e : ε'} :
    (script.mapError f).run s = .error e t ↔ ∃ d, script.run s = .error d t ∧ f d = e := by
  rw [run_mapError]
  cases script.run s with
  | ok a u => simp
  | error d u => simp [and_comm]

/-- A script behind a check. -/
theorem run_check_eq_ok {c : Prop} [Decidable c] {e : ε} {next : Script ε α} {s t : σ} {a : α} :
    (if c then (throw e : Script ε Unit) >>= fun _ => next else next).run s = .ok a t ↔
      ¬c ∧ next.run s = .ok a t := by
  by_cases hc : c
  · rw [if_pos hc]
    constructor
    · intro h
      cases h
    · rintro ⟨hnot, -⟩
      exact absurd hc hnot
  · rw [if_neg hc]
    exact (and_iff_right hc).symm

/-- Where one run leaves the storage as it was, so does a list of them, and their answers are those
of runs on that storage. -/
theorem run_mapM_of_reads {f : α → Script ε β} {s : σ}
    (hf : ∀ a b t, (f a).run s = .ok b t → t = s) {xs : List α} {ys : List β} {t : σ}
    (h : (xs.mapM f).run s = .ok ys t) :
    t = s ∧ List.Forall₂ (fun a b => (f a).run s = .ok b s) xs ys := by
  induction xs generalizing ys t with
  | nil =>
    cases h
    exact ⟨rfl, .nil⟩
  | cons x rest ih =>
    rw [List.mapM_cons] at h
    obtain ⟨y, u, hx, hrest⟩ := run_bind_eq_ok.mp h
    obtain rfl := hf x y u hx
    obtain ⟨zs, v, hzs, hdone⟩ := run_bind_eq_ok.mp hrest
    obtain ⟨rfl, hall⟩ := ih hzs
    cases hdone
    exact ⟨rfl, .cons hx hall⟩

end Script

/-! ## Storages that answer alike -/

namespace Storage

variable {σ τ : Type} [Storage σ] [Storage τ]

/-- Every read has the same answer on both. -/
def Alike (s : σ) (t : τ) : Prop := ∀ key, get? s key = get? t key

theorem Alike.symm {s : σ} {t : τ} (h : Alike s t) : Alike t s := fun key => (h key).symm

theorem Alike.trans {υ : Type} [Storage υ] {s : σ} {t : τ} {u : υ} (hst : Alike s t)
    (htu : Alike t u) : Alike s u :=
  fun key => (hst key).trans (htu key)

theorem Alike.put [LawfulStorage σ] [LawfulStorage τ] {s : σ} {t : τ} (h : Alike s t)
    (key : Digest) (value : Option Bytes) : Alike (put s key value) (put t key value) := by
  intro other
  rw [LawfulStorage.get?_put, LawfulStorage.get?_put, h other]

theorem Alike.eq {s t : Store} (h : Alike s t) : s = t := Store.ext_get? h

end Storage

open Storage (Alike)

namespace Script

variable {ε α σ τ : Type} [Storage σ] [Storage τ] [LawfulStorage σ] [LawfulStorage τ]

/-- **A run depends on the answers to reads only.**  The storages need not be of one kind. -/
theorem run_of_alike (script : Script ε α) {s : σ} {t : τ} (h : Alike s t) :
    (∃ a s' t', script.run s = .ok a s' ∧ script.run t = .ok a t' ∧ Alike s' t') ∨
      ∃ e s' t', script.run s = .error e s' ∧ script.run t = .error e t' ∧ Alike s' t' := by
  induction script generalizing s t with
  | done a => exact .inl ⟨a, s, t, rfl, rfl, h⟩
  | fail e => exact .inr ⟨e, s, t, rfl, rfl, h⟩
  | read key next ih =>
    show (∃ a s' t', (next (Storage.get? s key)).run s = .ok a s' ∧
      (next (Storage.get? t key)).run t = .ok a t' ∧ _) ∨ ∃ e s' t', _ ∧
      (next (Storage.get? t key)).run t = .error e t' ∧ _
    rw [← h key]
    exact ih _ h
  | write key value next ih => exact ih (h.put key value)

end Script

/-! ## Writes carried out -/

namespace Storage

variable {σ : Type} [Storage σ] [LawfulStorage σ]

/-- Of the writes to a key the last one is seen. -/
theorem get?_putAll (s : σ) (writes : List Write) (key : Digest) :
    get? (putAll s writes) key =
      ((writes.reverse.find? fun w => w.1 = key).map Prod.snd).getD (get? s key) := by
  induction writes generalizing s with
  | nil => rfl
  | cons w rest ih =>
    show get? (putAll (put s w.1 w.2) rest) key = _
    rw [ih, List.reverse_cons, List.find?_append]
    cases rest.reverse.find? fun w => w.1 = key with
    | some later => rfl
    | none =>
      rw [Option.map_none, Option.getD_none, LawfulStorage.get?_put, Option.none_or]
      by_cases hkey : w.1 = key
      · simp [hkey]
      · simp [hkey]

theorem get?_putAll_of_notMem {writes : List Write} {key : Digest}
    (h : key ∉ writes.map Prod.fst) (s : σ) : get? (putAll s writes) key = get? s key := by
  have hnone : writes.reverse.find? (fun w => w.1 = key) = none := by
    refine List.find?_eq_none.mpr fun w hw hkey => h ?_
    rw [← of_decide_eq_true hkey]
    exact List.mem_map_of_mem (List.mem_reverse.mp hw)
  rw [get?_putAll, hnone, Option.map_none, Option.getD_none]

/-- Of writes to different keys each is seen. -/
theorem get?_putAll_of_mem {writes : List Write} (hkeys : (writes.map Prod.fst).Nodup)
    {key : Digest} {value : Option Bytes} (h : (key, value) ∈ writes) (s : σ) :
    get? (putAll s writes) key = value := by
  induction writes generalizing s with
  | nil => cases h
  | cons w rest ih =>
    rw [List.map_cons, List.nodup_cons] at hkeys
    show get? (putAll (put s w.1 w.2) rest) key = _
    rcases List.mem_cons.mp h with rfl | h
    · rw [get?_putAll_of_notMem hkeys.1, LawfulStorage.get?_put, if_pos rfl]
    · exact ih hkeys.2 h _

end Storage

namespace Overlay

variable {σ : Type}

theorem nodup_keys_writes (o : Overlay σ) : (o.writes.toList.map Prod.fst).Nodup := by
  rw [List.Nodup, List.pairwise_map]
  refine Std.ExtTreeMap.distinct_keys_toList.imp ?_
  intro a b hne heq
  exact hne (by rw [heq]; exact Std.ReflCmp.compare_self)

variable [Storage σ]

theorem fresh_alike (s : σ) : Alike (fresh s) s := by
  intro key
  simp [Storage.get?, fresh]

/-- **Carrying the writes out changes no answer.** -/
theorem commit_alike [LawfulStorage σ] (o : Overlay σ) : Alike o.commit o := by
  intro key
  show Storage.get? (Storage.putAll o.below o.writes.toList) key = Storage.get? o key
  simp only [Storage.get?]
  cases hkey : o.writes[key]? with
  | some value =>
    exact Storage.get?_putAll_of_mem o.nodup_keys_writes
      (Std.ExtTreeMap.mem_toList_iff_getElem?_eq_some.mpr hkey) _
  | none =>
    refine Storage.get?_putAll_of_notMem ?_ _
    intro hmem
    obtain ⟨⟨written, value⟩, hwrite, rfl⟩ := List.mem_map.mp hmem
    rw [Std.ExtTreeMap.mem_toList_iff_getElem?_eq_some.mp hwrite] at hkey
    cases hkey

end Overlay

/-! ## Scripts as a whole or not at all -/

namespace Script

variable {ε α β σ τ : Type} [Storage σ] [Storage τ] [LawfulStorage σ] [LawfulStorage τ]
variable {script : Script ε α} {s : σ} {t t' : τ}

/-- **A script that ends well when it just runs does so as a whole**, and leaves the same. -/
theorem atomically_of_run_ok (h : Alike s t) {a : α} (hrun : script.run t = .ok a t') :
    ∃ s', script.atomically s = .ok a s' ∧ Alike s' t' := by
  have hfresh : Alike (Overlay.fresh s) t := (Overlay.fresh_alike s).trans h
  rcases script.run_of_alike hfresh with ⟨b, o, u, ho, hu, hou⟩ | ⟨e, o, u, -, hu, -⟩
  · rw [hrun] at hu
    cases hu
    have hcommit : Alike o.commit t' := o.commit_alike.trans hou
    exact ⟨o.commit, by rw [atomically, ho], hcommit⟩
  · rw [hrun] at hu
    cases hu

omit [LawfulStorage σ] in
/-- A script that fails when it just runs does nothing as a whole. -/
theorem atomically_of_run_error (h : Alike s t) {e : ε} (hrun : script.run t = .error e t') :
    script.atomically s = .error e s := by
  have hfresh : Alike (Overlay.fresh s) t := (Overlay.fresh_alike s).trans h
  rcases script.run_of_alike hfresh with ⟨b, o, u, -, hu, -⟩ | ⟨d, o, u, ho, hu, -⟩
  · rw [hrun] at hu
    cases hu
  · rw [hrun] at hu
    cases hu
    rw [atomically, ho]

/-- Two ends of runs that no read can tell apart. -/
inductive Agree : EStateM.Result ε σ α → EStateM.Result ε τ α → Prop
  | ok {a : α} {s : σ} {t : τ} (h : Alike s t) : Agree (.ok a s) (.ok a t)
  | error {e : ε} {s : σ} {t : τ} (h : Alike s t) : Agree (.error e s) (.error e t)

omit [LawfulStorage σ] [LawfulStorage τ] in
theorem Agree.eq {x y : EStateM.Result ε Store α} (h : Agree x y) : x = y := by
  cases h with
  | ok h => rw [h.eq]
  | error h => rw [h.eq]

/-- Runs one script and then another, each as a whole or not at all.  Where the second fails, what
the first one did is undone too. -/
def inTurn (first : Script ε α) (second : α → Script ε β) : EStateM ε σ β := fun s =>
  match first.atomically s with
  | .ok a u =>
    match (second a).atomically u with
    | .ok b t => .ok b t
    | .error e _ => .error e s
  | .error e _ => .error e s

/-- **What is carried out between two scripts makes no difference.**  On one overlay for both the
second script reads what the first one wrote; on an overlay of its own it reads the same below. -/
theorem atomically_bind (first : Script ε α) (second : α → Script ε β) (s : σ) :
    Agree ((first >>= second).atomically s) (first.inTurn second s) := by
  have hself : Alike s s := fun _ => rfl
  have hwhole := run_bind first second s
  unfold inTurn
  cases hfirst : first.run s with
  | ok a v =>
    obtain ⟨u, hu, huv⟩ := atomically_of_run_ok hself hfirst
    rw [hfirst] at hwhole
    rw [hu]
    dsimp only at hwhole ⊢
    cases hsecond : (second a).run v with
    | ok b w =>
      obtain ⟨t, ht, htw⟩ := atomically_of_run_ok huv hsecond
      obtain ⟨t', ht', htw'⟩ := atomically_of_run_ok hself (hwhole.trans hsecond)
      rw [ht, ht']
      exact .ok (htw'.trans htw.symm)
    | error e w =>
      have hnone := atomically_of_run_error huv hsecond
      have hundone := atomically_of_run_error hself (hwhole.trans hsecond)
      rw [hnone, hundone]
      exact .error hself
  | error e v =>
    rw [hfirst] at hwhole
    have hnone := atomically_of_run_error hself hfirst
    have hundone := atomically_of_run_error hself hwhole
    rw [hnone, hundone]
    exact .error hself

end Script

end Crossnet
