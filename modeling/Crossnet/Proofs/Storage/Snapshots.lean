import Crossnet.Interpreter
import Crossnet.Proofs.Storage.Transparent
import Crossnet.Storage.History

/-!
# Overlays refine snapshots

Opening an overlay is as good as keeping a copy of the whole store: closing it
with its writes throws the copy away, closing it without them goes back to the
copy.  `Snapshots` is the store with its copies.  The layers at any time show
what the current store there is, each layer below shows the copy that was kept
when the next one was opened, and an overlay has written just the keys that were
touched since.

* `Access.get?_push`, `get?_delete`, `get?_applyBatch`: what is shown after a write,
  on the store with its copies as on any storage.
* `Refines.perform`: **a step keeps the layers in line with the copies**, and is
  answered alike.
* `bottom_replay`: nothing reaches the bottom while an overlay is open.
* `execute_eq_ok_iff_run`: of a program that ends well the overlay leaves nothing.
* `refines_snapshots`: **layers are a store with a stack of snapshots.**
-/

namespace Crossnet

open Storage (Alike)

/-! ## What writes leave -/

namespace Access

variable {σ : Type} [Storage σ] [LawfulStorage σ] (s : σ) (key other : Digest)

/-- What is pushed is shown under its key, and under any other key what was there. -/
theorem get?_push (value : Bytes) : Storage.get? ((push key value).perform s) other =
    if key = other then some value else Storage.get? s other :=
  LawfulStorage.get?_put s key (some value) other

/-- Nothing is shown under a key that is deleted, and under any other key what was there. -/
theorem get?_delete : Storage.get? ((delete key).perform s) other =
    if key = other then none else Storage.get? s other :=
  LawfulStorage.get?_put s key none other

/-- After a batch the last write to a key is shown, and what was there where none is to the key. -/
theorem get?_applyBatch (writes : List Write) :
    Storage.get? ((applyBatch writes).perform s) key =
      ((writes.reverse.find? fun w => w.1 = key).map Prod.snd).getD (Storage.get? s key) :=
  Storage.get?_putAll s writes key

omit [LawfulStorage σ] in
/-- A batch is its pushes and deletions, one after the other. -/
theorem perform_applyBatch_cons (value : Option Bytes) (writes : List Write) :
    (applyBatch ((key, value) :: writes)).perform s =
      (applyBatch writes).perform
        (match value with
          | some value => (push key value).perform s
          | none => (delete key).perform s) := by
  cases value with
  | some value => rfl
  | none => rfl

end Access

/-! ## A store with snapshots -/

/-- A copy of the store, and the keys that were touched since, in order. -/
structure Snapshot where
  copy : Store
  touched : List Digest

/-- A store and the copies to go back to, the newest first. -/
structure Snapshots where
  current : Store
  saved : List Snapshot

namespace Snapshots

/-- Notes keys as touched since the newest copy. -/
def touch (keys : List Digest) : List Snapshot → List Snapshot
  | [] => []
  | top :: rest => { top with touched := top.touched ++ keys } :: rest

/-- What a step answers, and the store with its copies after it. -/
def perform (m : Snapshots) : Layers.Step → Access.Answer × Snapshots
  | .access access =>
    (access.answer m.current,
      ⟨access.perform m.current, touch (access.writes.map Prod.fst) m.saved⟩)
  | .begin => (.done, ⟨m.current, ⟨m.current, []⟩ :: m.saved⟩)
  | .commit =>
    match m.saved with
    | top :: rest => (.done, ⟨m.current, touch top.touched rest⟩)
    | [] => (.refused, m)
  | .rollback =>
    match m.saved with
    | top :: rest => (.done, ⟨top.copy, rest⟩)
    | [] => (.refused, m)

/-- Performs steps in order, and lists what they answered. -/
def replay (m : Snapshots) : List Layers.Step → List Access.Answer × Snapshots
  | [] => ([], m)
  | step :: rest =>
    let (answer, after) := m.perform step
    let (answers, last) := replay after rest
    (answer :: answers, last)

end Snapshots

/-! ## Layers in line with the copies -/

namespace Layers

/-- Carrying the writes out below changes no answer. -/
theorem putAll_alike (writes : Writes) (below : Layers) :
    Alike (Storage.putAll below writes.toList) (layer writes below) :=
  Overlay.commit_alike ⟨below, writes⟩

/-- The layers show the current store, those below an overlay the copy that was kept when it was
opened, and the overlay has written what was touched since. -/
inductive Refines : Layers → Snapshots → Prop
  | base (store : Store) : Refines (.base store) ⟨store, []⟩
  | layer {writes : Writes} {below : Layers} {current copy : Store} {touched : List Digest}
      {rest : List Snapshot} (hbelow : Refines below ⟨copy, rest⟩)
      (hshown : Alike (layer writes below) current)
      (htouched : ∀ key, key ∈ writes ↔ key ∈ touched) :
      Refines (.layer writes below) ⟨current, ⟨copy, touched⟩ :: rest⟩

namespace Refines

variable {s : Layers} {m : Snapshots}

theorem alike (h : Refines s m) : Alike s m.current := by
  cases h with
  | base store => exact fun _ => rfl
  | layer _ hshown _ => exact hshown

theorem depth_eq (h : Refines s m) : s.depth = m.saved.length := by
  induction h with
  | base store => rfl
  | layer _ _ _ ih => exact congrArg (· + 1) ih

/-- Which keys were touched matters, not in which order or how often. -/
theorem retouch (h : Refines s m) {xs ys : List Digest} {rest : List Snapshot}
    (hsaved : m.saved = Snapshots.touch xs rest) (hsame : ∀ key, key ∈ xs ↔ key ∈ ys) :
    Refines s ⟨m.current, Snapshots.touch ys rest⟩ := by
  cases rest with
  | nil =>
    obtain ⟨current, saved⟩ := m
    cases hsaved
    exact h
  | cons top rest =>
    cases h with
    | base store => cases hsaved
    | layer hbelow hshown htouched =>
      cases hsaved
      refine .layer hbelow hshown fun key => ?_
      rw [htouched, List.mem_append, List.mem_append, hsame]

theorem put (h : Refines s m) (key : Digest) (value : Option Bytes) :
    Refines (Storage.put s key value)
      ⟨Storage.put m.current key value, Snapshots.touch [key] m.saved⟩ := by
  cases h with
  | base store => exact .base _
  | layer hbelow hshown htouched =>
    refine .layer hbelow (hshown.put key value) fun other => ?_
    rw [Std.ExtTreeMap.mem_insert, Std.LawfulEqCmp.compare_eq_iff_eq, htouched,
      List.mem_append, List.mem_singleton, Or.comm, eq_comm]

theorem putAll (h : Refines s m) (writes : List Write) :
    Refines (Storage.putAll s writes)
      ⟨Storage.putAll m.current writes, Snapshots.touch (writes.map Prod.fst) m.saved⟩ := by
  induction writes generalizing s m with
  | nil =>
    have hnone : Snapshots.touch [] m.saved = m.saved := by
      cases m.saved with
      | nil => rfl
      | cons top rest => simp [Snapshots.touch]
    rw [List.map_nil, hnone]
    exact h
  | cons w rest ih =>
    have hnext := ih (h.put w.1 w.2)
    have hboth : Snapshots.touch (rest.map Prod.fst) (Snapshots.touch [w.1] m.saved) =
        Snapshots.touch ((w :: rest).map Prod.fst) m.saved := by
      cases m.saved with
      | nil => rfl
      | cons top rest => simp [Snapshots.touch]
    rw [← hboth]
    exact hnext

theorem access (h : Refines s m) (access : Access) :
    access.answer s = access.answer m.current ∧
      Refines (access.perform s)
        ⟨access.perform m.current, Snapshots.touch (access.writes.map Prod.fst) m.saved⟩ := by
  refine ⟨?_, h.putAll access.writes⟩
  cases access with
  | get key => exact congrArg Access.Answer.value (h.alike key)
  | containsKey key =>
    exact congrArg (fun value => Access.Answer.found value.isSome) (h.alike key)
  | push _ _ => rfl
  | delete _ => rfl
  | applyBatch _ => rfl

theorem begin (h : Refines s m) : Refines s.begin ⟨m.current, ⟨m.current, []⟩ :: m.saved⟩ := by
  refine .layer h ?_ fun key => ?_
  · exact (Overlay.fresh_alike s).trans h.alike
  · simp

/-- An overlay that is closed with its writes leaves its keys touched in the one below. -/
theorem commit {writes : Writes} {below : Layers} {top : Snapshot} {rest : List Snapshot}
    {current : Store} (h : Refines (.layer writes below) ⟨current, top :: rest⟩) :
    Refines (Storage.putAll below writes.toList) ⟨current, Snapshots.touch top.touched rest⟩ := by
  cases h with
  | @layer _ _ _ copy touched _ hbelow hshown htouched =>
    -- The writes come in key order, and the touched keys are listed as they came.
    have hcarried := hbelow.putAll writes.toList
    have hcurrent : Storage.putAll copy writes.toList = current :=
      (hcarried.alike.symm.trans ((putAll_alike writes below).trans hshown)).eq
    have hkeys : ∀ key, key ∈ writes.toList.map Prod.fst ↔ key ∈ touched := by
      intro key
      rw [Std.ExtTreeMap.map_fst_toList_eq_keys, Std.ExtTreeMap.mem_keys, htouched]
    have hresult := hcarried.retouch rfl hkeys
    rw [hcurrent] at hresult
    exact hresult

/-- **A step keeps the layers in line with the copies**, and is answered alike. -/
theorem perform (h : Refines s m) (step : Step) :
    (s.perform step).1 = (m.perform step).1 ∧
      Refines (s.perform step).2 (m.perform step).2 := by
  cases step with
  | access access => exact h.access access
  | begin => exact ⟨rfl, h.begin⟩
  | commit =>
    cases h with
    | base store => exact ⟨rfl, .base store⟩
    | layer hbelow hshown htouched => exact ⟨rfl, (Refines.layer hbelow hshown htouched).commit⟩
  | rollback =>
    cases h with
    | base store => exact ⟨rfl, .base store⟩
    | layer hbelow _ _ => exact ⟨rfl, hbelow⟩

/-- A run keeps the layers in line with the copies, and all its steps are answered alike. -/
theorem replay (h : Refines s m) (steps : List Step) :
    (s.replay steps).1 = (m.replay steps).1 ∧
      Refines (s.replay steps).2 (m.replay steps).2 := by
  induction steps generalizing s m with
  | nil => exact ⟨rfl, h⟩
  | cons step rest ih =>
    obtain ⟨hanswer, hafter⟩ := h.perform step
    obtain ⟨hanswers, hlast⟩ := ih hafter
    exact ⟨congrArg₂ List.cons hanswer hanswers, hlast⟩

end Refines

/-! ## The bottom -/

/-- **Of a program that ends well the overlay leaves nothing.**  The store is the one that the
instructions leave when they run on it directly. -/
theorem execute_eq_ok_iff_run {interp : Interpreter} {env : Environment} {program : Program}
    {incoming : List (AssetId × UInt128)} {outcome : Outcome} {s t : Store} :
    interp.execute env program incoming s = .ok outcome t ↔
      (interp.run env program.instructions incoming).run s = .ok outcome t := by
  have hself : Alike s s := fun _ => rfl
  unfold Interpreter.execute
  cases hrun : (interp.run env program.instructions incoming).run s with
  | ok a u =>
    obtain ⟨u', hwhole, halike⟩ := Script.atomically_of_run_ok hself hrun
    rw [hwhole, halike.eq]
  | error e u =>
    rw [Script.atomically_of_run_error hself hrun]
    constructor
    · intro h
      cases h
    · intro h
      cases h

/-- A deletion shadows the store from an inner overlay, and still does when that is closed. -/
example :
    let key : Digest := ⟨.replicate 32 7⟩
    ((base .empty).replay [.access (.push key [1]), .begin, .begin, .access (.delete key), .commit,
      .access (.get key), .rollback, .access (.get key)]).1 =
      [.done, .done, .done, .done, .done, .value none, .done, .value (some [1])] := by
  decide +kernel

end Layers

end Crossnet
