import Crossnet.Proofs.Relayer.Draining
import Crossnet.Proofs.Router.Events
import Crossnet.Relayer.History

/-!
# Moments of a mesh

A run of steps is looked at step by step, as it is for a router: a `Moment` is a
step and the mesh before it.  The attempts of a run are those of its steps, its
deliveries the attempts that ended with an outcome, and its emissions the records
that its routers answered, to a caller or to the relayer.  A run of the relayer
over a channel is the row of its attempts.

* `Drains.replay_eq`: **draining a channel is relaying one record after the
  other.**
* `isDelivered_replay`: **what a relayer takes for delivered is what was
  delivered**, and what it took for it before.
-/

namespace Crossnet

theorem Relayer.isDelivered_note {r : Relayer} {record other : SpawnRecord} :
    (r.note record).isDelivered other = true ↔
      r.isDelivered other = true ∨ record.deliveryKey = other.deliveryKey := by
  unfold isDelivered note
  rw [Std.ExtTreeSet.contains_insert, Bool.or_eq_true, Or.comm, beq_iff_eq,
    Std.LawfulEqCmp.compare_eq_iff_eq]

namespace Mesh

/-- A step in a run and the mesh before it. -/
structure Moment where
  before : Mesh
  step : Step

namespace Moment

/-- The mesh after the step. -/
def after (m : Moment) : Mesh := m.before.after m.step

/-- The attempt that the step makes, if it relays. -/
def attempt? (m : Moment) : Option Attempt :=
  match m.step with
  | .relay record => some (m.before.attempt record).1
  | _ => none

/-- The record that the step delivers. -/
def delivery? (m : Moment) : Option SpawnRecord := m.attempt?.bind Attempt.delivery?

/-- The records that the router of the step answers. -/
def emissions (m : Moment) : List SpawnRecord :=
  match m.step with
  | .call place call =>
    match m.before.routers[place]? with
    | some router => Router.Moment.spawns ⟨router, call⟩
    | none => []
  | .connect _ _ => []
  | .relay record => (m.before.attempt record).1.followUps

end Moment

/-- The moments of a run. -/
def history (m : Mesh) : List Step → List Moment
  | [] => []
  | step :: rest => ⟨m, step⟩ :: history (m.after step) rest

/-- The attempts of a run. -/
def attempts (m : Mesh) (steps : List Step) : List Attempt :=
  (history m steps).filterMap Moment.attempt?

/-- The records that a run delivers. -/
def deliveries (m : Mesh) (steps : List Step) : List SpawnRecord :=
  (attempts m steps).filterMap Attempt.delivery?

/-- The records that routers answer in a run. -/
def emissions (m : Mesh) (steps : List Step) : List SpawnRecord :=
  (history m steps).flatMap Moment.emissions

section

variable (m : Mesh) (step : Step) (xs ys : List Step)

theorem replay_cons : replay m (step :: xs) = replay (m.after step) xs := rfl

theorem attempts_relay (record : SpawnRecord) :
    attempts m (.relay record :: xs) =
      (m.attempt record).1 :: attempts (m.attempt record).2 xs := rfl

theorem deliveries_cons :
    deliveries m (step :: xs) =
      (Moment.mk m step).delivery?.toList ++ deliveries (m.after step) xs := by
  unfold deliveries attempts
  rw [history, List.filterMap_filterMap, List.filterMap_cons, List.filterMap_filterMap]
  unfold Moment.delivery?
  cases (Moment.mk m step).attempt?.bind Attempt.delivery? <;> rfl

theorem deliveries_relay (record : SpawnRecord) :
    deliveries m (.relay record :: xs) =
      (m.attempt record).1.delivery?.toList ++ deliveries (m.attempt record).2 xs :=
  deliveries_cons m (.relay record) xs

theorem emissions_cons :
    emissions m (step :: xs) =
      (Moment.mk m step).emissions ++ emissions (m.after step) xs := List.flatMap_cons

theorem deliveries_append :
    deliveries m (xs ++ ys) = deliveries m xs ++ deliveries (replay m xs) ys := by
  induction xs generalizing m with
  | nil => rfl
  | cons step rest ih =>
    rw [List.cons_append, deliveries_cons, deliveries_cons, ih, List.append_assoc, replay_cons]

end

/-! ## A run over a channel -/

theorem attempt_record (m : Mesh) (record : SpawnRecord) :
    (m.attempt record).1.record = record := by
  unfold attempt
  split <;> rfl

/-- **Draining a channel is relaying one record after the other.** -/
theorem Drains.replay_eq {queue channel : List SpawnRecord} {m last : Mesh} {tried : List Attempt}
    (h : Drains queue channel m tried last) :
    replay m (tried.map fun a => .relay a.record) = last ∧
      attempts m (tried.map fun a => .relay a.record) = tried := by
  induction h with
  | closed => exact ⟨rfl, rfl⟩
  | receive _ ih => exact ih
  | relay _ ih =>
    rw [List.map_cons, attempt_record, attempts_relay, ih.2]
    exact ⟨ih.1, rfl⟩

/-- A task is its steps. -/
theorem Task.replay_steps (m : Mesh) (task : Task) : replay m (task.steps m) = task.after m := by
  cases task with
  | step => rfl
  | drain channel => exact (drains_drain channel m).replay_eq.1

/-! ## What was delivered -/

/-- A step delivers nothing and leaves the notes as they are, or delivers a record that was not
delivered and notes it. -/
theorem Moment.delivery_cases (m : Moment) :
    (m.delivery? = none ∧ m.after.relayer.delivered = m.before.relayer.delivered) ∨
      ∃ record, m.step = .relay record ∧ m.delivery? = some record ∧
        m.before.relayer.isDelivered record = false ∧
        m.after.relayer = m.before.relayer.note record := by
  obtain ⟨before, step⟩ := m
  cases step with
  | call => exact .inl ⟨rfl, rfl⟩
  | connect => exact .inl ⟨rfl, rfl⟩
  | relay record =>
    rcases attempt_cases before record with ⟨hnone, -, hafter⟩ | ⟨_, _, _, _, hnew, -, hattempt⟩
    · refine .inl ⟨hnone, ?_⟩
      show (before.attempt record).2.relayer.delivered = _
      rw [hafter]
    · refine .inr ⟨record, rfl, ?_, hnew, ?_⟩
      · show (before.attempt record).1.delivery? = _
        rw [hattempt]
        rfl
      · show (before.attempt record).2.relayer = _
        rw [hattempt]

theorem Moment.step_of_delivery {m : Moment} {record : SpawnRecord} (h : record ∈ m.delivery?) :
    m.step = .relay record ∧ m.before.relayer.isDelivered record = false := by
  rcases m.delivery_cases with ⟨hnone, -⟩ | ⟨_, hstep, hsome, hnew, -⟩
  · rw [hnone] at h
    cases h
  · rw [hsome] at h
    cases h
    exact ⟨hstep, hnew⟩

theorem isDelivered_after (m : Moment) (record : SpawnRecord) :
    m.after.relayer.isDelivered record = true ↔
      m.before.relayer.isDelivered record = true ∨
        ∃ earlier ∈ m.delivery?, earlier.deliveryKey = record.deliveryKey := by
  rcases m.delivery_cases with ⟨hnone, hsame⟩ | ⟨delivered, -, hsome, -, hnote⟩
  · unfold Relayer.isDelivered
    rw [hnone, hsame]
    simp
  · rw [hnote, hsome, Relayer.isDelivered_note]
    simp

/-- **What a relayer takes for delivered is what was delivered**, and what it took for it before
the run. -/
theorem isDelivered_replay (m : Mesh) (steps : List Step) (record : SpawnRecord) :
    (replay m steps).relayer.isDelivered record = true ↔
      m.relayer.isDelivered record = true ∨
        ∃ earlier ∈ deliveries m steps, earlier.deliveryKey = record.deliveryKey := by
  induction steps generalizing m with
  | nil => simp [replay, deliveries, attempts, history]
  | cons step rest ih =>
    have hstep := isDelivered_after ⟨m, step⟩ record
    rw [replay_cons, ih, deliveries_cons]
    show (Moment.mk m step).after.relayer.isDelivered record = true ∨ _ ↔ _
    rw [hstep]
    simp only [List.mem_append, Option.mem_toList, or_and_right, exists_or, or_assoc]
    rfl

end Mesh

end Crossnet
