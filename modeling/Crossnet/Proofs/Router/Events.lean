import Crossnet.Proofs.Router.Moments

/-!
# The events of a run

A router keeps the events that it reports until they are taken.  A call adds its
events behind the ones that are kept, or takes all of them, so nothing that was
reported is lost: what was taken and what is still kept is what the calls of the
run reported, in order.

* `events_of_performs`: which events a call that ends well adds, and which ones it
  takes.
* `reported_eq`: **what a run reports is what its calls report**, whenever events
  are taken.
* `spawned_eq`: so the spawns that a run reports are the records that its programs
  answer.
-/

namespace Crossnet

/-- The record of a spawn, if the event is one. -/
def RouterEvent.record? : RouterEvent → Option SpawnRecord
  | spawn record => some record
  | _ => none

namespace Router

variable {r t : Router} {call : Call} {answer : Answer}

namespace Answer

/-- The events that a call took. -/
def taken : Answer → List RouterEvent
  | .events taken => taken
  | _ => []

/-- The records that a program left. -/
def spawns : Answer → List SpawnRecord
  | .outcome left => left.spawns
  | _ => []

end Answer

namespace Moment

/-- The events that the call takes. -/
def taken (m : Moment) : List RouterEvent :=
  match m.answer with
  | .ok answer => answer.taken
  | .error _ => []

/-- The records that the call answers. -/
def spawns (m : Moment) : List SpawnRecord :=
  match m.answer with
  | .ok answer => answer.spawns
  | .error _ => []

/-- The events that the call adds to those that are kept. -/
def reports (m : Moment) : List RouterEvent :=
  m.after.events.drop m.before.events.length

theorem spawns_of_ok {m : Moment} {answer : Answer} (h : m.answer = .ok answer) :
    m.spawns = answer.spawns := by
  rw [spawns, h]

theorem spawns_of_not_isOk {m : Moment} (h : m.answer.isOk = false) : m.spawns = [] := by
  unfold spawns
  cases hanswer : m.answer with
  | error e => rfl
  | ok answer =>
    rw [hanswer] at h
    cases h

end Moment

/-! ## Events of calls -/

theorem filterMap_record?_spawn (records : List SpawnRecord) :
    (records.map RouterEvent.spawn).filterMap RouterEvent.record? = records := by
  rw [List.filterMap_map]
  exact List.filterMap_some

/-- A call that ends well adds events to those that are kept, or takes these.  The spawns that it
adds are the records that it answers. -/
theorem events_of_performs (h : Performs r call answer t) :
    answer.taken ++ t.events = r.events ++ t.events.drop r.events.length ∧
      (t.events.drop r.events.length).filterMap RouterEvent.record? = answer.spawns := by
  -- Every call but `takeEvents` takes nothing and leaves the kept events in front.
  have hadds : ∀ added, t.events = r.events ++ added → answer.taken = [] →
      added.filterMap RouterEvent.record? = answer.spawns →
      answer.taken ++ t.events = r.events ++ t.events.drop r.events.length ∧
        (t.events.drop r.events.length).filterMap RouterEvent.record? = answer.spawns := by
    intro added hevents htaken hrecords
    rw [hevents, htaken, List.drop_left]
    exact ⟨rfl, hrecords⟩
  cases h with
  | registerBridge => exact hadds _ rfl rfl rfl
  | registerAsset => exact hadds _ rfl rfl rfl
  | registerContract => exact hadds _ rfl rfl rfl
  | mint => exact hadds [] (List.append_nil _).symm rfl rfl
  | @createInterpreter origin =>
    unfold created at hadds ⊢
    split at hadds
    next hhas =>
      rw [if_pos hhas]
      exact hadds [] (List.append_nil _).symm rfl rfl
    next hnew =>
      rw [if_neg hnew]
      exact hadds _ rfl rfl rfl
  | @runProgram caller origin bytes assets amounts program outcome =>
    refine hadds _ (List.append_assoc _ _ _) rfl ?_
    have hspawns := filterMap_record?_spawn outcome.spawns
    rw [List.filterMap_append]
    split
    · exact hspawns
    · exact hspawns
  | takeEvents => simp [Answer.taken, Answer.spawns]

theorem taken_append_events (m : Moment) :
    m.taken ++ m.after.events = m.before.events ++ m.reports := by
  unfold Moment.taken Moment.reports
  cases hanswer : m.answer with
  | error e =>
    have hafter : m.after = m.before := Call.result_of_error hanswer
    rw [hafter, List.drop_length, List.append_nil]
    rfl
  | ok answer => exact (events_of_performs (Call.result_of_ok hanswer)).1

/-- **The spawns that a call reports are the records that it answers.** -/
theorem filterMap_reports (m : Moment) :
    m.reports.filterMap RouterEvent.record? = m.spawns := by
  unfold Moment.spawns Moment.reports
  cases hanswer : m.answer with
  | error e =>
    have hafter : m.after = m.before := Call.result_of_error hanswer
    rw [hafter, List.drop_length]
    rfl
  | ok answer => exact (events_of_performs (Call.result_of_ok hanswer)).2

/-! ## Events of runs -/

/-- The events that a run reports: those that were taken, and those that are kept in the end. -/
def reported (r : Router) (calls : List Call) : List RouterEvent :=
  (history r calls).flatMap Moment.taken ++ (replay r calls).2.events

/-- The records of the spawns that a run reports. -/
def spawned (r : Router) (calls : List Call) : List SpawnRecord :=
  (reported r calls).filterMap RouterEvent.record?

/-- **What a run reports is what its calls report**, behind the events that were kept before it. -/
theorem reported_eq (r : Router) (calls : List Call) :
    reported r calls = r.events ++ (history r calls).flatMap Moment.reports := by
  induction calls generalizing r with
  | nil => exact (List.append_nil _).symm
  | cons call rest ih =>
    have hfirst := taken_append_events ⟨r, call⟩
    have hrest := ih (Moment.after ⟨r, call⟩)
    unfold reported at hrest ⊢
    rw [history, replay_cons, List.flatMap_cons, List.append_assoc, hrest, ← List.append_assoc,
      hfirst, List.append_assoc]
    rfl

/-- So the spawns that it reports are the records that its programs answer. -/
theorem spawned_eq (r : Router) (calls : List Call) :
    spawned r calls =
      r.events.filterMap RouterEvent.record? ++ (history r calls).flatMap Moment.spawns := by
  have hmoments : (fun m : Moment => m.reports.filterMap RouterEvent.record?) = Moment.spawns :=
    funext filterMap_reports
  rw [spawned, reported_eq, List.filterMap_append, List.filterMap_flatMap, hmoments]

end Router

end Crossnet
