import Crossnet.Proofs.Registry.Tables
import Crossnet.Proofs.Router.Calls

/-!
# Moments of a run

A run of calls is looked at call by call: a `Moment` is a call and the router
before it, and `history` lists the moments of a run.  A moment is reached by the
calls before it, so what holds of every run holds of the routers before and
after every moment.

* `mem_history`: the moments of a run are its calls.
* `later_after`, `later_replay`: **registrations and interpreters are never taken
  back.**
* `consistent_replay`: assets and tokens are matched one to one at all times.
-/

namespace Crossnet.Router

/-- A call in a run and the router before it. -/
structure Moment where
  before : Router
  call : Call

namespace Moment

/-- What the call answered. -/
def answer (m : Moment) : Except RouterError Answer := (m.call.result m.before).1

/-- The router after the call. -/
def after (m : Moment) : Router := (m.call.result m.before).2

/-- A call that fails or ends well. -/
theorem after_cases (m : Moment) :
    (m.answer.isOk = false ∧ m.after = m.before) ∨
      m.answer.isOk = true ∧ ∃ answer, Performs m.before m.call answer m.after := by
  cases hanswer : m.answer with
  | error e => exact .inl ⟨rfl, Call.result_of_error hanswer⟩
  | ok answer => exact .inr ⟨rfl, answer, Call.result_of_ok hanswer⟩

theorem after_of_not_isOk {m : Moment} (h : m.answer.isOk = false) : m.after = m.before := by
  rcases m.after_cases with ⟨-, heq⟩ | ⟨hok, -⟩
  · exact heq
  · rw [h] at hok
    cases hok

theorem performs_of_isOk (m : Moment) (h : m.answer.isOk = true) :
    ∃ answer, Performs m.before m.call answer m.after := by
  rcases m.after_cases with ⟨hfail, -⟩ | ⟨-, hperforms⟩
  · rw [hfail] at h
    cases h
  · exact hperforms

end Moment

/-- The moments of a run. -/
def history (r : Router) : List Call → List Moment
  | [] => []
  | call :: rest => ⟨r, call⟩ :: history (Moment.after ⟨r, call⟩) rest

theorem replay_nil (r : Router) : (replay r []).2 = r := rfl

theorem replay_cons (r : Router) (call : Call) (rest : List Call) :
    (replay r (call :: rest)).2 = (replay (Moment.after ⟨r, call⟩) rest).2 := rfl

theorem replay_cons_of_ok {r t : Router} {call : Call} {answer : Answer}
    (h : call.perform r = .ok answer t) (rest : List Call) :
    (replay r (call :: rest)).2 = (replay t rest).2 := by
  have hafter : Moment.after ⟨r, call⟩ = t := by
    unfold Moment.after Call.result
    rw [h]
  rw [replay_cons, hafter]

theorem replay_append (r : Router) (xs ys : List Call) :
    (replay r (xs ++ ys)).2 = (replay (replay r xs).2 ys).2 := by
  induction xs generalizing r with
  | nil => rfl
  | cons call rest ih => exact ih _

theorem history_append (r : Router) (xs ys : List Call) :
    history r (xs ++ ys) = history r xs ++ history (replay r xs).2 ys := by
  induction xs generalizing r with
  | nil => rfl
  | cons call rest ih => exact congrArg (_ :: ·) (ih _)

/-- **The moments of a run are its calls**, each with the router that the calls before it leave. -/
theorem mem_history {r : Router} {calls : List Call} {m : Moment} :
    m ∈ history r calls ↔
      ∃ front back, calls = front ++ m.call :: back ∧ m.before = (replay r front).2 := by
  induction calls generalizing r with
  | nil =>
    constructor
    · intro h
      cases h
    · rintro ⟨front, back, h, -⟩
      cases front <;> cases h
  | cons call rest ih =>
    rw [history, List.mem_cons]
    constructor
    · rintro (rfl | h)
      · exact ⟨[], rest, rfl, rfl⟩
      · obtain ⟨front, back, rfl, hbefore⟩ := ih.mp h
        exact ⟨call :: front, back, rfl, hbefore⟩
    · rintro ⟨front, back, h, hbefore⟩
      cases front with
      | nil =>
        cases h
        obtain ⟨before, call⟩ := m
        cases hbefore
        exact .inl rfl
      | cons first front =>
        cases h
        exact .inr (ih.mpr ⟨front, back, rfl, hbefore⟩)

/-! ## What stays -/

/-- What was registered and created still is. -/
structure Later (r t : Router) : Prop where
  config : t.config = r.config
  registry : r.registry.Grows t.registry
  interpreters : r.interpreters <:+ t.interpreters

theorem Later.refl (r : Router) : Later r r :=
  ⟨rfl, .refl _, List.suffix_rfl⟩

theorem Later.trans {a b c : Router} (hab : Later a b) (hbc : Later b c) : Later a c :=
  ⟨hbc.config.trans hab.config, hab.registry.trans hbc.registry,
    hab.interpreters.trans hbc.interpreters⟩

theorem create_eq_ok {config : RouterConfig} {store : Store} {r : Router} :
    create config store = .ok r ↔
      config.unitScale ≠ 0 ∧ r = ⟨config, .empty, [], store, []⟩ := by
  unfold create
  by_cases hzero : config.unitScale = 0
  · rw [if_pos hzero]
    constructor
    · intro h
      cases h
    · rintro ⟨h, -⟩
      exact absurd hzero h
  · rw [if_neg hzero]
    constructor
    · intro h
      cases h
      exact ⟨hzero, rfl⟩
    · rintro ⟨-, rfl⟩
      rfl

/-- A router on which nothing has happened yet. -/
def fresh : Router := ⟨⟨⟨0⟩, .zero, 1⟩, .empty, [], .empty, []⟩

theorem create_fresh : create fresh.config Store.empty = .ok fresh :=
  create_eq_ok.mpr ⟨by decide, rfl⟩

/-- A router that knows the bridge of network `1`. -/
def bridged : Router := (replay fresh [.registerBridge .zero .zero ⟨1⟩]).2

theorem later_created (r : Router) (origin : Origin) : Later r (r.created origin) := by
  unfold created
  split
  · exact .refl r
  · exact ⟨rfl, .refl _, List.suffix_cons _ _⟩

theorem later_delivered (r : Router) (origin : Origin) (program : Program) (outcome : Outcome)
    (store : Store) : Later r (r.delivered origin program outcome store) := by
  refine ⟨rfl, .refl _, ?_⟩
  unfold delivered
  dsimp only
  split
  · exact List.suffix_rfl
  · exact List.suffix_cons _ _

/-- What a call that ends well leaves of the tables. -/
theorem later_of_performs {call : Call} {r t : Router} {answer : Answer}
    (h : Performs r call answer t) : Later r t := by
  cases h with
  | registerBridge => exact ⟨rfl, ⟨List.suffix_rfl, List.suffix_rfl⟩, List.suffix_rfl⟩
  | registerAsset _ hregistry =>
    obtain ⟨-, -, -, rfl⟩ := Registry.registerAsset_eq_ok.mp hregistry
    exact ⟨rfl, ⟨List.suffix_cons _ _, List.suffix_rfl⟩, List.suffix_rfl⟩
  | registerContract _ hregistry =>
    obtain ⟨-, -, rfl⟩ := Registry.registerContract_eq_ok.mp hregistry
    exact ⟨rfl, ⟨List.suffix_rfl, List.suffix_cons _ _⟩, List.suffix_rfl⟩
  | mint => exact ⟨rfl, .refl _, List.suffix_rfl⟩
  | createInterpreter => exact later_created r _
  | runProgram => exact later_delivered r _ _ _ _
  | takeEvents => exact ⟨rfl, .refl _, List.suffix_rfl⟩

theorem consistent_of_performs {call : Call} {r t : Router} {answer : Answer}
    (h : Performs r call answer t) (hr : r.registry.Consistent) : t.registry.Consistent := by
  cases h with
  | registerBridge => exact ⟨hr.mirror, hr.assets, hr.handles⟩
  | registerAsset _ hregistry => exact hr.registerAsset hregistry
  | registerContract _ hregistry =>
    obtain ⟨-, -, rfl⟩ := Registry.registerContract_eq_ok.mp hregistry
    exact ⟨hr.mirror, hr.assets, hr.handles⟩
  | mint => exact hr
  | createInterpreter =>
    unfold created
    split
    · exact hr
    · exact hr
  | runProgram => exact hr
  | takeEvents => exact hr

/-- **Registrations and interpreters are never taken back.** -/
theorem later_after (m : Moment) : Later m.before m.after := by
  rcases m.after_cases with ⟨-, heq⟩ | ⟨-, answer, hperforms⟩
  · rw [heq]
    exact .refl _
  · exact later_of_performs hperforms

theorem consistent_after {m : Moment} (h : m.before.registry.Consistent) :
    m.after.registry.Consistent := by
  rcases m.after_cases with ⟨-, heq⟩ | ⟨-, answer, hperforms⟩
  · rw [heq]
    exact h
  · exact consistent_of_performs hperforms h

theorem later_replay (r : Router) (calls : List Call) : Later r (replay r calls).2 := by
  induction calls generalizing r with
  | nil => exact .refl r
  | cons call rest ih => exact (later_after ⟨r, call⟩).trans (ih _)

theorem consistent_replay {r : Router} (h : r.registry.Consistent) (calls : List Call) :
    (replay r calls).2.registry.Consistent := by
  induction calls generalizing r with
  | nil => exact h
  | cons call rest ih => exact ih (consistent_after (m := ⟨r, call⟩) h)

/-- The router after a moment comes before the last one. -/
theorem later_of_mem_history {r : Router} {calls : List Call} {m : Moment}
    (hm : m ∈ history r calls) : Later m.after (replay r calls).2 := by
  obtain ⟨front, back, rfl, hbefore⟩ := mem_history.mp hm
  rw [replay_append, replay_cons, ← hbefore]
  exact later_replay m.after back

theorem consistent_of_mem_history {r : Router} (h : r.registry.Consistent) {calls : List Call}
    {m : Moment} (hm : m ∈ history r calls) : m.before.registry.Consistent := by
  obtain ⟨front, back, -, hbefore⟩ := mem_history.mp hm
  rw [hbefore]
  exact consistent_replay h front

end Crossnet.Router
