import Crossnet.Proofs.Program.Acceptance
import Crossnet.Proofs.Router.Events

/-!
# The events tell the truth

What a run reports can be written down from its calls and their answers alone, by
someone who never sees the router: `chronicle`.  Such a reader knows which
interpreters there are by now, and takes the hash of a program from the bytes that
were delivered, since accepted bytes are the only spelling of their program.

* `reports_of_performs`: what a call that ends well reports.
* `Truthful.tells`: **every interpreter is reported once, and before its programs.**
* `reported_eq_chronicle`: **a run reports what its chronicle says.**
-/

namespace Crossnet

theorem Program.hash_of_accept {bytes : Bytes} {program : Program}
    (h : Program.accept bytes = .ok program) :
    program.hash = sha3 ("PROGRAM".toUTF8.data.toList ++ bytes) := by
  rw [(Program.accept_eq_ok_iff.mp h).2.1]
  rfl

namespace RouterEvent

/-- Whether the event is the creation of an origin's interpreter. -/
def isCreationOf (origin : Origin) : RouterEvent → Bool
  | interpreterCreated created _ => created = origin
  | _ => false

theorem isCreationOf_iff {origin : Origin} {event : RouterEvent} :
    event.isCreationOf origin = true ↔ ∃ address, event = .interpreterCreated origin address := by
  cases event with
  | interpreterCreated created address => simp [isCreationOf]
  | _ => simp [isCreationOf]

end RouterEvent

namespace Router

/-! ## The chronicle of a run -/

/-- What is reported of a call for an origin, where the interpreters of some origins are there. -/
def opened (known : List Origin) (origin : Origin) : List RouterEvent :=
  if origin ∈ known then [] else [.interpreterCreated origin origin.interpreterAddress]

/-- What is reported of a call that ended well, where the interpreters of some origins are there. -/
def Call.tells (known : List Origin) (answer : Answer) : Call → List RouterEvent
  | registerBridge _ bridge network => [.bridgeRegistered network bridge]
  | registerAsset _ handle asset => [.assetRegistered asset handle]
  | registerContract _ address _ => [.contractRegistered address]
  | mint .. => []
  | createInterpreter origin => opened known origin
  | runProgram _ origin bytes _ _ =>
    opened known origin ++
      .programExecuted origin (sha3 ("PROGRAM".toUTF8.data.toList ++ bytes)) ::
        answer.spawns.map .spawn
  | addOwners .. => []
  | removeOwners .. => []
  | takeEvents => []

/-- The origins whose interpreters are there after a call that ended well. -/
def Call.knows (known : List Origin) : Call → List Origin
  | createInterpreter origin => known.insert origin
  | runProgram _ origin _ _ _ => known.insert origin
  | _ => known

/-- What is reported of calls in order, each with what it answered. -/
def chronicle (known : List Origin) :
    List (Call × Except RouterError Answer) → List RouterEvent
  | [] => []
  | (_, .error _) :: rest => chronicle known rest
  | (call, .ok answer) :: rest =>
    call.tells known answer ++ chronicle (call.knows known) rest

/-! ## What calls report -/

variable {r t : Router} {call : Call} {answer : Answer} {origin : Origin}

theorem insert_interpreters (r : Router) (origin : Origin) :
    (if r.hasInterpreter origin then r.interpreters else origin :: r.interpreters) =
      r.interpreters.insert origin := rfl

theorem opened_eq (r : Router) (origin : Origin) :
    (if r.hasInterpreter origin then []
      else [RouterEvent.interpreterCreated origin origin.interpreterAddress]) =
      opened r.interpreters origin := by
  unfold opened
  by_cases hhas : origin ∈ r.interpreters
  · rw [if_pos hhas]
    exact if_pos (List.contains_iff_mem.mpr hhas)
  · rw [if_neg hhas]
    exact if_neg fun h => hhas (List.contains_iff_mem.mp h)

/-- What a call that ends well reports, and which interpreters there are after it. -/
theorem reports_of_performs (h : Performs r call answer t) :
    t.events.drop r.events.length = call.tells r.interpreters answer ∧
      t.interpreters = call.knows r.interpreters := by
  have hadds : ∀ added : List RouterEvent, t.events = r.events ++ added →
      t.events.drop r.events.length = added := by
    intro added hevents
    rw [hevents, List.drop_left]
  cases h with
  | registerBridge => exact ⟨hadds _ rfl, rfl⟩
  | registerAsset => exact ⟨hadds _ rfl, rfl⟩
  | registerContract => exact ⟨hadds _ rfl, rfl⟩
  | mint => exact ⟨hadds [] (List.append_nil _).symm, rfl⟩
  | @createInterpreter origin =>
    have hopened := opened_eq r origin
    have hknown := insert_interpreters r origin
    show _ = opened r.interpreters origin ∧ _ = r.interpreters.insert origin
    rw [← hopened, ← hknown]
    unfold created at hadds ⊢
    cases hhas : r.hasInterpreter origin with
    | true => exact ⟨List.drop_length, rfl⟩
    | false =>
      rw [hhas] at hadds
      exact ⟨hadds _ rfl, rfl⟩
  | @runProgram caller origin bytes assets amounts program outcome store _ _ haccept =>
    refine ⟨hadds _ ?_, insert_interpreters r origin⟩
    show r.events ++ _ ++ .programExecuted origin program.hash :: outcome.spawns.map .spawn =
      r.events ++ (opened r.interpreters origin ++ _ :: outcome.spawns.map .spawn)
    rw [opened_eq, Program.hash_of_accept haccept, List.append_assoc]
  | takeEvents => exact ⟨List.drop_nil, rfl⟩

theorem reports_of_ok {m : Moment} (h : m.answer = .ok answer) :
    m.reports = m.call.tells m.before.interpreters answer ∧
      m.after.interpreters = m.call.knows m.before.interpreters :=
  reports_of_performs (Call.result_of_ok h)

theorem reports_of_error {m : Moment} {e : RouterError} (h : m.answer = .error e) :
    m.reports = [] ∧ m.after = m.before := by
  have hafter : m.after = m.before := Call.result_of_error h
  exact ⟨by rw [Moment.reports, hafter, List.drop_length], hafter⟩

theorem flatMap_reports (r : Router) (calls : List Call) :
    (history r calls).flatMap Moment.reports =
      chronicle r.interpreters (calls.zip (replay r calls).1) := by
  induction calls generalizing r with
  | nil => rfl
  | cons call rest ih =>
    have hrest := ih (Moment.after ⟨r, call⟩)
    rw [history, List.flatMap_cons, hrest]
    show _ = chronicle r.interpreters ((call, Moment.answer ⟨r, call⟩) :: _)
    cases hanswer : Moment.answer ⟨r, call⟩ with
    | error e =>
      obtain ⟨hreports, hafter⟩ := reports_of_error hanswer
      rw [hreports, chronicle, hafter, List.nil_append]
      show _ = chronicle r.interpreters (rest.zip (replay (Moment.after ⟨r, call⟩) rest).1)
      rw [hafter]
    | ok answer =>
      obtain ⟨hreports, hknown⟩ := reports_of_ok hanswer
      rw [hreports, hknown, chronicle]
      rfl

/-! ## What the events say of interpreters -/

/-- Where the interpreters of some origins are there, each of them was reported once, and before
any program of its origin. -/
structure Truthful (known : List Origin) (events : List RouterEvent) : Prop where
  created_iff : ∀ origin address, .interpreterCreated origin address ∈ events ↔
    origin ∈ known ∧ address = origin.interpreterAddress
  once : ∀ origin, events.countP (RouterEvent.isCreationOf origin) ≤ 1
  executed : ∀ {origin hash front back}, events = front ++ .programExecuted origin hash :: back →
    .interpreterCreated origin origin.interpreterAddress ∈ front

namespace Truthful

variable {known : List Origin} {events : List RouterEvent}

theorem nil : Truthful [] [] where
  created_iff _ _ := by simp
  once _ := Nat.zero_le 1
  executed h := by simp at h

/-- A program among the events that are added is one of an origin whose interpreter was there. -/
theorem executed_append (h : Truthful known events) {added : List RouterEvent}
    (hadded : ∀ origin hash, .programExecuted origin hash ∈ added → origin ∈ known)
    {hash : Digest} {front back : List RouterEvent}
    (heq : events ++ added = front ++ .programExecuted origin hash :: back) :
    .interpreterCreated origin origin.interpreterAddress ∈ front := by
  have hlater : ∀ middle, front = events ++ middle →
      .programExecuted origin hash ∈ added →
      .interpreterCreated origin origin.interpreterAddress ∈ front := by
    rintro middle rfl hmem
    exact List.mem_append_left _ ((h.created_iff _ _).mpr ⟨hadded _ _ hmem, rfl⟩)
  rcases List.append_eq_append_iff.mp heq with ⟨middle, hfront, rfl⟩ | ⟨middle, hevents, hback⟩
  · exact hlater middle hfront (List.mem_append_right _ List.mem_cons_self)
  · cases middle with
    | nil =>
      rw [List.append_nil] at hevents
      refine hlater [] (by rw [hevents, List.append_nil]) ?_
      rw [show added = _ from hback.symm]
      exact List.mem_cons_self
    | cons first middle =>
      cases hback
      exact h.executed hevents

/-- Events that create nothing. -/
theorem append (h : Truthful known events) {added : List RouterEvent}
    (hcreates : ∀ e ∈ added, ∀ origin, e.isCreationOf origin = false)
    (hadded : ∀ origin hash, .programExecuted origin hash ∈ added → origin ∈ known) :
    Truthful known (events ++ added) where
  created_iff o address := by
    rw [List.mem_append, h.created_iff]
    refine or_iff_left fun hmem => ?_
    have hcreation : RouterEvent.isCreationOf o (.interpreterCreated o address) = true :=
      RouterEvent.isCreationOf_iff.mpr ⟨address, rfl⟩
    rw [hcreates _ hmem o] at hcreation
    cases hcreation
  once o := by
    have hnone : added.countP (RouterEvent.isCreationOf o) = 0 := by
      rw [List.countP_eq_zero]
      intro e he
      rw [hcreates e he o]
      exact Bool.false_ne_true
    rw [List.countP_append, hnone]
    exact h.once o
  executed := h.executed_append hadded

/-- The creation of an interpreter that was not there. -/
theorem create (h : Truthful known events) (hnew : origin ∉ known) :
    Truthful (origin :: known)
      (events ++ [.interpreterCreated origin origin.interpreterAddress]) where
  created_iff o address := by
    rw [List.mem_append, h.created_iff, List.mem_singleton, List.mem_cons,
      RouterEvent.interpreterCreated.injEq]
    constructor
    · rintro (⟨hold, haddress⟩ | ⟨rfl, haddress⟩)
      · exact ⟨.inr hold, haddress⟩
      · exact ⟨.inl rfl, haddress⟩
    · rintro ⟨rfl | hold, haddress⟩
      · exact .inr ⟨rfl, haddress⟩
      · exact .inl ⟨hold, haddress⟩
  once o := by
    rw [List.countP_append, List.countP_singleton]
    by_cases ho : origin = o
    · subst ho
      have hnone : events.countP (RouterEvent.isCreationOf origin) = 0 := by
        rw [List.countP_eq_zero]
        intro e he hcreation
        obtain ⟨address, rfl⟩ := RouterEvent.isCreationOf_iff.mp hcreation
        exact hnew ((h.created_iff origin address).mp he).1
      rw [hnone]
      split
      · exact Nat.le_refl 1
      · exact Nat.zero_le 1
    · have hother : RouterEvent.isCreationOf o
          (.interpreterCreated origin origin.interpreterAddress) = false :=
        decide_eq_false ho
      rw [hother]
      exact h.once o
  executed := h.executed_append fun o hash hmem => by cases List.mem_singleton.mp hmem

/-- A call for an origin leaves its interpreter there and reports it if it was new. -/
theorem opened (h : Truthful known events) (origin : Origin) :
    Truthful (known.insert origin) (events ++ Router.opened known origin) := by
  unfold Router.opened
  by_cases hmem : origin ∈ known
  · rw [if_pos hmem, List.append_nil, List.insert_of_mem hmem]
    exact h
  · rw [if_neg hmem, List.insert_of_not_mem hmem]
    exact h.create hmem

/-- **Every interpreter is reported once, and before its programs**, whatever call ends well. -/
theorem tells (h : Truthful known events) (call : Call) (answer : Answer) :
    Truthful (call.knows known) (events ++ call.tells known answer) := by
  -- A registration is one event that is neither a creation nor a program.
  have hone : ∀ event : RouterEvent, (∀ origin, event.isCreationOf origin = false) →
      (∀ origin hash, event ≠ .programExecuted origin hash) →
      Truthful known (events ++ [event]) := by
    intro event hcreates hprogram
    refine h.append (fun e he => ?_) fun origin hash hmem => ?_
    · rw [List.mem_singleton.mp he]
      exact hcreates
    · exact absurd (List.mem_singleton.mp hmem).symm (hprogram origin hash)
  have hnone : Truthful known (events ++ []) := by
    rw [List.append_nil]
    exact h
  cases call with
  | registerBridge caller bridge network => exact hone _ (fun _ => rfl) fun _ _ => nofun
  | registerAsset caller handle asset => exact hone _ (fun _ => rfl) fun _ _ => nofun
  | registerContract caller address contract => exact hone _ (fun _ => rfl) fun _ _ => nofun
  | mint caller asset holder amount => exact hnone
  | createInterpreter origin => exact h.opened origin
  | runProgram caller origin bytes assets amounts =>
    have hmem : origin ∈ known.insert origin := List.mem_insert_self
    show Truthful (known.insert origin) (events ++ (Router.opened known origin ++ _))
    rw [← List.append_assoc]
    refine (h.opened origin).append (fun e he o => ?_) fun o hash hprogram => ?_
    · rcases List.mem_cons.mp he with rfl | he
      · rfl
      · obtain ⟨record, -, rfl⟩ := List.mem_map.mp he
        rfl
    · rcases List.mem_cons.mp hprogram with heq | hspawn
      · cases heq
        exact hmem
      · obtain ⟨record, -, hrecord⟩ := List.mem_map.mp hspawn
        cases hrecord
  | addOwners caller origin owners => exact hnone
  | removeOwners caller origin owners => exact hnone
  | takeEvents => exact hnone

/-- What was reported before a run and in it is true of the interpreters after it. -/
theorem replay {events : List RouterEvent} {r : Router} (h : Truthful r.interpreters events)
    (calls : List Call) :
    Truthful (Router.replay r calls).2.interpreters
      (events ++ (history r calls).flatMap Moment.reports) := by
  induction calls generalizing events r with
  | nil =>
    show Truthful r.interpreters (events ++ [])
    rw [List.append_nil]
    exact h
  | cons call rest ih =>
    have hafter : Truthful (Moment.after ⟨r, call⟩).interpreters
        (events ++ Moment.reports ⟨r, call⟩) := by
      cases hanswer : Moment.answer ⟨r, call⟩ with
      | error e =>
        obtain ⟨hreports, hsame⟩ := reports_of_error hanswer
        rw [hreports, hsame, List.append_nil]
        exact h
      | ok answer =>
        obtain ⟨hreports, hknown⟩ := reports_of_ok hanswer
        rw [hreports, hknown]
        exact h.tells call answer
    rw [history, List.flatMap_cons, ← List.append_assoc]
    exact ih hafter

end Truthful

theorem interpreterAddress?_eq_some_iff {address : Address} :
    r.interpreterAddress? origin = some address ↔
      origin ∈ r.interpreters ∧ address = origin.interpreterAddress := by
  unfold interpreterAddress? hasInterpreter
  by_cases hmem : origin ∈ r.interpreters
  · rw [if_pos (List.contains_iff_mem.mpr hmem), Option.some.injEq, eq_comm]
    exact (and_iff_right hmem).symm
  · rw [if_neg fun h => hmem (List.contains_iff_mem.mp h)]
    exact iff_of_false nofun fun h => hmem h.1

/-- **The events tell the truth.**  Whenever events are taken, those that were taken and those that
are kept are what the calls of the run and their answers tell, in order.  So an interpreter is
reported once at most and before every program of its origin, and its address is known exactly when
it was reported. -/
theorem reported_eq_chronicle {config : RouterConfig} {store : Store}
    (hcreate : create config store = .ok r) (calls : List Call) :
    reported r calls = chronicle [] (calls.zip (replay r calls).1) ∧
      ∀ origin,
        (reported r calls).countP (RouterEvent.isCreationOf origin) ≤ 1 ∧
        (∀ {hash front back},
          reported r calls = front ++ .programExecuted origin hash :: back →
            .interpreterCreated origin origin.interpreterAddress ∈ front) ∧
        ∀ address, (replay r calls).2.interpreterAddress? origin = some address ↔
          .interpreterCreated origin address ∈ reported r calls := by
  obtain ⟨-, rfl⟩ := create_eq_ok.mp hcreate
  have hevents := reported_eq ⟨config, .empty, [], store, []⟩ calls
  have htruth : Truthful (replay ⟨config, .empty, [], store, []⟩ calls).2.interpreters
      (reported ⟨config, .empty, [], store, []⟩ calls) := by
    rw [hevents]
    exact Truthful.nil.replay calls
  refine ⟨?_, fun origin => ⟨htruth.once origin, htruth.executed, fun address => ?_⟩⟩
  · rw [hevents, flatMap_reports]
    rfl
  · rw [htruth.created_iff, interpreterAddress?_eq_some_iff]

/-- An origin that calls act for. -/
def settler : Origin := ⟨⟨1⟩, .zero⟩

/-- A run in which events are taken, an interpreter is created by a program, and the last delivery
is refused. -/
def settlement : List Call :=
  [.registerBridge .zero .zero ⟨1⟩, .takeEvents,
    .runProgram .zero settler (Program.mk [] []).toWire [] [], .createInterpreter settler,
    .runProgram .zero ⟨⟨2⟩, .zero⟩ [] [] []]

/-- The creation of the interpreter is reported with the program that made it necessary. -/
theorem reported_settlement :
    reported fresh settlement =
      [.bridgeRegistered ⟨1⟩ .zero, .interpreterCreated settler settler.interpreterAddress,
        .programExecuted settler
          (sha3 ("PROGRAM".toUTF8.data.toList ++ (Program.mk [] []).toWire))] ∧
      (replay fresh settlement).2.interpreterAddress? settler =
        some settler.interpreterAddress := by
  obtain ⟨hevents, htruth⟩ := reported_eq_chronicle create_fresh settlement
  have hall : reported fresh settlement = [_, _, _] := hevents.trans rfl
  refine ⟨hall, ((htruth settler).2.2 _).mpr ?_⟩
  rw [hall]
  exact .tail _ (.head _)

end Router

end Crossnet
