import Crossnet.Relayer
import Crossnet.Proofs.Router.Moments

/-!
# Failures leave no trace

A call of a router that fails leaves the router as it was, so a run is what its
calls that end well make of it.  A relayer notes a delivery before it makes it;
a delivery that fails leaves the relayer as it was because the note is taken
back on every way out and was not there before.

* `Router.replay_settled`: **a run does what its calls that end well do.**
* `Relayer.forget_note`: a note that is taken back leaves nothing.
* `Mesh.relays`: what relaying a record comes to.
* `Mesh.attempt_cases`: **an attempt changes nothing, or is a delivery.**
* `failures_leave_no_trace`: **calls and deliveries that fail change nothing.**
-/

namespace Crossnet

/-! ## Runs of a router -/

namespace Router

/-- The calls of a run that end well. -/
def settled (r : Router) (calls : List Call) : List Call :=
  ((history r calls).filter fun m => m.answer.isOk).map Moment.call

/-- **A run does what its calls that end well do.** -/
theorem replay_settled (r : Router) (calls : List Call) :
    (replay r (settled r calls)).2 = (replay r calls).2 := by
  induction calls generalizing r with
  | nil => rfl
  | cons call rest ih =>
    have hrest := ih (Moment.after ⟨r, call⟩)
    rw [replay_cons, ← hrest]
    unfold settled
    rw [history, List.filter_cons]
    cases hok : (Moment.mk r call).answer.isOk with
    | true => rfl
    | false =>
      rw [Moment.after_of_not_isOk hok]
      rfl

end Router

/-! ## Deliveries -/

theorem Relayer.forget_note {r : Relayer} {record : SpawnRecord}
    (h : r.isDelivered record = false) : (r.note record).forget record = r := by
  have hnew : record.deliveryKey ∉ r.delivered := by
    rw [← Std.ExtTreeSet.contains_iff_mem]
    exact ne_true_of_eq_false h
  have hkeys :
      (r.delivered.insert record.deliveryKey).erase record.deliveryKey = r.delivered := by
    refine Std.ExtTreeSet.ext_mem fun key => ?_
    rw [Std.ExtTreeSet.mem_erase, Std.ExtTreeSet.mem_insert]
    constructor
    · rintro ⟨hne, heq | hmem⟩
      · exact absurd heq hne
      · exact hmem
    · intro hmem
      refine ⟨fun heq => hnew ?_, .inr hmem⟩
      rwa [Std.LawfulEqCmp.eq_of_compare heq]
  unfold forget note
  dsimp only
  rw [hkeys]

namespace Mesh

theorem router?_eq_some {m : Mesh} {network : NetworkId} {place : Nat} {router : Router}
    (h : m.router? network = some (place, router)) : m.routers[place]? = some router := by
  unfold router? at h
  obtain ⟨found, -, hnext⟩ := Option.bind_eq_some_iff.mp h
  obtain ⟨there, hthere, hdone⟩ := Option.bind_eq_some_iff.mp hnext
  cases hdone
  exact hthere

/-- A router that is put back changes nothing. -/
theorem set_router {m : Mesh} {network : NetworkId} {place : Nat} {router : Router}
    (h : m.router? network = some (place, router)) : m.routers.set place router = m.routers := by
  obtain ⟨hplace, rfl⟩ := List.getElem?_eq_some_iff.mp (router?_eq_some h)
  exact List.set_getElem_self hplace

/-- What relaying a record comes to. -/
inductive Relays (m : Mesh) (record : SpawnRecord) :
    EStateM.Result RouterError Mesh (Option Outcome) → Prop
  | duplicate (hdelivered : m.relayer.isDelivered record = true) : Relays m record (.ok none m)
  | unconnected (hnew : m.relayer.isDelivered record = false)
      (hrouter : m.router? record.target = none) :
      Relays m record (.error (.unknownNetwork record.target) m)
  | delivered {place : Nat} {router after : Router} {outcome : Outcome}
      (hnew : m.relayer.isDelivered record = false)
      (hrouter : m.router? record.target = some (place, router))
      (hrun : Router.runProgram m.relayer.bridge record.origin record.program record.assets
        record.amounts router = .ok outcome after) :
      Relays m record
        (.ok (some outcome) ⟨m.relayer.note record, m.routers.set place after⟩)
  | refused {place : Nat} {router : Router} {e : RouterError}
      (hnew : m.relayer.isDelivered record = false)
      (hrouter : m.router? record.target = some (place, router))
      (hrun : Router.runProgram m.relayer.bridge record.origin record.program record.assets
        record.amounts router = .error e router) :
      Relays m record (.error e m)

/-- **Relaying a record comes to one of these**: a failure puts everything back. -/
theorem relays (m : Mesh) (record : SpawnRecord) : Relays m record (relay record m) := by
  unfold relay
  cases hnew : m.relayer.isDelivered record with
  | true => exact .duplicate hnew
  | false =>
    rw [if_neg Bool.false_ne_true]
    dsimp only
    rw [Relayer.forget_note hnew]
    cases hrouter : m.router? record.target with
    | none => exact .unconnected hnew hrouter
    | some found =>
      obtain ⟨place, router⟩ := found
      have hbridge : (m.relayer.note record).bridge = m.relayer.bridge := rfl
      rw [hbridge]
      dsimp only
      cases hrun : Router.runProgram m.relayer.bridge record.origin record.program record.assets
          record.amounts router with
      | ok outcome after => exact .delivered hnew hrouter hrun
      | error e after =>
        obtain rfl := Router.safe_runProgram _ _ _ _ _ hrun
        dsimp only
        rw [set_router hrouter]
        exact .refused hnew hrouter hrun

/-- A record is relayed where a program that is run brings it to its router. -/
theorem relay_of_runProgram {m : Mesh} {record : SpawnRecord} {place : Nat} {router after : Router}
    {outcome : Outcome} (hnew : m.relayer.isDelivered record = false)
    (hrouter : m.router? record.target = some (place, router))
    (hrun : Router.runProgram m.relayer.bridge record.origin record.program record.assets
      record.amounts router = .ok outcome after) :
    relay record m = .ok (some outcome) ⟨m.relayer.note record, m.routers.set place after⟩ := by
  have hbridge : (m.relayer.note record).bridge = m.relayer.bridge := rfl
  unfold relay
  rw [hnew, if_neg Bool.false_ne_true, hrouter]
  dsimp only
  rw [hbridge, hrun]

theorem attempt_of_runProgram {m : Mesh} {record : SpawnRecord} {place : Nat}
    {router after : Router} {outcome : Outcome} (hnew : m.relayer.isDelivered record = false)
    (hrouter : m.router? record.target = some (place, router))
    (hrun : Router.runProgram m.relayer.bridge record.origin record.program record.assets
      record.amounts router = .ok outcome after) :
    m.attempt record = (⟨record, m, .ok (some outcome)⟩,
      ⟨m.relayer.note record, m.routers.set place after⟩) := by
  rw [attempt, relay_of_runProgram hnew hrouter hrun]

theorem attempt_of_isDelivered {m : Mesh} {record : SpawnRecord}
    (h : m.relayer.isDelivered record = true) :
    m.attempt record = (⟨record, m, .ok none⟩, m) := by
  unfold attempt relay
  rw [if_pos h]

/-- A delivery that fails leaves the mesh as it was. -/
theorem safe_relay {record : SpawnRecord} {m n : Mesh} {e : RouterError}
    (h : relay record m = .error e n) : n = m := by
  have hcases := relays m record
  rw [h] at hcases
  cases hcases with
  | unconnected => rfl
  | refused => rfl

/-- The record, if the attempt delivered it. -/
def Attempt.delivery? (a : Attempt) : Option SpawnRecord :=
  match a.answer with
  | .ok (some _) => some a.record
  | _ => none

/-- **An attempt changes nothing and leaves nothing to relay, or is a delivery.** -/
theorem attempt_cases (m : Mesh) (record : SpawnRecord) :
    ((m.attempt record).1.delivery? = none ∧ (m.attempt record).1.followUps = [] ∧
        (m.attempt record).2 = m) ∨
      ∃ (place : Nat) (router after : Router) (outcome : Outcome),
        m.relayer.isDelivered record = false ∧
        Router.runProgram m.relayer.bridge record.origin record.program record.assets
          record.amounts router = .ok outcome after ∧
        m.attempt record = (⟨record, m, .ok (some outcome)⟩,
          ⟨m.relayer.note record, m.routers.set place after⟩) := by
  have hcases := relays m record
  unfold attempt
  generalize relay record m = result at hcases
  cases hcases with
  | duplicate => exact .inl ⟨rfl, rfl, rfl⟩
  | unconnected => exact .inl ⟨rfl, rfl, rfl⟩
  | refused => exact .inl ⟨rfl, rfl, rfl⟩
  | delivered hnew _ hrun => exact .inr ⟨_, _, _, _, hnew, hrun, rfl⟩

end Mesh

/-- **Calls and deliveries that fail change nothing**: neither the store nor the interpreters, the
tables or the events of a router, and neither the notes of a relayer nor any router that it
knows. -/
theorem failures_leave_no_trace :
    (∀ (call : Router.Call) (r t : Router) (e : RouterError),
        call.perform r = .error e t → t = r) ∧
      ∀ (record : SpawnRecord) (m n : Mesh) (e : RouterError),
        Mesh.relay record m = .error e n → n = m := by
  constructor
  · intro call r t e h
    exact call.safe_perform h
  · intro record m n e h
    exact Mesh.safe_relay h

/-- A router that knows a bridge, and a relayer that is this bridge. -/
def Mesh.bridged : Mesh where
  relayer := ⟨.zero, [(⟨0⟩, 0)], ∅⟩
  routers := [Router.bridged]

/-- A record whose program calls without a callee. -/
def SpawnRecord.headless : SpawnRecord where
  origin := ⟨⟨1⟩, .zero⟩
  target := ⟨0⟩
  salt := []
  version := 0
  program := (Program.mk [] [.call [] []]).toWire
  assets := []
  amounts := []

theorem Mesh.isDelivered_bridged (record : SpawnRecord) :
    bridged.relayer.isDelivered record = false := by
  simp [Relayer.isDelivered, bridged]

theorem Mesh.relay_headless :
    relay .headless bridged = .error (.execution (.missingCallee 0))
      { bridged with relayer := (bridged.relayer.note .headless).forget .headless } := by
  unfold relay
  rw [isDelivered_bridged]
  rfl

/-- A mint of nothing that is known, and a program that fails in its first instruction. -/
theorem failures_leave_no_trace_headless :
    (∃ e t, (Router.Call.mint .zero ⟨0⟩ .zero 1).perform Router.fresh = .error e t ∧
        t = Router.fresh) ∧
      ∃ e n, Mesh.relay .headless .bridged = .error e n ∧ n = .bridged := by
  have hmint : (Router.Call.mint .zero ⟨0⟩ .zero 1).perform Router.fresh =
      .error (.unknownAsset ⟨0⟩) Router.fresh := rfl
  obtain ⟨hcalls, hdeliveries⟩ := failures_leave_no_trace
  exact ⟨⟨_, _, hmint, hcalls _ _ _ _ hmint⟩,
    ⟨_, _, Mesh.relay_headless, hdeliveries _ _ _ _ Mesh.relay_headless⟩⟩

end Crossnet
