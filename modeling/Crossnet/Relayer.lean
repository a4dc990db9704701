import Std.Data.ExtTreeSet
import Crossnet.Router

/-!
# Relayers

A relayer carries spawn records to the routers it is connected to, where it is
the bridge of the records' networks.  Each delivery is made at most once: its
key is noted before the delivery, and taken back when the delivery fails.  A
`Mesh` is a relayer together with the routers there are.

`drain` relays a list of records; what a delivery spawns is relayed before the
next record of the list.  The spawned programs are inside the delivered one, so
the number of attempts for a record is at most its `weight`.
-/

namespace Crossnet

/-- A finite set of digests. -/
abbrev DigestSet := Std.ExtTreeSet Digest

/-- Carries spawn records to routers. -/
structure Relayer where
  bridge : Address
  /-- The places of the routers that records go to, the newest connection first. -/
  routes : List (NetworkId × Nat)
  /-- The keys of the deliveries that were made. -/
  delivered : DigestSet

namespace Relayer

/-- A relayer without connections. -/
def ofBridge (bridge : Address) : Relayer := ⟨bridge, [], ∅⟩

/-- Sends records for a network to the router in the given place. -/
def connect (r : Relayer) (network : NetworkId) (place : Nat) : Relayer :=
  { r with routes := (network, place) :: r.routes }

/-- The place of the router that records for a network go to. -/
def route? (r : Relayer) (network : NetworkId) : Option Nat :=
  (r.routes.find? fun entry => entry.1 = network).map Prod.snd

/-- Whether a record's delivery was made. -/
def isDelivered (r : Relayer) (record : SpawnRecord) : Bool :=
  r.delivered.contains record.deliveryKey

/-- Notes a record's delivery. -/
def note (r : Relayer) (record : SpawnRecord) : Relayer :=
  { r with delivered := r.delivered.insert record.deliveryKey }

/-- Takes the note of a record's delivery back. -/
def forget (r : Relayer) (record : SpawnRecord) : Relayer :=
  { r with delivered := r.delivered.erase record.deliveryKey }

end Relayer

/-- A relayer and the routers there are. -/
structure Mesh where
  relayer : Relayer
  routers : List Router

namespace Mesh

/-- The router for a network, and its place. -/
def router? (m : Mesh) (network : NetworkId) : Option (Nat × Router) := do
  let place ← m.relayer.route? network
  let router ← m.routers[place]?
  pure (place, router)

/-- Delivers a record to the router of its target.  The delivery is noted first, and forgotten when
it fails.  The answer is `none` when the delivery was made before. -/
def relay (record : SpawnRecord) : EStateM RouterError Mesh (Option Outcome) := fun m =>
  if m.relayer.isDelivered record then .ok none m
  else
    let noted := m.relayer.note record
    match m.router? record.target with
    | none => .error (.unknownNetwork record.target) { m with relayer := noted.forget record }
    | some (place, router) =>
      match Router.runProgram noted.bridge record.origin record.program record.assets
          record.amounts router with
      | .ok outcome router => .ok (some outcome) ⟨noted, m.routers.set place router⟩
      | .error e router => .error e ⟨noted.forget record, m.routers.set place router⟩

/-- One try to deliver a record. -/
structure Attempt where
  record : SpawnRecord
  before : Mesh
  answer : Except RouterError (Option Outcome)

namespace Attempt

/-- The records that the attempt leaves to relay. -/
def followUps (a : Attempt) : List SpawnRecord :=
  match a.answer with
  | .ok (some outcome) => outcome.spawns
  | _ => []

end Attempt

/-- Tries to deliver a record, and keeps what came of it. -/
def attempt (m : Mesh) (record : SpawnRecord) : Attempt × Mesh :=
  match relay record m with
  | .ok answer after => (⟨record, m, .ok answer⟩, after)
  | .error e after => (⟨record, m, .error e⟩, after)

/-- What relaying a queue left. -/
structure Progress where
  /-- The attempts that were made, in order. -/
  attempts : List Attempt
  /-- The records that are still in the queue. -/
  queue : List SpawnRecord
  mesh : Mesh

/-- Relays a queue for at most `limit` attempts.  What a delivery spawns goes to the end of the
queue. -/
def relayQueue : (limit : Nat) → (queue : List SpawnRecord) → Mesh → Progress
  | 0, queue, m => ⟨[], queue, m⟩
  | _ + 1, [], m => ⟨[], [], m⟩
  | limit + 1, record :: queue, m =>
    let (tried, after) := m.attempt record
    let later := relayQueue limit (queue ++ tried.followUps) after
    { later with attempts := tried :: later.attempts }

/-- One more than the number of spawns in the record's program, at all levels. -/
def weight (record : SpawnRecord) : Nat :=
  match Program.ofWire record.program with
  | .ok program => program.spawnCount + 1
  | .error _ => 1

/-- Relays records in order, each together with all that comes of it. -/
def drain : (records : List SpawnRecord) → Mesh → Progress
  | [], m => ⟨[], [], m⟩
  | record :: rest, m =>
    let first := relayQueue (weight record) [record] m
    let later := drain rest first.mesh
    ⟨first.attempts ++ later.attempts, first.queue ++ later.queue, later.mesh⟩

/-- How often attempts ended in each way. -/
structure Stats where
  delivered : Nat
  duplicates : Nat
  failed : Nat
deriving DecidableEq

/-- Counts attempts. -/
def Stats.ofAttempts (attempts : List Attempt) : Stats where
  delivered := attempts.countP fun a => a.answer matches .ok (some _)
  duplicates := attempts.countP fun a => a.answer matches .ok none
  failed := attempts.countP fun a => a.answer matches .error _

end Mesh

end Crossnet
