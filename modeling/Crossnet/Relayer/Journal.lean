import Crossnet.Relayer
import Crossnet.Router.Journal

/-!
# The journal of a relayer

What is logged when a relayer is connected, for each attempt to deliver, and
when a list of records is drained.
-/

namespace Crossnet

/-- What is logged when a relayer is connected to a network's router. -/
def Relayer.connectionLine (r : Relayer) (network : NetworkId) : Log.Line :=
  .info s!"Relayer {r.bridge} connected to network {network}"

namespace Mesh

/-- What is logged for an attempt. -/
def Attempt.journal (a : Attempt) : List Log.Line :=
  let record := a.record
  let key := record.deliveryKey
  let atRouter (answer : Except RouterError Outcome) : List Log.Line :=
    match a.before.router? record.target with
    | none => []
    | some (_, router) =>
      router.deliveryLines a.before.relayer.bridge record.origin record.program
        (record.assets.zip record.amounts) answer
  match a.answer with
  | .ok none =>
    [.info s!"Skipping duplicate spawn {key} from {record.origin} to network {record.target}"]
  | .ok (some outcome) =>
    atRouter (.ok outcome) ++
      [.info s!"Delivered spawn {key} from {record.origin} to network {record.target}"]
  | .error (.unknownNetwork _) => []
  | .error e => atRouter (.error e) ++ [.warn s!"Delivery of spawn {key} failed: {e.message}"]

/-- What is logged for an attempt that is part of draining a list. -/
def Attempt.drainJournal (a : Attempt) : List Log.Line :=
  a.journal ++
    match a.answer with
    | .ok none => []
    | .ok (some outcome) => [.debug s!"{outcome.spawns.length} follow-up spawns queued"]
    | .error e =>
      [.error s!"Dropping spawn from {a.record.origin} to network {a.record.target}: {e.message}"]

/-- What is logged while a list of records is drained. -/
def drainJournal (attempts : List Attempt) : List Log.Line :=
  let stats := Stats.ofAttempts attempts
  let counts :=
    s!"delivered={stats.delivered} duplicates={stats.duplicates} failed={stats.failed}"
  attempts.flatMap Attempt.drainJournal ++ [.info s!"Relayer stopped: {counts}"]

end Mesh

end Crossnet
