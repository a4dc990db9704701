import Crossnet.Relayer
import Crossnet.Router.History

/-!
# Histories of a mesh

What can happen to a relayer and its routers, as values.  A `Step` happens at
once: a call to a router past the relayer, a connection, or an attempt to deliver
a record.  A `Task` is a step or a run of the relayer over a channel, which
`steps` takes apart into its attempts, so that a run can be looked at while it
goes on.  A run with a pause in it, in which records are sent into its channel or
routers are called, is a row of tasks.
-/

namespace Crossnet.Mesh

/-- What happens to a mesh at once. -/
inductive Step
  /-- A call to the router in the given place. -/
  | call (place : Nat) (call : Router.Call)
  /-- Records for the network go to the router in the given place from now on. -/
  | connect (network : NetworkId) (place : Nat)
  | relay (record : SpawnRecord)

/-- The mesh after a step, whether the step failed or not. -/
def after (m : Mesh) : Step → Mesh
  | .call place call => { m with routers := m.routers.modify place fun r => (call.result r).2 }
  | .connect network place => { m with relayer := m.relayer.connect network place }
  | .relay record => (m.attempt record).2

/-- The mesh after steps in order. -/
def replay (m : Mesh) (steps : List Step) : Mesh := steps.foldl after m

/-- A step, or a run of the relayer over a channel that is closed behind its records. -/
inductive Task
  | step (step : Step)
  | drain (channel : List SpawnRecord)

namespace Task

/-- The records that a task hands to the relayer. -/
def records : Task → List SpawnRecord
  | step (.relay record) => [record]
  | step _ => []
  | drain channel => channel

/-- The steps of a task. -/
def steps (m : Mesh) : Task → List Step
  | step s => [s]
  | drain channel => (Mesh.drain channel m).attempts.map fun a => .relay a.record

/-- The mesh after a task. -/
def after (m : Mesh) : Task → Mesh
  | step s => m.after s
  | drain channel => (Mesh.drain channel m).mesh

end Task

/-- The steps of tasks in order. -/
def steps (m : Mesh) : List Task → List Step
  | [] => []
  | task :: rest => task.steps m ++ steps (task.after m) rest

end Crossnet.Mesh
