import Crossnet.Storage.Layers

/-!
# Histories of layers

What can be done with a storage and with the overlays on it, as values.  An
`Access` is for any storage.  A `Layers.Step` is an access of the topmost layer,
or opens or closes an overlay; it is refused where there is none to close.
-/

namespace Crossnet

/-- What can be done with a storage. -/
inductive Access
  | push (key : Digest) (value : Bytes)
  | delete (key : Digest)
  | applyBatch (writes : List Write)
  | get (key : Digest)
  | containsKey (key : Digest)

namespace Access

/-- What is answered to an access, or to opening or closing an overlay. -/
inductive Answer
  | done
  | value (value : Option Bytes)
  | found (found : Bool)
  | refused
deriving DecidableEq

/-- The writes of an access, in order. -/
def writes : Access → List Write
  | push key value => [(key, some value)]
  | delete key => [(key, none)]
  | applyBatch writes => writes
  | get _ => []
  | containsKey _ => []

variable {σ : Type} [Storage σ]

/-- What a storage answers to an access. -/
def answer (s : σ) : Access → Answer
  | get key => .value (Storage.get? s key)
  | containsKey key => .found (Storage.get? s key).isSome
  | _ => .done

/-- The storage after an access. -/
def perform (s : σ) (access : Access) : σ :=
  Storage.putAll s access.writes

end Access

namespace Layers

/-- What can be done with layers. -/
inductive Step
  | access (access : Access)
  | begin
  | commit
  | rollback

/-- What a step answers, and the layers after it. -/
def perform (s : Layers) : Step → Access.Answer × Layers
  | .access access => (access.answer s, access.perform s)
  | .begin => (.done, s.begin)
  | .commit =>
    match s.commit? with
    | some (_, below) => (.done, below)
    | none => (.refused, s)
  | .rollback =>
    match s.rollback? with
    | some below => (.done, below)
    | none => (.refused, s)

/-- Performs steps in order, and lists what they answered. -/
def replay (s : Layers) : List Step → List Access.Answer × Layers
  | [] => ([], s)
  | step :: rest =>
    let (answer, after) := s.perform step
    let (answers, last) := replay after rest
    (answer :: answers, last)

/-- The number of overlays. -/
def depth : Layers → Nat
  | base _ => 0
  | layer _ below => below.depth + 1

end Layers

end Crossnet
