import Crossnet.Storage.Overlay
import Crossnet.Storage.Store

/-!
# Layers

A store with any number of overlays on it, one over the other.  Reads and
writes go to the topmost one; `begin` opens another, and `commit?` and
`rollback?` close the topmost one with and without its writes.
-/

namespace Crossnet

/-- A store under a stack of overlays. -/
inductive Layers
  | base (store : Store)
  | layer (writes : Writes) (below : Layers)

namespace Layers

/-- The value that the topmost layers show. -/
def get? : Layers → Digest → Option Bytes
  | base store, key => Storage.get? store key
  | layer writes below, key =>
    match writes[key]? with
    | some value => value
    | none => below.get? key

/-- Writes to the topmost layer. -/
def put : Layers → Digest → Option Bytes → Layers
  | base store, key, value => base (Storage.put store key value)
  | layer writes below, key, value => layer (writes.insert key value) below

instance : Storage Layers := ⟨get?, put⟩

instance : LawfulStorage Layers where
  get?_put s key value other := by
    cases s with
    | base store => exact LawfulStorage.get?_put store key value other
    | layer writes below =>
      simp only [Storage.get?, Storage.put, get?, put, Std.ExtTreeMap.getElem?_insert]
      by_cases h : key = other
      · simp [h]
      · simp [h]

/-- Opens an overlay. -/
def begin (s : Layers) : Layers :=
  layer ∅ s

/-- Closes the topmost overlay and carries its writes out below; the writes are returned. -/
def commit? : Layers → Option (List Write × Layers)
  | base _ => none
  | layer writes below => some (writes.toList, Storage.putAll below writes.toList)

/-- Closes the topmost overlay without its writes. -/
def rollback? : Layers → Option Layers
  | base _ => none
  | layer _ below => some below

/-- The number of keys written in the topmost overlay, if there is one. -/
def pending? : Layers → Option Nat
  | base _ => none
  | layer writes _ => some writes.size

/-- The store under all overlays. -/
def bottom : Layers → Store
  | base store => store
  | layer _ below => below.bottom

end Layers

end Crossnet
