import Std.Data.ExtTreeMap
import Crossnet.Storage

/-!
# Overlays

An overlay holds writes back from the storage below it.  A read of a key that
was written shows the write, any other read shows what is below.  `commit`
carries the writes out, one for each key, in key order.
-/

namespace Crossnet

/-- The writes that an overlay holds, in key order. -/
abbrev Writes := Std.ExtTreeMap Digest (Option Bytes)

/-- Writes that are held back from the storage below. -/
structure Overlay (σ : Type) where
  below : σ
  writes : Writes

namespace Overlay

variable {σ : Type}

/-- An overlay without writes. -/
def fresh (s : σ) : Overlay σ := ⟨s, ∅⟩

/-- The number of keys that were written. -/
def pending (o : Overlay σ) : Nat :=
  o.writes.size

instance [Storage σ] : Storage (Overlay σ) where
  get? o key :=
    match o.writes[key]? with
    | some value => value
    | none => Storage.get? o.below key
  put o key value := { o with writes := o.writes.insert key value }

instance [Storage σ] : LawfulStorage (Overlay σ) where
  get?_put o key value other := by
    simp only [Storage.get?, Storage.put, Std.ExtTreeMap.getElem?_insert]
    by_cases h : key = other
    · simp [h]
    · simp [h]

/-- The storage below, with the writes carried out. -/
def commit [Storage σ] (o : Overlay σ) : σ :=
  Storage.putAll o.below o.writes.toList

end Overlay

end Crossnet
