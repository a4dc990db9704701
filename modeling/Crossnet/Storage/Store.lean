import Std.Data.ExtTreeMap
import Crossnet.Storage

/-!
# Stores

A store is a finite map from digests to byte strings, in key order.  Two stores
with the same entries are equal.
-/

namespace Crossnet

/-- A finite map from keys to values. -/
structure Store where
  entries : Std.ExtTreeMap Digest Bytes

namespace Store

/-- The store without entries. -/
def empty : Store := ⟨∅⟩

/-- The store with the given entries; of two with one key the later one stays. -/
def ofList (entries : List (Digest × Bytes)) : Store :=
  ⟨Std.ExtTreeMap.ofList entries⟩

/-- The entries in key order. -/
def toList (s : Store) : List (Digest × Bytes) :=
  s.entries.toList

/-- The number of entries. -/
def size (s : Store) : Nat :=
  s.entries.size

instance : Storage Store where
  get? s key := s.entries[key]?
  put s key
    | some value => ⟨s.entries.insert key value⟩
    | none => ⟨s.entries.erase key⟩

instance : LawfulStorage Store where
  get?_put s key value other := by
    cases value with
    | some value => simp [Storage.get?, Storage.put, Std.ExtTreeMap.getElem?_insert]
    | none => simp [Storage.get?, Storage.put, Std.ExtTreeMap.getElem?_erase]

/-- Stores that answer every read alike are equal. -/
theorem ext_get? {s t : Store} (h : ∀ key, Storage.get? s key = Storage.get? t key) : s = t := by
  obtain ⟨a⟩ := s
  obtain ⟨b⟩ := t
  exact congrArg mk (Std.ExtTreeMap.ext_getElem? h)

end Store

end Crossnet
