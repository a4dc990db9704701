/-!
# Byte strings

Everything that travels between networks, is hashed or is stored is a byte
string.  `FixedBytes n` is a byte string whose length is part of its type, the
shape of addresses, digests and fixed arrays; `overwrite` replaces a range in
place and is how late-bound values enter a payload.
-/

namespace Crossnet

/-- A byte string. -/
abbrev Bytes := List UInt8

/-- A byte string of exactly `n` bytes. -/
structure FixedBytes (n : Nat) where
  toList : Bytes
  length_toList : toList.length = n
deriving DecidableEq

namespace FixedBytes

/-- The bytes as they are, when there are exactly `n` of them. -/
def ofList? (n : Nat) (bytes : Bytes) : Option (FixedBytes n) :=
  if h : bytes.length = n then some ⟨bytes, h⟩ else none

/-- The first `n` bytes, when there are that many. -/
def ofFront? (n : Nat) (bytes : Bytes) : Option (FixedBytes n) :=
  ofList? n (bytes.take n)

/-- `n` times the byte `b`. -/
def replicate (n : Nat) (b : UInt8) : FixedBytes n :=
  ⟨List.replicate n b, List.length_replicate⟩

theorem ext {n : Nat} : ∀ {a b : FixedBytes n}, a.toList = b.toList → a = b
  | ⟨_, _⟩, ⟨_, _⟩, rfl => rfl

/-- Byte by byte. -/
instance {n : Nat} : Ord (FixedBytes n) := ⟨compareOn toList⟩

instance {n : Nat} : Std.TransOrd (FixedBytes n) :=
  inferInstanceAs (Std.TransCmp (compareOn (toList : FixedBytes n → Bytes)))

instance {n : Nat} : Std.LawfulEqOrd (FixedBytes n) where
  eq_of_compare {a b} h :=
    ext (Std.LawfulEqOrd.eq_of_compare (show compare a.toList b.toList = .eq from h))

theorem ofList?_toList {n : Nat} (a : FixedBytes n) : ofList? n a.toList = some a := by
  simp [ofList?, a.length_toList]

end FixedBytes

/-- `bytes` with the range that begins at `start` replaced by `patch`. -/
def Bytes.overwrite (bytes : Bytes) (start : Nat) (patch : Bytes) : Bytes :=
  bytes.take start ++ patch ++ bytes.drop (start + patch.length)

/-- A patch that fits changes no length. -/
theorem Bytes.length_overwrite {bytes : Bytes} {start : Nat} {patch : Bytes}
    (h : start + patch.length ≤ bytes.length) :
    (Bytes.overwrite bytes start patch).length = bytes.length := by
  simp only [Bytes.overwrite, List.length_append, List.length_take, List.length_drop]
  omega

end Crossnet
