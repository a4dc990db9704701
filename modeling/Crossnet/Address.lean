import Crossnet.Digest

/-!
# Addresses

Twenty bytes that name a holder, a token, a contract or an interpreter.  An
address is written `0x` and its digits.
-/

namespace Crossnet

/-- A 20-byte address. -/
structure Address extends FixedBytes 20
deriving DecidableEq

namespace Address

/-- Bytes of an address. -/
def size : Nat := 20

/-- The address of zero bytes. -/
def zero : Address := ⟨FixedBytes.replicate 20 0⟩

/-- The last twenty bytes of a digest. -/
def ofDigest (d : Digest) : Address where
  toList := d.toList.drop 12
  length_toList := by simp [d.length_toList]

/-- The first twenty bytes, when there are that many. -/
def ofFront? (bytes : Bytes) : Option Address :=
  (FixedBytes.ofFront? 20 bytes).map Address.mk

theorem ext {a b : Address} (h : a.toList = b.toList) : a = b := by
  cases a; cases b; simp only [mk.injEq]; exact FixedBytes.ext h

instance : Ord Address := ⟨compareOn Address.toFixedBytes⟩

instance : Std.TransOrd Address :=
  inferInstanceAs (Std.TransCmp (compareOn Address.toFixedBytes))

instance : Std.LawfulEqOrd Address where
  eq_of_compare {a b} h :=
    congrArg Address.mk
      (Std.LawfulEqOrd.eq_of_compare (show compare a.toFixedBytes b.toFixedBytes = .eq from h))

/-- The marked digits. -/
instance : ToString Address := ⟨fun a => Hex.spellMarked a.toList⟩

end Address

end Crossnet
