import Crossnet.Bytes.Hex
import Crossnet.Bytes.LittleEndian
import Crossnet.Digest.Keccak

/-!
# Digests

A digest is 32 bytes.  `sha3` is SHA3-256: the message is padded to whole
blocks of 136 bytes, each block is mixed into the first seventeen lanes of a
Keccak state, and the first four lanes of the last state are the digest.
Digests are compared byte by byte, which is the order of the keys of a store.
-/

namespace Crossnet

/-- A 32-byte digest: a store key, a program's identity or a delivery's identity. -/
structure Digest extends FixedBytes 32
deriving DecidableEq

namespace Digest

theorem ext {a b : Digest} (h : a.toList = b.toList) : a = b := by
  cases a; cases b; simp only [mk.injEq]; exact FixedBytes.ext h

instance : Ord Digest := ⟨compareOn Digest.toFixedBytes⟩

instance : Std.TransOrd Digest :=
  inferInstanceAs (Std.TransCmp (compareOn Digest.toFixedBytes))

instance : Std.LawfulEqOrd Digest where
  eq_of_compare {a b} h :=
    congrArg Digest.mk
      (Std.LawfulEqOrd.eq_of_compare (show compare a.toFixedBytes b.toFixedBytes = .eq from h))

/-- The digits alone, without a mark. -/
instance : ToString Digest := ⟨fun d => Hex.spell d.toList⟩

end Digest

namespace Sha3

/-- Bytes of a block. -/
def rate : Nat := 136

/-- The message behind its padding: a byte `06`, zeros, and a last byte with its high bit set,
up to a whole number of blocks. -/
def pad (message : Bytes) : Bytes :=
  match rate - message.length % rate with
  | 0 | 1 => message ++ [0x86]
  | room + 2 => message ++ 0x06 :: (List.replicate room 0 ++ [0x80])

/-- The state after one block is mixed in. -/
def absorbBlock (s : Keccak.State) (block : Bytes) : Keccak.State :=
  Keccak.permute <| Vector.ofFn fun i =>
    if i.val < 17 then
      s.get i ^^^ UInt64.ofNat (LittleEndian.decode ((block.drop (8 * i.val)).take 8))
    else s.get i

/-- The state after the first `count` blocks are mixed in. -/
def absorb : (count : Nat) → Keccak.State → Bytes → Keccak.State
  | 0, s, _ => s
  | count + 1, s, padded => absorb count (absorbBlock s (padded.take rate)) (padded.drop rate)

/-- The digest that a state shows. -/
def squeeze (s : Keccak.State) : Digest where
  toList := LittleEndian.encode 8 (s.lane 0 0).toNat ++ LittleEndian.encode 8 (s.lane 1 0).toNat ++
    LittleEndian.encode 8 (s.lane 2 0).toNat ++ LittleEndian.encode 8 (s.lane 3 0).toNat
  length_toList := by simp

end Sha3

/-- SHA3-256. -/
def sha3 (message : Bytes) : Digest :=
  let padded := Sha3.pad message
  Sha3.squeeze (Sha3.absorb (padded.length / Sha3.rate) Keccak.State.zero padded)

end Crossnet
