import Crossnet.Address
import Crossnet.UInt128
import Crossnet.Wire.DecodeError

/-!
# The wire format

A type with a `Wire` instance has one byte form.  `encode` writes it; `read`
takes one value off the front of the input and leaves the rest.  Integers are
little-endian with a fixed width, a truth value is one byte, a list is an
8-byte count and then its elements, and a fixed array is its bytes alone.
Fields stand in order, which is the pair instance and `Wire.via`.  Tagged types
write a tag byte first.
-/

namespace Crossnet

/-! ## Readers -/

/-- A reader takes a value off the front of the input. -/
abbrev Reader (α : Type) := StateT Bytes (Except DecodeError) α

namespace Reader

/-- The next `count` bytes. -/
def bytes (count : Nat) : Reader Bytes := fun input =>
  let front := input.take count
  if front.length = count then .ok (front, input.drop count) else .error .unexpectedEnd

/-- The next `width` bytes as a number. -/
def number (width : Nat) : Reader Nat :=
  LittleEndian.decode <$> bytes width

/-- The next byte. -/
def byte : Reader UInt8
  | [] => .error .unexpectedEnd
  | b :: rest => .ok (b, rest)

/-- A count of things that each take at least one byte.  A count above the number of bytes left is
refused before anything else is read. -/
def count : Reader Nat := fun input =>
  match number 8 input with
  | .error e => .error e
  | .ok (n, rest) => if (rest.take n).length = n then .ok (n, rest) else .error .unexpectedEnd

/-- Reads `n` things in a row; `done` holds those read so far, last one first. -/
def times {α : Type} (read : Reader α) : (n : Nat) → (done : List α) → Reader (List α)
  | 0, done, input => .ok (done.reverse, input)
  | n + 1, done, input =>
    match read input with
    | .error e => .error e
    | .ok (x, rest) => times read n (x :: done) rest

/-- A count and then that many things. -/
def list {α : Type} (read : Reader α) : Reader (List α) := do
  times read (← count) []

/-- The value that the whole input spells, with no byte left. -/
def whole {α : Type} (read : Reader α) (input : Bytes) : Except DecodeError α :=
  match read input with
  | .error e => .error e
  | .ok (x, []) => .ok x
  | .ok (_, rest) => .error (.trailingBytes rest.length)

end Reader

/-! ## Byte forms -/

/-- A type with a byte form. -/
class Wire (α : Type) where
  encode : α → Bytes
  read : Reader α

namespace Wire

/-- The value whose byte form is the whole input. -/
def decode {α : Type} [Wire α] (input : Bytes) : Except DecodeError α :=
  Reader.whole Wire.read input

/-- The byte form of a type that is packed from another one. -/
abbrev via {α β : Type} [Wire α] (pack : α → β) (unpack : β → α) : Wire β where
  encode b := encode (unpack b)
  read := pack <$> (read : Reader α)

/-- The 8-byte form of a count. -/
def encodeCount (n : Nat) : Bytes :=
  LittleEndian.encode 8 n

/-! ## Integers and truth values -/

instance : Wire UInt8 where
  encode b := [b]
  read := Reader.byte

instance : Wire UInt16 where
  encode n := LittleEndian.encode 2 n.toNat
  read := UInt16.ofNat <$> Reader.number 2

instance : Wire UInt32 where
  encode n := LittleEndian.encode 4 n.toNat
  read := UInt32.ofNat <$> Reader.number 4

instance : Wire UInt64 where
  encode n := LittleEndian.encode 8 n.toNat
  read := UInt64.ofNat <$> Reader.number 8

instance : Wire UInt128 where
  encode n := n.toBytes
  read := BitVec.ofNat 128 <$> Reader.number 16

instance : Wire Bool where
  encode b := [if b then 1 else 0]
  read := do
    match (← Reader.byte).toNat with
    | 0 => pure false
    | 1 => pure true
    | _ => throw .invalidValue

/-! ## Arrays, pairs and lists -/

instance {n : Nat} : Wire (FixedBytes n) where
  encode a := a.toList
  read := fun input =>
    match FixedBytes.ofFront? n input with
    | some a => .ok (a, input.drop n)
    | none => .error .unexpectedEnd

instance {α β : Type} [Wire α] [Wire β] : Wire (α × β) where
  encode p := encode p.1 ++ encode p.2
  read := do
    let a ← (read : Reader α)
    let b ← (read : Reader β)
    pure (a, b)

instance {α : Type} [Wire α] : Wire (List α) where
  encode xs := encodeCount xs.length ++ xs.flatMap encode
  read := Reader.list read

instance : Wire Digest := via Digest.mk Digest.toFixedBytes

instance : Wire Address := via Address.mk Address.toFixedBytes

instance : Wire Version :=
  via (fun (major, minor, patch) => Version.mk major minor patch)
    (fun v => (v.major, v.minor, v.patch))

end Wire

end Crossnet
