import Crossnet.Origin
import Crossnet.Program.Envelope

/-!
# Identities

Addresses that belong to no account, store keys, deliveries and programs are
identified by a hash.  An `Identity` says of what: `preimage` writes it as bytes
behind a word for its kind, and `digest` hashes them.
-/

namespace Crossnet

/-- A thing that is identified by a hash. -/
inductive Identity
  /-- The interpreter of an origin. -/
  | interpreter (origin : Origin)
  /-- The escrow of a network. -/
  | escrow (network : NetworkId)
  /-- What a holder has of a token. -/
  | balance (token holder : Address)
  /-- The owners of an interpreter. -/
  | owners (interpreter : Address)
  /-- The delivery of a spawned program. -/
  | delivery (origin : Origin) (target : NetworkId) (salt : Bytes)
  /-- A program. -/
  | program (program : Program)

namespace Identity

/-- The word for the kind of identity, in ASCII. -/
def word : Identity → Bytes
  | interpreter _ => [0x49, 0x4E, 0x54, 0x45, 0x52, 0x50, 0x52, 0x45, 0x54, 0x45, 0x52]
  | escrow _ => [0x45, 0x53, 0x43, 0x52, 0x4F, 0x57]
  | balance _ _ => [0x42, 0x41, 0x4C, 0x41, 0x4E, 0x43, 0x45]
  | owners _ => [0x4F, 0x57, 0x4E, 0x45, 0x52, 0x53]
  | delivery _ _ _ => [0x53, 0x50, 0x41, 0x57, 0x4E]
  | program _ => [0x50, 0x52, 0x4F, 0x47, 0x52, 0x41, 0x4D]

/-- The bytes that follow the word. -/
def body : Identity → Bytes
  | interpreter origin => Wire.encode origin
  | escrow network => Wire.encode network
  | balance token holder => token.toList ++ holder.toList
  | owners address => address.toList
  | delivery origin target salt => Wire.encode (origin, target) ++ salt
  | program p => p.toWire

/-- The bytes that are hashed. -/
def preimage (i : Identity) : Bytes :=
  i.word ++ i.body

/-- The hash. -/
def digest (i : Identity) : Digest :=
  sha3 i.preimage

end Identity

/-- The address of the interpreter that acts for an origin. -/
def Origin.interpreterAddress (origin : Origin) : Address :=
  Address.ofDigest (Identity.interpreter origin).digest

/-- The address that holds what spawns on a network put into escrow. -/
def NetworkId.escrowAddress (network : NetworkId) : Address :=
  Address.ofDigest (Identity.escrow network).digest

/-- The hash that names a program in events. -/
def Program.hash (program : Program) : Digest :=
  (Identity.program program).digest

end Crossnet
