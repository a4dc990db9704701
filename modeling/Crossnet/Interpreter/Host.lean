import Crossnet.Interpreter.ExecutionError

/-!
# What programs can reach

A host knows the token of an asset and what can be called at an address: a
token or a contract.  A contract is a script, so all it can do is read and
write keys, and its writes are undone with those of the program that calls it.
-/

namespace Crossnet

/-- Something to call: given the caller and the bytes after the callee's address, it answers bytes
or fails. -/
abbrev Contract := (caller : Address) → (calldata : Bytes) → Script ExecutionError Bytes

/-- What programs on a network can reach. -/
structure Host where
  /-- The token of an asset. -/
  assetHandle : AssetId → Option Address
  /-- Whether an address is a token. -/
  isToken : Address → Bool
  /-- The contract at an address. -/
  contract : Address → Option Contract

/-- What a token can be called with. -/
inductive TokenCall
  /-- Moves an amount from the caller to an address. -/
  | transfer (payee : Address) (amount : UInt128)
deriving DecidableEq

namespace TokenCall

instance : Wire TokenCall where
  encode
    | transfer payee amount => 0 :: Wire.encode (payee, amount)
  read := do
    let tag ← Reader.byte
    match tag.toNat with
    | 0 => (fun (payee, amount) => transfer payee amount) <$> Wire.read
    | _ => throw (.unknownTag "TokenCall" tag)

end TokenCall

/-- What a program finds where it runs. -/
structure Environment where
  /-- The network that runs the program. -/
  network : NetworkId
  /-- The bridge that delivered it. -/
  relayer : Address
  /-- The holder of what spawns put into escrow. -/
  escrow : Address
  /-- What one unit is worth. -/
  unitScale : UInt128
  host : Host

end Crossnet
