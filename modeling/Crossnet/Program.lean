import Crossnet.Binding
import Crossnet.Network

/-!
# Programs

A program is a tag, which nothing interprets, and a list of instructions.  An
instruction moves portions of assets to a recipient, calls a callee with a
payload, or spawns a program on another network and puts portions into escrow
for it.  So programs contain programs; `depth` is the length of the longest
chain of them and `spawnCount` the number of spawns at all levels.
-/

namespace Crossnet

/-- Whom a transfer pays. -/
inductive Recipient
  /-- An address on the network that runs the program. -/
  | account (address : Address)
  /-- The bridge that delivered the program. -/
  | relayer
  /-- The interpreter itself. -/
  | self
deriving DecidableEq

namespace Recipient

instance : ToString Recipient where
  toString
    | account address => toString address
    | relayer => "relayer"
    | self => "self"

instance : Wire Recipient where
  encode
    | account address => 0 :: Wire.encode address
    | relayer => [1]
    | self => [2]
  read := do
    let tag ← Reader.byte
    match tag.toNat with
    | 0 => account <$> Wire.read
    | 1 => pure relayer
    | 2 => pure self
    | _ => throw (.unknownTag "Destination" tag)

end Recipient

mutual

/-- A tag and the instructions to run in order. -/
structure Program where
  tag : Bytes
  instructions : List Instruction

/-- One step of a program. -/
inductive Instruction
  /-- Pays portions of what the interpreter holds. -/
  | transfer (recipient : Recipient) (portions : List Portion)
  /-- Calls the callee that the payload begins with, once the bindings are filled in. -/
  | call (payload : Bytes) (bindings : List Binding)
  /-- Puts portions into escrow and sends a program to another network. -/
  | spawn (network : NetworkId) (salt : Bytes) (version : UInt32) (program : Program)
      (portions : List Portion)

end

/-- The word for the kind of instruction. -/
def Instruction.name : Instruction → String
  | .transfer .. => "transfer"
  | .call .. => "call"
  | .spawn .. => "spawn"

mutual

/-- The length of the longest chain of programs inside this one. -/
def Program.depth : Program → Nat
  | ⟨_, instructions⟩ => Instruction.depthAll instructions

/-- The length of the longest chain of programs that the instruction begins. -/
def Instruction.depth : Instruction → Nat
  | .transfer .. => 0
  | .call .. => 0
  | .spawn _ _ _ program _ => program.depth + 1

/-- The greatest depth among the instructions. -/
def Instruction.depthAll : List Instruction → Nat
  | [] => 0
  | i :: rest => max i.depth (Instruction.depthAll rest)

end

mutual

/-- The number of spawns at all levels. -/
def Program.spawnCount : Program → Nat
  | ⟨_, instructions⟩ => Instruction.spawnCountAll instructions

/-- The number of spawns in the instruction, itself included. -/
def Instruction.spawnCount : Instruction → Nat
  | .transfer .. => 0
  | .call .. => 0
  | .spawn _ _ _ program _ => program.spawnCount + 1

/-- The number of spawns in the instructions. -/
def Instruction.spawnCountAll : List Instruction → Nat
  | [] => 0
  | i :: rest => i.spawnCount + Instruction.spawnCountAll rest

end

end Crossnet
