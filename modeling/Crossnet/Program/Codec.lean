import Crossnet.Program

/-!
# The byte form of programs

A program is its tag and its list of instructions; an instruction is a tag byte
and its fields.  A spawned program stands inside its spawn without an envelope.
Reading takes the room that is left for nesting, so that no input can nest
without bound: a program is read with room for sixteen more inside it.
-/

namespace Crossnet

mutual

/-- The byte form of a program, without an envelope. -/
def Program.encode : Program → Bytes
  | ⟨tag, instructions⟩ =>
    Wire.encode tag ++ (Wire.encodeCount instructions.length ++ Instruction.encodeAll instructions)

/-- The byte form of an instruction. -/
def Instruction.encode : Instruction → Bytes
  | .transfer recipient portions => 0 :: Wire.encode (recipient, portions)
  | .call payload bindings => 1 :: Wire.encode (payload, bindings)
  | .spawn network salt version program portions =>
    2 :: (Wire.encode (network, salt, version) ++ (program.encode ++ Wire.encode portions))

/-- The byte forms of instructions in a row. -/
def Instruction.encodeAll : List Instruction → Bytes
  | [] => []
  | i :: rest => i.encode ++ Instruction.encodeAll rest

end

/-- The deepest nesting of programs that is read. -/
def Program.maxNesting : Nat := 16

/-- Reads an instruction, with a given way to read the program of a spawn. -/
def Instruction.readWith (program : Reader Program) : Reader Instruction := do
  let tag ← Reader.byte
  match tag.toNat with
  | 0 => (fun (recipient, portions) => .transfer recipient portions) <$> Wire.read
  | 1 => (fun (payload, bindings) => .call payload bindings) <$> Wire.read
  | 2 => do
    let (network, salt, version) ← Wire.read
    let sub ← program
    let portions ← Wire.read
    pure (.spawn network salt version sub portions)
  | _ => throw (.unknownTag "Instruction" tag)

/-- Reads a program, where `room` is one more than the number of programs that may be nested
inside it. -/
def Program.readWithin : (room : Nat) → Reader Program
  | 0 => throw (.nestingTooDeep maxNesting)
  | room + 1 => do
    let tag ← Wire.read
    let instructions ← Reader.list (Instruction.readWith (readWithin room))
    pure ⟨tag, instructions⟩

instance : Wire Program where
  encode := Program.encode
  read := Program.readWithin (Program.maxNesting + 1)

instance : Wire Instruction where
  encode := Instruction.encode
  read := Instruction.readWith (Program.readWithin Program.maxNesting)

end Crossnet
