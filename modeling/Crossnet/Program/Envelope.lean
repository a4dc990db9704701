import Crossnet.Program.Codec

/-!
# Enveloped programs

A program travels in an envelope: the magic bytes `XCVM`, the version of the
format, and the program.  `toWire` seals it and `ofWire` opens it.
-/

namespace Crossnet.Program

/-- The bytes `XCVM`. -/
def magic : Bytes := [0x58, 0x43, 0x56, 0x4D]

/-- The enveloped form of a program. -/
def toWire (program : Program) : Bytes :=
  magic ++ (Wire.encode Version.current ++ program.encode)

/-- Reads a program in its envelope. -/
def readEnvelope : Reader Program := do
  let front ← Reader.bytes magic.length
  if front ≠ magic then
    throw .badMagic
  let version ← Wire.read
  if !version.isReadable then
    throw (.unsupportedVersion version)
  Wire.read

/-- The program whose enveloped form is given.  It is not validated. -/
def ofWire (bytes : Bytes) : Except DecodeError Program :=
  readEnvelope.whole bytes

end Crossnet.Program
