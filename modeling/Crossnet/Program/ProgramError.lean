import Crossnet.Wire.DecodeError

/-!
# Why a program is refused

The causes for which a program is refused before any instruction of it runs.
-/

namespace Crossnet

/-- The cause for which a program is refused. -/
inductive ProgramError
  /-- The bytes are no enveloped program. -/
  | malformed (cause : DecodeError)
  /-- Two bindings of one call share bytes of the payload. -/
  | overlappingBinding (first second : UInt16)
  /-- A binding ends after its payload. -/
  | invalidBinding (position : UInt16) (width payloadLength : Nat)
  /-- A ratio has denominator zero. -/
  | zeroDenominator
deriving DecidableEq

namespace ProgramError

/-- The text of the cause. -/
def message : ProgramError → String
  | malformed cause => s!"malformed encoding: {cause.message}"
  | overlappingBinding first second =>
    s!"binding at offset {second} overlaps binding at offset {first}"
  | invalidBinding position width payloadLength =>
    s!"binding at offset {position} needs {width} bytes but payload is {payloadLength} bytes"
  | zeroDenominator => "ratio denominator is zero"

end ProgramError

end Crossnet
