import Crossnet.Binding.Layout
import Crossnet.Program.Envelope

/-!
# Validation

What is checked of a program before it runs, at every level of nesting: no
ratio has denominator zero, and the bindings of every call fit its payload.
Instructions are checked in order; a call's ratios come before its layout, and
a spawn's portions before its program.  `accept` opens an envelope and validates
what is in it.
-/

namespace Crossnet

/-- Refuses portions with a zero denominator. -/
def checkPortions (portions : List Portion) : Except ProgramError Unit :=
  if portions.any fun p => p.selector.hasZeroDenominator then .error .zeroDenominator else .ok ()

/-- Refuses bindings with a zero denominator. -/
def checkShares (bindings : List Binding) : Except ProgramError Unit :=
  if bindings.any fun b => b.value.hasZeroDenominator then .error .zeroDenominator else .ok ()

mutual

/-- Refuses a program that is not fit to run. -/
def Program.validate : Program → Except ProgramError Unit
  | ⟨_, instructions⟩ => Instruction.validateAll instructions

/-- Refuses an instruction that is not fit to run. -/
def Instruction.validate : Instruction → Except ProgramError Unit
  | .transfer _ portions => checkPortions portions
  | .call payload bindings => do
    checkShares bindings
    checkLayout payload.length bindings
  | .spawn _ _ _ program portions => do
    checkPortions portions
    program.validate

/-- Refuses the first instruction that is not fit to run. -/
def Instruction.validateAll : List Instruction → Except ProgramError Unit
  | [] => .ok ()
  | i :: rest => do
    i.validate
    Instruction.validateAll rest

end

/-- The program in an envelope, when it is fit to run. -/
def Program.accept (bytes : Bytes) : Except ProgramError Program :=
  match ofWire bytes with
  | .error cause => .error (.malformed cause)
  | .ok program =>
    match program.validate with
    | .error e => .error e
    | .ok () => .ok program

end Crossnet
