import Crossnet.Asset
import Crossnet.Ledger
import Crossnet.Program.ProgramError

/-!
# Why a program fails

The causes for which a running program fails.  Each of them undoes the whole
program.
-/

namespace Crossnet

/-- Why a running program fails. -/
inductive ExecutionError
  /-- A selected amount is more than the interpreter holds; an amount above 128 bits counts as the
  largest one. -/
  | insufficientBalance (asset : AssetId) (required available : UInt128)
  /-- The network has no token for the asset. -/
  | unknownAsset (asset : AssetId)
  /-- An amount does not fit. -/
  | amountOverflow (asset : AssetId)
  /-- Owners are managed by someone other than their interpreter. -/
  | unauthorized (caller interpreter : Address)
  /-- The network has nothing to call at the address. -/
  | unknownCallee (callee : Address)
  /-- The payload is too short for the address of a callee. -/
  | missingCallee (payloadLength : Nat)
  /-- The callee cannot read what it is called with. -/
  | invalidCall (callee : Address) (cause : DecodeError)
  /-- The callee refuses. -/
  | reverted (callee : Address) (reason : String)
  /-- A stored entry cannot be read. -/
  | corruptState (key : Digest)
  /-- The program was not fit to run. -/
  | program (cause : ProgramError)
  /-- The ledger refuses. -/
  | ledger (cause : LedgerError)
deriving DecidableEq

namespace ExecutionError

/-- The failure to work out an amount of an asset. -/
def ofAmount (asset : AssetId) : AmountError → ExecutionError
  | .zeroDenominator => program .zeroDenominator
  | .overflow => amountOverflow asset

/-- The text of the cause. -/
def message : ExecutionError → String
  | insufficientBalance asset required available =>
    s!"insufficient balance of asset {asset}: {required.text} required, {available.text} available"
  | unknownAsset asset => s!"unknown asset {asset}"
  | amountOverflow asset => s!"amount of asset {asset} overflows"
  | unauthorized caller interpreter => s!"{caller} may not manage the owners of {interpreter}"
  | unknownCallee callee => s!"unknown callee {callee}"
  | missingCallee payloadLength => s!"payload of {payloadLength} bytes has no callee"
  | invalidCall callee cause => s!"invalid calldata for {callee}: {cause.message}"
  | reverted callee reason => s!"call to {callee} reverted: {reason}"
  | corruptState key => s!"corrupt state entry {key}"
  | program cause => cause.message
  | ledger cause => cause.message

end ExecutionError

end Crossnet
