import Crossnet.Identity
import Crossnet.Storage.Script

/-!
# The ledger

What a holder has of a token is a 128-bit amount, kept in storage under the
identity of the two.  An absent entry means zero, and an amount of zero is kept
as an absent entry.  A transfer is a debit and then a credit; when the credit
fails, the debit stays, so transfers belong into something atomic.
-/

namespace Crossnet

/-- Why an operation on the ledger fails. -/
inductive LedgerError
  /-- The holder has less than is taken. -/
  | insufficientBalance (token holder : Address) (required available : UInt128)
  /-- The holder would have more than an amount can say. -/
  | overflow (token holder : Address)
  /-- The stored entry is no amount. -/
  | corruptEntry (key : Digest)
deriving DecidableEq

namespace LedgerError

/-- The text of the cause. -/
def message : LedgerError → String
  | insufficientBalance token holder required available =>
    s!"{holder} holds {available.text} of token {token}, {required.text} required"
  | overflow token holder => s!"balance of {holder} in token {token} would overflow"
  | corruptEntry key => s!"corrupt balance entry {key}"

end LedgerError

namespace Ledger

/-- The key of what a holder has of a token. -/
def key (token holder : Address) : Digest :=
  (Identity.balance token holder).digest

/-- The amount under a key. -/
def readAt (key : Digest) : Script LedgerError UInt128 := do
  match ← Script.get? key with
  | none => pure 0
  | some raw =>
    match Wire.decode raw with
    | .ok amount => pure amount
    | .error _ => throw (.corruptEntry key)

/-- Keeps an amount under a key. -/
def writeAt (key : Digest) (amount : UInt128) : Script LedgerError Unit :=
  Script.put key (if amount = 0 then none else some (Wire.encode amount))

/-- What a holder has of a token. -/
def balance (token holder : Address) : Script LedgerError UInt128 :=
  readAt (key token holder)

/-- Gives a holder more of a token. -/
def credit (token holder : Address) (amount : UInt128) : Script LedgerError Unit := do
  let key := key token holder
  let held ← readAt key
  match held.add? amount with
  | some sum => writeAt key sum
  | none => throw (.overflow token holder)

/-- Takes some of a token from a holder who has that much. -/
def debit (token holder : Address) (amount : UInt128) : Script LedgerError Unit := do
  let key := key token holder
  let held ← readAt key
  if held < amount then
    throw (.insufficientBalance token holder amount held)
  writeAt key (held - amount)

/-- Takes some of a token from one holder and gives it to another. -/
def transfer (token payer payee : Address) (amount : UInt128) : Script LedgerError Unit := do
  debit token payer amount
  credit token payee amount

end Ledger

end Crossnet
