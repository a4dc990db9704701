import Crossnet.Ledger

/-!
# Histories of a ledger

What can be asked of a ledger, as values.  `perform` makes one operation on any
storage and `replay` a list of them, each from where the one before left the
storage, whether it failed or not.
-/

namespace Crossnet.Ledger

/-- An operation on a ledger. -/
inductive Operation
  | balance (token holder : Address)
  | credit (token holder : Address) (amount : UInt128)
  | debit (token holder : Address) (amount : UInt128)
  | transfer (token payer payee : Address) (amount : UInt128)

/-- What an operation answers. -/
inductive Answer
  | done
  | amount (amount : UInt128)
deriving DecidableEq

namespace Operation

/-- The script of the operation. -/
def script : Operation → Script LedgerError Answer
  | balance token holder => do
    pure (.amount (← Ledger.balance token holder))
  | credit token holder amount => do
    Ledger.credit token holder amount
    pure .done
  | debit token holder amount => do
    Ledger.debit token holder amount
    pure .done
  | transfer token payer payee amount => do
    Ledger.transfer token payer payee amount
    pure .done

/-- The accounts that the operation names: each is a token and a holder. -/
def accounts : Operation → List (Address × Address)
  | balance token holder => [(token, holder)]
  | credit token holder _ => [(token, holder)]
  | debit token holder _ => [(token, holder)]
  | transfer token payer payee _ => [(token, payer), (token, payee)]

end Operation

variable {σ : Type} [Storage σ]

/-- What an operation answers, and the storage after it. -/
def perform (s : σ) (op : Operation) : Except LedgerError Answer × σ :=
  match op.script.run s with
  | .ok answer after => (.ok answer, after)
  | .error e after => (.error e, after)

/-- Performs operations in order, and lists what they answered. -/
def replay (s : σ) : List Operation → List (Except LedgerError Answer) × σ
  | [] => ([], s)
  | op :: rest =>
    let (answer, after) := perform s op
    let (answers, last) := replay after rest
    (answer :: answers, last)

end Crossnet.Ledger
