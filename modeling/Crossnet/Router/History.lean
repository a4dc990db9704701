import Crossnet.Router

/-!
# Histories of a router

The calls that change a router, as values.  `Call.perform` makes one call and
`Router.replay` a list of them, each from where the one before left the router,
whether it failed or not.
-/

namespace Crossnet.Router

/-- A call that can change a router. -/
inductive Call
  | registerBridge (caller bridge : Address) (network : NetworkId)
  | registerAsset (caller handle : Address) (asset : AssetId)
  | registerContract (caller address : Address) (contract : Contract)
  | mint (caller : Address) (asset : AssetId) (holder : Address) (amount : UInt128)
  | createInterpreter (origin : Origin)
  | runProgram (caller : Address) (origin : Origin) (program : Bytes) (assets : List AssetId)
      (amounts : List UInt128)
  | addOwners (caller : Address) (origin : Origin) (owners : List Address)
  | removeOwners (caller : Address) (origin : Origin) (owners : List Address)
  | takeEvents

/-- What a call answers. -/
inductive Answer
  | done
  | address (address : Address)
  | outcome (outcome : Outcome)
  | events (events : List RouterEvent)
deriving DecidableEq

/-- Makes a call. -/
def Call.perform : Call → RouterM Answer
  | registerBridge caller bridge network => do
    Router.registerBridge caller bridge network
    pure .done
  | registerAsset caller handle asset => do
    Router.registerAsset caller handle asset
    pure .done
  | registerContract caller address contract => do
    Router.registerContract caller address contract
    pure .done
  | mint caller asset holder amount => do
    Router.mint caller asset holder amount
    pure .done
  | createInterpreter origin => do
    pure (.address (← Router.createInterpreter origin))
  | runProgram caller origin program assets amounts => do
    pure (.outcome (← Router.runProgram caller origin program assets amounts))
  | addOwners caller origin owners => do
    Router.addOwners caller origin owners
    pure .done
  | removeOwners caller origin owners => do
    Router.removeOwners caller origin owners
    pure .done
  | takeEvents => do
    pure (.events (← Router.takeEvents))

/-- What a call answered, and the router after it. -/
def Call.result (call : Call) (r : Router) : Except RouterError Answer × Router :=
  match call.perform r with
  | .ok answer after => (.ok answer, after)
  | .error e after => (.error e, after)

/-- Makes calls in order, and lists what they answered. -/
def replay (r : Router) : List Call → List (Except RouterError Answer) × Router
  | [] => ([], r)
  | call :: rest =>
    let (answer, after) := call.result r
    let (answers, last) := replay after rest
    (answer :: answers, last)

end Crossnet.Router
