import Crossnet.Registry

/-!
# Histories of a registry

What can be asked of a registry, as values.  `replay` asks for a list of
registrations in order, each from where the one before left the tables, whether
it was taken in or refused.
-/

namespace Crossnet

/-- A registration. -/
inductive Registration
  | bridge (network : NetworkId) (bridge : Address)
  | asset (handle : Address) (asset : AssetId)
  | contract (address : Address) (contract : Contract)

namespace Registration

/-- The bridge that is to be registered for a network. -/
def bridge? (network : NetworkId) : Registration → Option Address
  | .bridge served found => if served = network then some found else none
  | _ => none

/-- The token that is to be registered for an asset. -/
def handle? (asset : AssetId) : Registration → Option Address
  | .asset found a => if a = asset then some found else none
  | _ => none

/-- The asset that is to be registered for a token. -/
def asset? (handle : Address) : Registration → Option AssetId
  | .asset h found => if h = handle then some found else none
  | _ => none

/-- The contract that is to be registered at an address. -/
def contract? (address : Address) : Registration → Option Contract
  | .contract a found => if a = address then some found else none
  | _ => none

end Registration

namespace Registry

/-- Asks for a registration. -/
def register (r : Registry) : Registration → Except RegistryError Registry
  | .bridge network bridge => .ok (r.registerBridge network bridge)
  | .asset handle asset => r.registerAsset handle asset
  | .contract address contract => r.registerContract address contract

/-- The tables once a registration was asked for. -/
def after (r : Registry) (entry : Registration) : Registry :=
  match r.register entry with
  | .ok next => next
  | .error _ => r

/-- The tables once registrations were asked for in order. -/
def replay (r : Registry) (entries : List Registration) : Registry :=
  entries.foldl after r

/-- Those of the registrations that are taken in. -/
def accepted (r : Registry) : List Registration → List Registration
  | [] => []
  | entry :: rest =>
    match r.register entry with
    | .ok next => entry :: next.accepted rest
    | .error _ => r.accepted rest

end Registry

end Crossnet
