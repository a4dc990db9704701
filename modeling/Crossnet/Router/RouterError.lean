import Crossnet.Registry

/-!
# Why a router refuses

The causes for which a call of a router fails, and the actions that not
everyone may take.
-/

namespace Crossnet

/-- What not everyone may do. -/
inductive Action
  | registerBridges
  | registerAssets
  | registerContracts
  | mint
  | deliverPrograms
  | manageOwners
deriving DecidableEq

namespace Action

/-- The words for the action. -/
def phrase : Action → String
  | registerBridges => "register bridges"
  | registerAssets => "register assets"
  | registerContracts => "register contracts"
  | mint => "mint"
  | deliverPrograms => "deliver programs for this network"
  | manageOwners => "manage owners"

end Action

/-- Why a call of a router fails. -/
inductive RouterError
  /-- The caller may not do that. -/
  | unauthorized (caller : Address) (action : Action)
  /-- The registry refuses the entry. -/
  | registry (cause : RegistryError)
  /-- The network has no token for the asset. -/
  | unknownAsset (asset : AssetId)
  /-- Assets and amounts do not pair up. -/
  | mismatchedAssets (assets amounts : Nat)
  /-- Nothing is connected for the network. -/
  | unknownNetwork (network : NetworkId)
  /-- One unit would be worth nothing. -/
  | zeroUnitScale
  /-- The program is refused. -/
  | program (cause : ProgramError)
  /-- The program fails. -/
  | execution (cause : ExecutionError)
deriving DecidableEq

namespace RegistryError

/-- The text of the cause. -/
def message : RegistryError → String
  | assetTaken asset handle => s!"asset {asset} or handle {handle} is already registered"
  | addressTaken address => s!"address {address} is already registered"

end RegistryError

namespace RouterError

/-- The text of the cause. -/
def message : RouterError → String
  | unauthorized caller action => s!"{caller} is not authorized to {action.phrase}"
  | registry cause => cause.message
  | unknownAsset asset => s!"unknown asset {asset}"
  | mismatchedAssets assets amounts => s!"{assets} asset ids but {amounts} amounts"
  | unknownNetwork network => s!"unknown network {network}"
  | zeroUnitScale => "invalid configuration: unit scale must be positive"
  | program cause => s!"program rejected: {cause.message}"
  | execution cause => s!"execution failed: {cause.message}"

end RouterError

end Crossnet
