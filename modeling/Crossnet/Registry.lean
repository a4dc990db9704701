import Crossnet.Interpreter.Host

/-!
# Registries

What a network knows: the bridge of each network, the token of each asset and
the asset of each token, and the contract at each address.  A bridge can be
replaced.  An asset, a token and a contract's address can be taken once, and no
address is both a token and a contract.
-/

namespace Crossnet

/-- Why an entry is refused. -/
inductive RegistryError
  /-- The asset has a token, or the token has an asset. -/
  | assetTaken (asset : AssetId) (handle : Address)
  /-- The address is a token or a contract. -/
  | addressTaken (address : Address)
deriving DecidableEq

/-- The tables of a network.  The newest entry of a table comes first. -/
structure Registry where
  bridges : List (NetworkId × Address)
  /-- The tokens of assets. -/
  assets : List (AssetId × Address)
  /-- The assets of tokens. -/
  handles : List (Address × AssetId)
  contracts : List (Address × Contract)

namespace Registry

/-- Nothing registered. -/
def empty : Registry := ⟨[], [], [], []⟩

/-- The bridge that was registered last for a network. -/
def bridge? (r : Registry) (network : NetworkId) : Option Address :=
  (r.bridges.find? fun entry => entry.1 = network).map Prod.snd

/-- The token of an asset. -/
def assetHandle? (r : Registry) (asset : AssetId) : Option Address :=
  (r.assets.find? fun entry => entry.1 = asset).map Prod.snd

/-- The asset of a token. -/
def assetId? (r : Registry) (handle : Address) : Option AssetId :=
  (r.handles.find? fun entry => entry.1 = handle).map Prod.snd

/-- Whether an address is a token. -/
def isToken (r : Registry) (address : Address) : Bool :=
  (r.assetId? address).isSome

/-- The contract at an address. -/
def contract? (r : Registry) (address : Address) : Option Contract :=
  (r.contracts.find? fun entry => entry.1 = address).map Prod.snd

/-- Makes an address the bridge of a network. -/
def registerBridge (r : Registry) (network : NetworkId) (bridge : Address) : Registry :=
  { r with bridges := (network, bridge) :: r.bridges }

/-- Makes an address the token of an asset, when both are free. -/
def registerAsset (r : Registry) (handle : Address) (asset : AssetId) :
    Except RegistryError Registry :=
  if (r.assetHandle? asset).isSome || r.isToken handle then .error (.assetTaken asset handle)
  else if (r.contract? handle).isSome then .error (.addressTaken handle)
  else .ok { r with assets := (asset, handle) :: r.assets, handles := (handle, asset) :: r.handles }

/-- Puts a contract at an address, when it is free. -/
def registerContract (r : Registry) (address : Address) (contract : Contract) :
    Except RegistryError Registry :=
  if (r.contract? address).isSome || r.isToken address then .error (.addressTaken address)
  else .ok { r with contracts := (address, contract) :: r.contracts }

/-- What programs can reach through the registry. -/
def host (r : Registry) : Host where
  assetHandle := r.assetHandle?
  isToken := r.isToken
  contract := r.contract?

end Registry

end Crossnet
