import Crossnet.Interpreter
import Crossnet.Program.Validation
import Crossnet.Router.RouterError
import Crossnet.Storage.Store

/-!
# Routers

A router is a network's side of the exchange.  Its administrator registers
bridges, assets and contracts and mints assets; a bridge delivers programs for
origins of its network; anyone may have an interpreter created.  Every call
changes the router as an `EStateM` action, which keeps the state when it fails,
so that "a failed call changes nothing" is a statement about the calls.  A
delivered program runs on an overlay of the store, in which the first owner of a
new interpreter is set, and it opens another overlay of its own.

`Router.Call` names the calls that change a router, so that a history is a list
of them.
-/

namespace Crossnet

/-- What a router is set up with. -/
structure RouterConfig where
  /-- The network that the router serves. -/
  network : NetworkId
  /-- The administrator. -/
  admin : Address
  /-- What one unit of an asset is worth. -/
  unitScale : UInt128
deriving DecidableEq

/-- One unit has eighteen decimals, unless something else is configured. -/
def RouterConfig.defaultUnitScale : UInt128 := 1000000000000000000

/-- What a router reports, in the order in which it happened. -/
inductive RouterEvent
  | bridgeRegistered (network : NetworkId) (bridge : Address)
  | assetRegistered (asset : AssetId) (handle : Address)
  | contractRegistered (address : Address)
  | interpreterCreated (origin : Origin) (interpreter : Address)
  | programExecuted (origin : Origin) (program : Digest)
  | spawn (record : SpawnRecord)
deriving DecidableEq

/-- A network's side of the exchange. -/
structure Router where
  config : RouterConfig
  registry : Registry
  /-- The origins whose interpreters were created, the newest first. -/
  interpreters : List Origin
  store : Store
  /-- The events that were not taken yet. -/
  events : List RouterEvent

/-- A call of a router. -/
abbrev RouterM := EStateM RouterError Router

namespace Router

/-- A router on a store, with nothing registered. -/
def create (config : RouterConfig) (store : Store) : Except RouterError Router :=
  if config.unitScale = 0 then .error .zeroUnitScale
  else .ok ⟨config, .empty, [], store, []⟩

/-! ## Parts of calls -/

/-- Refuses everyone but the administrator. -/
def requireAdmin (caller : Address) (action : Action) : RouterM Unit := do
  if caller ≠ (← get).config.admin then
    throw (.unauthorized caller action)

/-- Reports an event. -/
def report (event : RouterEvent) : RouterM Unit :=
  modify fun r => { r with events := r.events ++ [event] }

/-- Runs a script on the store itself.  A failure keeps what was written before it. -/
def onStore {α : Type} (script : Script ExecutionError α) : RouterM α := fun r =>
  match script.run r.store with
  | .ok a store => .ok a { r with store := store }
  | .error e store => .error (.execution e) { r with store := store }

/-- Runs an action on an overlay of the store, and carries the writes out when it ends well. -/
def onOverlay {α : Type} (action : EStateM ExecutionError (Overlay Store) α) : RouterM α :=
  fun r =>
    match action (Overlay.fresh r.store) with
    | .ok a overlay => .ok a { r with store := overlay.commit }
    | .error e _ => .error (.execution e) r

/-- Replaces the registry, unless it refuses. -/
def updateRegistry (update : Registry → Except RegistryError Registry) : RouterM Unit := do
  match update (← get).registry with
  | .ok registry => modify fun r => { r with registry := registry }
  | .error e => throw (.registry e)

/-- The token of an asset. -/
def token (asset : AssetId) : RouterM Address := do
  match (← get).registry.assetHandle? asset with
  | some token => pure token
  | none => throw (.unknownAsset asset)

/-! ## The administrator's calls -/

/-- Makes an address the bridge of a network. -/
def registerBridge (caller bridge : Address) (network : NetworkId) : RouterM Unit := do
  requireAdmin caller .registerBridges
  updateRegistry fun registry => .ok (registry.registerBridge network bridge)
  report (.bridgeRegistered network bridge)

/-- Makes an address the token of an asset. -/
def registerAsset (caller handle : Address) (asset : AssetId) : RouterM Unit := do
  requireAdmin caller .registerAssets
  updateRegistry fun registry => registry.registerAsset handle asset
  report (.assetRegistered asset handle)

/-- Puts a contract at an address. -/
def registerContract (caller address : Address) (contract : Contract) : RouterM Unit := do
  requireAdmin caller .registerContracts
  updateRegistry fun registry => registry.registerContract address contract
  report (.contractRegistered address)

/-- Gives a holder more of an asset. -/
def mint (caller : Address) (asset : AssetId) (holder : Address) (amount : UInt128) :
    RouterM Unit := do
  requireAdmin caller .mint
  let token ← token asset
  onStore ((Ledger.credit token holder amount).mapError .ledger)

/-! ## Interpreters and programs -/

/-- Whether the interpreter of an origin was created. -/
def hasInterpreter (r : Router) (origin : Origin) : Bool :=
  r.interpreters.contains origin

/-- Notes that the interpreter of an origin was created. -/
def recordInterpreter (origin : Origin) (address : Address) : RouterM Unit := do
  modify fun r => { r with interpreters := origin :: r.interpreters }
  report (.interpreterCreated origin address)

/-- Creates the interpreter of an origin, if there is none, and answers its address. -/
def createInterpreter (origin : Origin) : RouterM Address := do
  let address := origin.interpreterAddress
  if !(← get).hasInterpreter origin then
    onStore (Owners.init address origin.account)
    recordInterpreter origin address
  pure address

/-- What a program delivered by a bridge finds on the router. -/
def environment (r : Router) (bridge : Address) : Environment where
  network := r.config.network
  relayer := bridge
  escrow := r.config.network.escrowAddress
  unitScale := r.config.unitScale
  host := r.registry.host

/-- Executes a program, after the interpreter's first owner is set when the interpreter is new. -/
def launch {σ : Type} [Storage σ] (interpreter : Interpreter) (env : Environment) (isNew : Bool)
    (program : Program) (incoming : List (AssetId × UInt128)) :
    EStateM ExecutionError σ Outcome := do
  if isNew then
    (Owners.init interpreter.address interpreter.origin.account).run
  interpreter.execute env program incoming

/-- Runs a program that a bridge delivers for an origin, with amounts of assets that the bridge
brings along.  The bridge is checked before anything else; the lists, the program's bytes and the
assets come next, in this order. -/
def runProgram (caller : Address) (origin : Origin) (program : Bytes) (assets : List AssetId)
    (amounts : List UInt128) : RouterM Outcome := do
  let r ← get
  if r.registry.bridge? origin.network ≠ some caller then
    throw (.unauthorized caller .deliverPrograms)
  if assets.length ≠ amounts.length then
    throw (.mismatchedAssets assets.length amounts.length)
  match Program.accept program with
  | .error e => throw (.program e)
  | .ok program =>
    assets.forM fun asset => discard (token asset)
    let isNew := !r.hasInterpreter origin
    let interpreter := Interpreter.ofOrigin origin
    let outcome ←
      onOverlay (launch interpreter (r.environment caller) isNew program (assets.zip amounts))
    if isNew then
      recordInterpreter origin interpreter.address
    report (.programExecuted origin program.hash)
    outcome.spawns.forM fun record => report (.spawn record)
    pure outcome

/-- Refuses to add owners: only a program of the interpreter itself can. -/
def addOwners (caller : Address) (_origin : Origin) (_owners : List Address) : RouterM Unit :=
  throw (.unauthorized caller .manageOwners)

/-- Refuses to remove owners: only a program of the interpreter itself can. -/
def removeOwners (caller : Address) (_origin : Origin) (_owners : List Address) : RouterM Unit :=
  throw (.unauthorized caller .manageOwners)

/-- Takes the events that were not taken yet. -/
def takeEvents : RouterM (List RouterEvent) :=
  modifyGet fun r => (r.events, { r with events := [] })

/-! ## Queries -/

/-- The address of an origin's interpreter, if it was created. -/
def interpreterAddress? (r : Router) (origin : Origin) : Option Address :=
  if r.hasInterpreter origin then some origin.interpreterAddress else none

/-- The answer of a script that only reads the store. -/
def query {α : Type} (r : Router) (script : Script ExecutionError α) : Except RouterError α :=
  match script.run r.store with
  | .ok a _ => .ok a
  | .error e _ => .error (.execution e)

/-- The owners of an origin's interpreter. -/
def owners (r : Router) (origin : Origin) : Except RouterError AddressSet :=
  r.query (Owners.load origin.interpreterAddress)

/-- What a holder has of an asset. -/
def balance (r : Router) (holder : Address) (asset : AssetId) : Except RouterError UInt128 :=
  match r.registry.assetHandle? asset with
  | some token => r.query ((Ledger.balance token holder).mapError .ledger)
  | none => .error (.unknownAsset asset)

end Router

end Crossnet
