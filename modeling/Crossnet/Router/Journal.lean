import Crossnet.Interpreter.Journal
import Crossnet.Router.History

/-!
# The journal of a router

What is logged for a call, given the router before it and the answer.
-/

namespace Crossnet.Router

/-- What is logged when a router is created. -/
def creationLines (config : RouterConfig) : List Log.Line :=
  let scale := config.unitScale.text
  [.info s!"Initializing router: network={config.network} admin={config.admin} unit_scale={scale}"]

/-- What is logged when an interpreter is created. -/
def interpreterLine (origin : Origin) : Log.Line :=
  .info s!"Created interpreter {origin.interpreterAddress} for {origin}"

/-- What is logged for a spawned program. -/
def spawnLine (record : SpawnRecord) : Log.Line :=
  let amounts := ", ".intercalate (record.amounts.map UInt128.text)
  let assets := ", ".intercalate (record.assets.map fun asset => s!"AssetId({asset})")
  .info s!"Spawn from {record.origin} to network {record.target} escrowed [{amounts}] of [{assets}]"

/-- What is logged while the delivered program runs. -/
def programLines (before : Router) (caller : Address) (origin : Origin) (program : Program)
    (incoming : List (AssetId × UInt128)) : List Log.Line :=
  let interpreter := Interpreter.ofOrigin origin
  let start :=
    if before.hasInterpreter origin then before.store
    else
      match (Owners.init interpreter.address origin.account).run before.store with
      | .ok () store => store
      | .error _ store => store
  interpreter.journal (before.environment caller) program incoming start

/-- What is logged for a delivered program. -/
def deliveryLines (before : Router) (caller : Address) (origin : Origin) (program : Bytes)
    (incoming : List (AssetId × UInt128)) : Except RouterError Outcome → List Log.Line
  | .error (.unauthorized ..) =>
    [.warn s!"Rejected program from {caller}: not the bridge for network {origin.network}"]
  | .error (.execution e) =>
    match Program.accept program with
    | .error _ => []
    | .ok program =>
      before.programLines caller origin program incoming ++
        [.warn s!"Program for {origin} failed: {e.message}"]
  | .error _ => []
  | .ok outcome =>
    match Program.accept program with
    | .error _ => []
    | .ok program =>
      let created := if before.hasInterpreter origin then [] else [interpreterLine origin]
      let count := program.instructions.length
      let counts := s!"instructions={count} spawns={outcome.spawns.length}"
      before.programLines caller origin program incoming ++ created ++
        [.info s!"Executed program {program.hash} for {origin}: {counts}"] ++
        outcome.spawns.map spawnLine

/-- What is logged when someone other than the administrator acts for it. -/
def refusalLines : Except RouterError Answer → List Log.Line
  | .error (.unauthorized caller action) =>
    [.warn s!"Rejected {caller}: not authorized to {action.phrase}"]
  | _ => []

/-- What is logged for a call. -/
def Call.journal (before : Router) (answer : Except RouterError Answer) : Call → List Log.Line
  | registerBridge _ bridge network =>
    match answer with
    | .ok _ =>
      match before.registry.bridge? network with
      | some previous =>
        [.warn s!"Bridge for network {network} replaced: {previous} -> {bridge}"]
      | none => [.info s!"Registered bridge {bridge} for network {network}"]
    | refused => refusalLines refused
  | registerAsset _ handle asset =>
    match answer with
    | .ok _ => [.info s!"Registered asset {asset} as token {handle}"]
    | refused => refusalLines refused
  | registerContract _ address _ =>
    match answer with
    | .ok _ => [.info s!"Registered contract {address}"]
    | refused => refusalLines refused
  | mint .. => refusalLines answer
  | createInterpreter origin =>
    if before.hasInterpreter origin then [] else [interpreterLine origin]
  | runProgram caller origin program assets amounts =>
    match answer with
    | .ok (.outcome outcome) =>
      before.deliveryLines caller origin program (assets.zip amounts) (.ok outcome)
    | .ok _ => []
    | .error e => before.deliveryLines caller origin program (assets.zip amounts) (.error e)
  | addOwners caller origin _ =>
    [.warn s!"Rejected direct owner management of {origin.interpreterAddress} by {caller}"]
  | removeOwners caller origin _ =>
    [.warn s!"Rejected direct owner management of {origin.interpreterAddress} by {caller}"]
  | takeEvents => []

end Crossnet.Router
