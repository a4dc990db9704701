import Crossnet.Binding.Resolution
import Crossnet.Interpreter.Host
import Crossnet.Owners
import Crossnet.SpawnRecord

/-!
# Interpreters

An interpreter runs programs for one origin.  `step` is the script of one
instruction and says what it adds to the outcome; `run` moves the incoming
assets from the relayer to the interpreter and then takes the steps in order.
`execute` runs it all as a whole or not at all.

* `steps_append`: two lists of instructions in a row are one list.
-/

namespace Crossnet

/-- What a program leaves: the spawned programs and the answers of its calls, each in instruction
order. -/
structure Outcome where
  spawns : List SpawnRecord
  outputs : List Bytes
deriving DecidableEq

namespace Outcome

/-- Nothing spawned and nothing called. -/
def empty : Outcome := ⟨[], []⟩

instance : Append Outcome := ⟨fun a b => ⟨a.spawns ++ b.spawns, a.outputs ++ b.outputs⟩⟩

/-- One spawned program. -/
def spawned (record : SpawnRecord) : Outcome := ⟨[record], []⟩

/-- One answered call. -/
def answered (output : Bytes) : Outcome := ⟨[], [output]⟩

end Outcome

/-! ## Interpreters and what they hold -/

/-- The interpreter of an origin. -/
structure Interpreter where
  origin : Origin
  address : Address

namespace Interpreter

/-- The interpreter that acts for an origin. -/
def ofOrigin (origin : Origin) : Interpreter :=
  ⟨origin, origin.interpreterAddress⟩

/-- The token of an asset. -/
def token (env : Environment) (asset : AssetId) : Script ExecutionError Address :=
  match env.host.assetHandle asset with
  | some token => pure token
  | none => throw (.unknownAsset asset)

/-- A ledger operation in a program. -/
def onLedger {α : Type} (script : Script LedgerError α) : Script ExecutionError α :=
  script.mapError .ledger

/-- The address of a recipient. -/
def payee (interp : Interpreter) (env : Environment) : Recipient → Address
  | .account address => address
  | .relayer => env.relayer
  | .self => interp.address

/-- Moves a portion of what the interpreter holds, and says how much that was.  An amount above 128
bits is more than anyone holds. -/
def withdraw (interp : Interpreter) (env : Environment) (payee : Address) (portion : Portion) :
    Script ExecutionError UInt128 := do
  let token ← token env portion.asset
  let held ← onLedger (Ledger.balance token interp.address)
  let amount ←
    match portion.selector.amount held env.unitScale with
    | .ok amount => pure amount
    | .error .overflow => pure UInt128.max
    | .error .zeroDenominator => throw (ExecutionError.program .zeroDenominator)
  if held < amount then
    throw (ExecutionError.insufficientBalance portion.asset amount held)
  onLedger (Ledger.transfer token interp.address payee amount)
  pure amount

/-! ## Calls -/

/-- The live values of the interpreter. -/
def liveValues (interp : Interpreter) (env : Environment) : LiveValues (Script ExecutionError) where
  self := interp.address
  held asset := do
    let token ← token env asset
    onLedger (Ledger.balance token interp.address)

/-- What the callee makes of its calldata. -/
def readCall {α : Type} [Wire α] (callee : Address) (calldata : Bytes) :
    Script ExecutionError α :=
  match (Wire.decode calldata : Except DecodeError α) with
  | .ok call => pure call
  | .error cause => throw (.invalidCall callee cause)

/-- Whether a binding puts the interpreter's own address at the begin of the payload. -/
def bindsSelf (bindings : List Binding) : Bool :=
  bindings.any fun b => b.position = 0 && b.value = .self

/-- Calls what the payload begins with: the interpreter itself, to manage its owners; a token; or a
contract. -/
def call (interp : Interpreter) (env : Environment) (payload : Bytes) (bindings : List Binding) :
    Script ExecutionError Bytes := do
  let resolved ← resolvePayload (interp.liveValues env) payload bindings
  match Address.ofFront? resolved with
  | none => throw (.missingCallee resolved.length)
  | some callee =>
    let calldata := resolved.drop Address.size
    if callee = interp.address then
      if !bindsSelf bindings then
        throw (.unauthorized interp.origin.account interp.address)
      let change ← readCall callee calldata
      Owners.apply interp.address interp.address change
      pure []
    else if env.host.isToken callee then
      let TokenCall.transfer payee amount ← readCall callee calldata
      onLedger (Ledger.transfer callee interp.address payee amount)
      pure []
    else
      match env.host.contract callee with
      | some contract => contract interp.address calldata
      | none => throw (.unknownCallee callee)

/-! ## Programs -/

/-- Runs one instruction. -/
def step (interp : Interpreter) (env : Environment) : Instruction → Script ExecutionError Outcome
  | .transfer recipient portions => do
    let _ ← portions.mapM (interp.withdraw env (interp.payee env recipient))
    pure .empty
  | .call payload bindings => do
    let output ← interp.call env payload bindings
    pure (.answered output)
  | .spawn network salt version program portions => do
    let amounts ← portions.mapM (interp.withdraw env env.escrow)
    pure <| .spawned
      { origin := interp.origin
        target := network
        salt := salt
        version := version
        program := program.toWire
        assets := portions.map Portion.asset
        amounts := amounts }

/-- Runs instructions in order, each adding to the outcome. -/
def steps (interp : Interpreter) (env : Environment) (instructions : List Instruction)
    (outcome : Outcome) : Script ExecutionError Outcome :=
  instructions.foldlM (fun outcome i => (outcome ++ ·) <$> interp.step env i) outcome

/-- Two lists of instructions in a row are one list. -/
theorem steps_append (interp : Interpreter) (env : Environment) (xs ys : List Instruction)
    (outcome : Outcome) :
    interp.steps env (xs ++ ys) outcome =
      interp.steps env xs outcome >>= interp.steps env ys := by
  simp only [steps, List.foldlM_append]
  rfl

/-- Moves incoming assets from the relayer to the interpreter. -/
def receive (interp : Interpreter) (env : Environment) (incoming : List (AssetId × UInt128)) :
    Script ExecutionError Unit :=
  incoming.forM fun (asset, amount) => do
    let token ← token env asset
    onLedger (Ledger.transfer token env.relayer interp.address amount)

/-- Receives the incoming assets and runs the program. -/
def run (interp : Interpreter) (env : Environment) (instructions : List Instruction)
    (incoming : List (AssetId × UInt128)) : Script ExecutionError Outcome := do
  interp.receive env incoming
  interp.steps env instructions .empty

/-- Receives the incoming assets and runs the program, as a whole or not at all. -/
def execute {σ : Type} [Storage σ] (interp : Interpreter) (env : Environment) (program : Program)
    (incoming : List (AssetId × UInt128)) : EStateM ExecutionError σ Outcome :=
  (interp.run env program.instructions incoming).atomically

end Interpreter

end Crossnet
