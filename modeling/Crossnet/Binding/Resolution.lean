import Crossnet.Binding.Layout
import Crossnet.Interpreter.ExecutionError

/-!
# Filling in bindings

`resolvePayload` checks the layout, then works out every value in list order,
and only then writes the values into the payload.  So a binding that fails
leaves nothing half written.  What the interpreter holds is asked for in a
monad: in a script it is read from storage at that moment.
-/

namespace Crossnet

/-- What bindings can refer to. -/
structure LiveValues (m : Type → Type) where
  /-- The address of the interpreter. -/
  self : Address
  /-- What the interpreter holds of an asset. -/
  held : AssetId → m UInt128

/-- The bytes of a bound value. -/
def BoundValue.resolve {m : Type → Type} [Monad m] [MonadExcept ExecutionError m]
    (live : LiveValues m) : BoundValue → m Bytes
  | assetId asset => pure asset.number.toBytes
  | assetAmount asset share => do
    let held ← live.held asset
    match share.of held with
    | .ok amount => pure amount.toBytes
    | .error e => throw (ExecutionError.ofAmount asset e)
  | self => pure live.self.toList

/-- The payload with bytes written over the span of each binding. -/
def splice (payload : Bytes) (values : List (Binding × Bytes)) : Bytes :=
  values.foldl (fun p v => p.overwrite v.1.start v.2) payload

/-- The payload with the value of each binding in its place. -/
def resolvePayload {m : Type → Type} [Monad m] [MonadExcept ExecutionError m]
    (live : LiveValues m) (payload : Bytes) (bindings : List Binding) : m Bytes :=
  match checkLayout payload.length bindings with
  | .error e => throw (ExecutionError.program e)
  | .ok () => do
    let values ← bindings.mapM fun b => b.value.resolve live
    pure (splice payload (bindings.zip values))

end Crossnet
