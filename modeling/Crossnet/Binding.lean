import Crossnet.Asset

/-!
# Late bindings

A binding names a place in a call's payload and a value that is known only when
the call is made: an asset's number, a share of what the interpreter holds, or
the interpreter's own address.  A value has a fixed width, so a binding has a
span before its value is known.
-/

namespace Crossnet

/-- A value that is known when a call is made. -/
inductive BoundValue
  /-- The number of an asset. -/
  | assetId (asset : AssetId)
  /-- A share of what the interpreter holds of an asset. -/
  | assetAmount (asset : AssetId) (share : Ratio)
  /-- The address of the interpreter. -/
  | self
deriving DecidableEq

namespace BoundValue

/-- Bytes that the value takes. -/
def width : BoundValue → Nat
  | assetId _ => 16
  | assetAmount _ _ => 16
  | self => 20

/-- Whether the value is a share with denominator zero. -/
def hasZeroDenominator : BoundValue → Bool
  | assetAmount _ share => share.denominator = 0
  | _ => false

instance : ToString BoundValue where
  toString
    | assetId asset => s!"asset-id {asset}"
    | assetAmount asset share => s!"asset-amount {asset} x {share}"
    | self => "self"

instance : Wire BoundValue where
  encode
    | assetId asset => 0 :: Wire.encode asset
    | assetAmount asset share => 1 :: Wire.encode (asset, share)
    | self => [2]
  read := do
    let tag ← Reader.byte
    match tag.toNat with
    | 0 => assetId <$> Wire.read
    | 1 => (fun (asset, share) => assetAmount asset share) <$> Wire.read
    | 2 => pure self
    | _ => throw (.unknownTag "BindingValue" tag)

end BoundValue

/-- A place in a payload and the value to put there. -/
structure Binding where
  position : UInt16
  value : BoundValue
deriving DecidableEq

namespace Binding

/-- The first byte of the span. -/
def start (b : Binding) : Nat := b.position.toNat

/-- The end of the span, the first byte after it. -/
def stop (b : Binding) : Nat := b.start + b.value.width

instance : Wire Binding :=
  Wire.via (fun (position, value) => Binding.mk position value) (fun b => (b.position, b.value))

end Binding

end Crossnet
