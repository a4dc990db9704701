import Crossnet.Wire

/-!
# Assets, ratios and portions

An asset has one number on every network.  A `Portion` names an asset and how
much of it an instruction moves, and the `Selector` in it says how much in one
of three ways.  `Selector.amount` works the amount out, and `AmountError` holds
the two ways in which that fails.

A ratio is kept as it was written: `1000/2000` and `1/2` select the same
amounts and have different byte forms.
-/

namespace Crossnet

/-- The number of an asset, the same on every network. -/
structure AssetId where
  number : UInt128
deriving DecidableEq

namespace AssetId

instance : Ord AssetId := ⟨fun a b => compare a.number.toNat b.number.toNat⟩

instance : ToString AssetId := ⟨fun a => a.number.text⟩

instance : Wire AssetId := Wire.via AssetId.mk AssetId.number

end AssetId

/-- Why a selector selects no amount. -/
inductive AmountError
  | zeroDenominator
  | overflow
deriving DecidableEq

/-- A fraction, as it was written. -/
structure Ratio where
  numerator : UInt128
  denominator : UInt128
deriving DecidableEq

namespace Ratio

/-- The whole. -/
def one : Ratio := ⟨1, 1⟩

/-- This share of a value, rounded down. -/
def of (ratio : Ratio) (value : UInt128) : Except AmountError UInt128 :=
  if ratio.denominator = 0 then .error .zeroDenominator
  else
    match value.mulDiv? ratio.numerator ratio.denominator with
    | some amount => .ok amount
    | none => .error .overflow

instance : ToString Ratio := ⟨fun r => s!"{r.numerator.text}/{r.denominator.text}"⟩

instance : Wire Ratio :=
  Wire.via (fun (numerator, denominator) => Ratio.mk numerator denominator)
    (fun r => (r.numerator, r.denominator))

end Ratio

/-- How much of an asset is meant. -/
inductive Selector
  /-- This many. -/
  | absolute (amount : UInt128)
  /-- This share of what is held. -/
  | ratio (share : Ratio)
  /-- Whole units and a fraction of one unit.  What is held has no part in it. -/
  | unit (whole : UInt128) (fraction : Ratio)
deriving DecidableEq

namespace Selector

/-- The ratio in the selector, if it has one. -/
def ratio? : Selector → Option Ratio
  | absolute _ => none
  | ratio share => some share
  | unit _ fraction => some fraction

/-- Whether the selector's ratio has denominator zero. -/
def hasZeroDenominator (s : Selector) : Bool :=
  match s.ratio? with
  | none => false
  | some r => r.denominator = 0

/-- The amount that is meant, where `held` is what there is and `unitScale` is what one unit is
worth. -/
def amount (held unitScale : UInt128) : Selector → Except AmountError UInt128
  | absolute amount => .ok amount
  | ratio share => share.of held
  | unit whole fraction => do
    let part ← fraction.of unitScale
    match (whole.mul? unitScale).bind fun units => units.add? part with
    | some amount => pure amount
    | none => throw .overflow

instance : ToString Selector where
  toString
    | absolute amount => s!"absolute {amount.text}"
    | ratio share => s!"ratio {share}"
    | unit whole fraction => s!"unit {whole.text} + {fraction}"

instance : Wire Selector where
  encode
    | absolute amount => 0 :: Wire.encode amount
    | ratio share => 1 :: Wire.encode share
    | unit whole fraction => 2 :: Wire.encode (whole, fraction)
  read := do
    let tag ← Reader.byte
    match tag.toNat with
    | 0 => absolute <$> Wire.read
    | 1 => ratio <$> Wire.read
    | 2 => (fun (whole, fraction) => unit whole fraction) <$> Wire.read
    | _ => throw (.unknownTag "Balance" tag)

end Selector

/-- An asset and how much of it. -/
structure Portion where
  asset : AssetId
  selector : Selector
deriving DecidableEq

namespace Portion

instance : ToString Portion := ⟨fun p => s!"{p.asset} ({p.selector})"⟩

instance : Wire Portion :=
  Wire.via (fun (asset, selector) => Portion.mk asset selector) (fun p => (p.asset, p.selector))

end Portion

end Crossnet
