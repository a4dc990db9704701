import Crossnet.Wire

/-!
# Networks

Each participating network has a number.
-/

namespace Crossnet

/-- The number of a network. -/
structure NetworkId where
  number : UInt32
deriving DecidableEq

namespace NetworkId

instance : Ord NetworkId := ⟨fun a b => compare a.number b.number⟩

instance : ToString NetworkId := ⟨fun n => toString n.number⟩

instance : Wire NetworkId := Wire.via NetworkId.mk NetworkId.number

end NetworkId

end Crossnet
