import Crossnet.Network

/-!
# Origins

An interpreter acts for one account on one network, its origin.
-/

namespace Crossnet

/-- The account that an interpreter acts for, and the account's network. -/
structure Origin where
  network : NetworkId
  account : Address
deriving DecidableEq

namespace Origin

instance : Ord Origin where
  compare a b := (compare a.network b.network).then (compare a.account b.account)

instance : ToString Origin := ⟨fun o => s!"{o.account}@{o.network}"⟩

instance : Wire Origin :=
  Wire.via (fun (network, account) => Origin.mk network account) (fun o => (o.network, o.account))

end Origin

end Crossnet
