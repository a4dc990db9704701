import Crossnet.Asset
import Crossnet.Identity

/-!
# Spawn records

What a spawn leaves for the relayer: for whom, where to, the enveloped program,
and what was put into escrow.  Two records are the same delivery when origin,
target and salt agree.
-/

namespace Crossnet

/-- A spawned program on its way to another network.  `amounts` lists what was put into escrow of
each of the `assets`. -/
structure SpawnRecord where
  origin : Origin
  target : NetworkId
  salt : Bytes
  version : UInt32
  program : Bytes
  assets : List AssetId
  amounts : List UInt128
deriving DecidableEq

namespace SpawnRecord

/-- The hash under which a relayer remembers the delivery. -/
def deliveryKey (r : SpawnRecord) : Digest :=
  (Identity.delivery r.origin r.target r.salt).digest

instance : Wire SpawnRecord :=
  Wire.via
    (fun (origin, target, salt, version, program, assets, amounts) =>
      SpawnRecord.mk origin target salt version program assets amounts)
    (fun r => (r.origin, r.target, r.salt, r.version, r.program, r.assets, r.amounts))

end SpawnRecord

end Crossnet
