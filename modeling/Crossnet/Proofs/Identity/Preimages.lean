import Crossnet.Ledger
import Crossnet.Owners
import Crossnet.SpawnRecord
import Crossnet.Proofs.Identity
import Crossnet.Proofs.Program.Acceptance

/-!
# Hashes that cannot be confused

The addresses of interpreters and escrows, the keys of a store, the key of a
delivery and the hash of a program are all hashes of preimages of identities.
Preimages say which identity is meant, so a clash of any two of these is a
collision of the hash.

* `preimages_unambiguous`: **equal preimages are of one kind and of the same
  things.**
-/

namespace Crossnet.Identity

/-- **Preimages are unambiguous.**  Each derived address or key is the hash, or the last twenty
bytes of the hash, of an identity's preimage.  Two preimages are equal exactly when the identities
are: the kind is the same and so is everything that is identified, a program however deep it is
nested, where no list in it is longer than a count of eight bytes can say.  Of spawn records the
origin, the target and the salt count and nothing else.  So two identities with one digest are two
byte strings with one hash. -/
theorem preimages_unambiguous :
    ((∀ origin : Origin, origin.interpreterAddress =
        Address.ofDigest (sha3 (interpreter origin).preimage)) ∧
      (∀ network : NetworkId, network.escrowAddress =
        Address.ofDigest (sha3 (escrow network).preimage)) ∧
      (∀ token holder, Ledger.key token holder = sha3 (balance token holder).preimage) ∧
      (∀ address, Owners.key address = sha3 (owners address).preimage) ∧
      (∀ r : SpawnRecord, r.deliveryKey = sha3 (delivery r.origin r.target r.salt).preimage) ∧
      ∀ p : Program, p.hash = sha3 (program p).preimage) ∧
    (∀ i j : Identity, i.Fits → j.Fits → (i.preimage = j.preimage ↔ i = j)) ∧
    (∀ r s : SpawnRecord,
      (delivery r.origin r.target r.salt).preimage = (delivery s.origin s.target s.salt).preimage ↔
        r.origin = s.origin ∧ r.target = s.target ∧ r.salt = s.salt) ∧
    ∀ i j : Identity, i.Fits → j.Fits → i ≠ j → i.digest = j.digest →
      i.preimage ≠ j.preimage ∧ sha3 i.preimage = sha3 j.preimage := by
  have hiff : ∀ i j : Identity, i.Fits → j.Fits → (i.preimage = j.preimage ↔ i = j) :=
    fun i j hi hj => ⟨eq_of_preimage_eq hi hj, fun h => h ▸ rfl⟩
  refine ⟨⟨fun _ => rfl, fun _ => rfl, fun _ _ => rfl, fun _ => rfl, fun _ => rfl, fun _ => rfl⟩,
    hiff, ?_, ?_⟩
  · intro r s
    have hsame := hiff (delivery r.origin r.target r.salt) (delivery s.origin s.target s.salt)
      trivial trivial
    rw [hsame, delivery.injEq]
  · intro i j hi hj hne hdigest
    exact ⟨fun h => hne ((hiff i j hi hj).mp h), hdigest⟩

/-- Programs in twenty and in twenty-one spawns, too deep to be read, have different preimages, and
so has the escrow of a network. -/
theorem preimages_unambiguous_deep :
    (program (.chain 20)).preimage ≠ (program (.chain 21)).preimage ∧
      (program (.chain 20)).preimage ≠ (escrow ⟨7⟩).preimage := by
  obtain ⟨-, hiff, -⟩ := preimages_unambiguous
  have hfits : ∀ n, (program (.chain n)).Fits := Program.chain_fits
  constructor
  · rw [ne_eq, hiff _ _ (hfits 20) (hfits 21), program.injEq]
    intro h
    have hdepth := congrArg Program.depth h
    rw [Program.depth_chain, Program.depth_chain] at hdepth
    cases hdepth
  · rw [ne_eq, hiff (program (.chain 20)) (escrow ⟨7⟩) (hfits 20) trivial]
    intro h
    cases h

end Crossnet.Identity
