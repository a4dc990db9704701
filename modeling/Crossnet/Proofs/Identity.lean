import Mathlib.Data.List.Nodup
import Crossnet.Identity
import Crossnet.Proofs.Digest
import Crossnet.Proofs.Program.Spelling

/-!
# Entries of a store

A store has two kinds of entries: what a holder has of a token, and the owners
of an interpreter.  The key of an entry is the hash of a byte string that says
which entry is meant, so two entries share a key only where the hash takes two
byte strings to one digest.

* `eq_of_preimage_eq`: **different identities have different preimages**, so
  different entries have (`preimage_inj`).
* `CollisionFree.alone`: where the hash has no collision among the preimages of
  entries, each entry has its key for itself.
-/

namespace Crossnet

namespace Identity

/-- The identities that are keys of a store. -/
def IsEntry : Identity → Prop
  | balance _ _ => True
  | owners _ => True
  | _ => False

/-- Every list in the program that is identified has a length that a count can say.  A salt stands
last and without a count, so it may have any length. -/
def Fits : Identity → Prop
  | program p => p.Fits
  | _ => True

theorem IsEntry.fits {i : Identity} (h : i.IsEntry) : i.Fits := by
  cases i with
  | program => cases h
  | _ => trivial

/-- **Different identities have different preimages.**  The words for the kinds begin with different
letters.  Behind the word stand fields that show where they end, and a salt at most once, which is
all that is left. -/
theorem eq_of_preimage_eq {i j : Identity} (hi : i.Fits) (hj : j.Fits)
    (h : i.preimage = j.preimage) : i = j := by
  cases i with
  | interpreter origin =>
    cases j with
    | interpreter origin' =>
      have hbody : Wire.encode origin = Wire.encode origin' := List.append_cancel_left h
      rw [Wire.encode_inj trivial trivial hbody]
    | _ => exact absurd (List.cons.inj h).1 (by decide)
  | escrow network =>
    cases j with
    | escrow network' =>
      have hbody : Wire.encode network = Wire.encode network' := List.append_cancel_left h
      rw [Wire.encode_inj trivial trivial hbody]
    | _ => exact absurd (List.cons.inj h).1 (by decide)
  | balance token holder =>
    cases j with
    | balance token' holder' =>
      have hbody : token.toList ++ holder.toList = token'.toList ++ holder'.toList :=
        List.append_cancel_left h
      have hlength : token.toList.length = token'.toList.length := by
        rw [token.length_toList, token'.length_toList]
      obtain ⟨htoken, hholder⟩ := List.append_inj hbody hlength
      rw [Address.ext htoken, Address.ext hholder]
    | _ => exact absurd (List.cons.inj h).1 (by decide)
  | owners interpreter =>
    cases j with
    | owners interpreter' =>
      have hbody : interpreter.toList = interpreter'.toList := List.append_cancel_left h
      rw [Address.ext hbody]
    | _ => exact absurd (List.cons.inj h).1 (by decide)
  | delivery origin target salt =>
    cases j with
    | delivery origin' target' salt' =>
      have hbody : Wire.encode (origin, target) ++ salt = Wire.encode (origin', target') ++ salt' :=
        List.append_cancel_left h
      have hfits : ∀ fields : Origin × NetworkId, LawfulWire.Fits fields := fun _ =>
        ⟨trivial, trivial⟩
      obtain ⟨hfields, hsalt⟩ := Wire.encode_append_inj (hfits _) (hfits _) hbody
      obtain ⟨horigin, htarget⟩ := Prod.mk.inj hfields
      rw [horigin, htarget, hsalt]
    | _ => exact absurd (List.cons.inj h).1 (by decide)
  | program p =>
    cases j with
    | program q =>
      have hbody : p.toWire = q.toWire := List.append_cancel_left h
      have hencode : p.encode = q.encode := List.append_cancel_left (List.append_cancel_left hbody)
      rw [Program.encode_inj hi hj hencode]
    | _ => exact absurd (List.cons.inj h).1 (by decide)

theorem preimage_inj {i j : Identity} (hi : i.IsEntry) (hj : j.IsEntry)
    (h : i.preimage = j.preimage) : i = j :=
  eq_of_preimage_eq hi.fits hj.fits h

/-- Digests are told apart by their bytes, which can be worked out. -/
theorem nodup_digest {identities : List Identity}
    (h : (identities.map fun i => Sha3.digestBytes i.preimage).Nodup) :
    (identities.map digest).Nodup := by
  refine List.Nodup.of_map (fun digest => digest.toList) ?_
  have hbytes : (identities.map digest).map (fun digest => digest.toList) =
      identities.map fun i => Sha3.digestBytes i.preimage := by
    rw [List.map_map]
    exact List.map_congr_left fun i _ => toList_sha3 i.preimage
  rw [hbytes]
  exact h

/-- So are addresses that come of a digest. -/
theorem toList_ofDigest_digest (i : Identity) :
    (Address.ofDigest i.digest).toList = (Sha3.digestBytes i.preimage).drop 12 :=
  congrArg (List.drop 12) (toList_sha3 i.preimage)

/-- No other identity in the list has the digest of this one. -/
def Alone (i : Identity) (others : List Identity) : Prop :=
  ∀ j ∈ others, j.digest = i.digest → j = i

theorem Alone.mono {i : Identity} {xs ys : List Identity} (h : i.Alone ys) (hsub : xs ⊆ ys) :
    i.Alone xs :=
  fun j hj => h j (hsub hj)

end Identity

/-- The hash takes different preimages of the listed identities to different digests. -/
def CollisionFree (identities : List Identity) : Prop :=
  ∀ i ∈ identities, ∀ j ∈ identities,
    sha3 i.preimage = sha3 j.preimage → i.preimage = j.preimage

theorem CollisionFree.mono {xs ys : List Identity} (h : CollisionFree ys) (hsub : xs ⊆ ys) :
    CollisionFree xs :=
  fun i hi j hj => h i (hsub hi) j (hsub hj)

theorem CollisionFree.alone {others more : List Identity} (h : CollisionFree (others ++ more))
    (hothers : ∀ j ∈ others, j.IsEntry) {i : Identity} (hmem : i ∈ more) (hentry : i.IsEntry) :
    i.Alone others := by
  intro j hj hdigest
  have hpreimage := h j (List.mem_append_left _ hj) i (List.mem_append_right _ hmem) hdigest
  exact Identity.preimage_inj (hothers j hj) hentry hpreimage

theorem collisionFree_of_nodup {identities : List Identity}
    (h : (identities.map Identity.digest).Nodup) : CollisionFree identities := by
  intro i hi j hj hsha
  rw [List.inj_on_of_nodup_map h hi hj hsha]

theorem collisionFree_replicate (n : Nat) (i : Identity) :
    CollisionFree (List.replicate n i) := by
  intro j hj k hk _
  rw [List.eq_of_mem_replicate hj, List.eq_of_mem_replicate hk]

end Crossnet
