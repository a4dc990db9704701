import Mathlib.Data.List.Sort
import Crossnet.Owners
import Crossnet.Proofs.Storage.Transparent
import Crossnet.Proofs.Wire.Lawful

/-!
# Stored owners

`setAt? s k` is the set of owners under the key `k`, where the entry is a list
of addresses or absent.  A set is stored as its list, and reads back when the
list's length is one that a count can say.

* `setAt?_setOwners`: **a stored set of fewer than `2 ^ 64` owners reads back.**
* `run_load_eq_ok`, `run_init`, `run_apply_eq_ok`: what runs read and store.
-/

namespace Crossnet

theorem AddressSet.ofList_toList (owners : AddressSet) :
    (Std.ExtTreeSet.ofList owners.toList : AddressSet) = owners := by
  refine Std.ExtTreeSet.ext_mem fun a => ?_
  rw [Std.ExtTreeSet.mem_ofList, List.contains_iff_mem, Std.ExtTreeSet.mem_toList]

/-- A list of addresses in increasing order is the list of its set. -/
theorem AddressSet.toList_ofList {owners : List Address}
    (h : owners.Pairwise fun a b => compare a b = .lt) :
    (Std.ExtTreeSet.ofList owners : AddressSet).toList = owners := by
  have hasymm : ∀ {a b : Address}, compare a b = .lt → compare b a ≠ .lt := by
    intro a b hlt hgt
    have hswap : compare a b = (compare b a).swap := Std.OrientedCmp.eq_swap
    rw [hlt, hgt] at hswap
    cases hswap
  have hirrefl : Std.Irrefl fun a b : Address => compare a b = .lt := ⟨fun a h => hasymm h h⟩
  have hanti : Std.Antisymm fun a b : Address => compare a b = .lt :=
    ⟨fun a b h h' => absurd h' (hasymm h)⟩
  refine Std.ExtTreeSet.ordered_toList.eq_of_mem_iff h fun a => ?_
  rw [Std.ExtTreeSet.mem_toList, Std.ExtTreeSet.mem_ofList, List.contains_iff_mem]

namespace Owners

variable {σ : Type} [Storage σ]

/-- The owners under a key.  An entry that is no list of addresses has none. -/
def setAt? (s : σ) (key : Digest) : Option AddressSet :=
  match Storage.get? s key with
  | none => some ∅
  | some raw =>
    (Wire.decode raw : Except DecodeError (List Address)).toOption.map (Std.ExtTreeSet.ofList ·)

/-- The storage with a set of owners under a key. -/
def setOwners (s : σ) (key : Digest) (owners : AddressSet) : σ :=
  Storage.put s key (some (Wire.encode owners.toList))

theorem setAt?_empty (key : Digest) : setAt? Store.empty key = some ∅ := by
  simp [setAt?, Storage.get?, Store.empty]

/-- A stored list of fewer than `2 ^ 64` addresses, in any order, is read as the set of them. -/
theorem setAt?_of_list {s : σ} {key : Digest} {owners : List Address}
    (hget : Storage.get? s key = some (Wire.encode owners)) (hlength : owners.length < 2 ^ 64) :
    setAt? s key = some (Std.ExtTreeSet.ofList owners) := by
  have hfits : LawfulWire.Fits owners := ⟨hlength, fun _ _ => trivial⟩
  unfold setAt?
  rw [hget]
  dsimp only
  rw [Wire.decode_encode hfits]
  rfl

/-- The list of a set of fewer than `2 ^ 64` owners is read as the set. -/
theorem setAt?_of_get? {s : σ} {key : Digest} {owners : AddressSet}
    (hget : Storage.get? s key = some (Wire.encode owners.toList)) (hsize : owners.size < 2 ^ 64) :
    setAt? s key = some owners := by
  rw [← Std.ExtTreeSet.length_toList] at hsize
  rw [setAt?_of_list hget hsize, AddressSet.ofList_toList]

section Lawful

variable [LawfulStorage σ]

/-- Writing any other entry leaves a set of owners as it is. -/
theorem setAt?_put_of_ne (s : σ) {key other : Digest} (h : key ≠ other)
    (value : Option Bytes) : setAt? (Storage.put s key value) other = setAt? s other := by
  unfold setAt?
  rw [LawfulStorage.get?_put, if_neg h]

/-- **A stored set of fewer than `2 ^ 64` owners reads back.** -/
theorem setAt?_setOwners (s : σ) (key : Digest) {owners : AddressSet}
    (hsize : owners.size < 2 ^ 64) : setAt? (setOwners s key owners) key = some owners := by
  refine setAt?_of_get? ?_ hsize
  rw [setOwners, LawfulStorage.get?_put, if_pos rfl]

end Lawful

/-! ## Runs -/

theorem run_load_eq_ok {interpreter : Address} {s t : σ} {owners : AddressSet} :
    (load interpreter).run s = .ok owners t ↔
      t = s ∧ setAt? s (key interpreter) = some owners := by
  unfold load setAt?
  rw [Script.run_bind_of_ok (Script.run_get? _ s)]
  cases Storage.get? s (key interpreter) with
  | none => simp
  | some raw =>
    dsimp only
    cases (Wire.decode raw : Except DecodeError (List Address)) with
    | ok list => simp [Except.toOption]
    | error e => simp [Except.toOption]

@[simp] theorem run_save (interpreter : Address) (owners : AddressSet) (s : σ) :
    (save interpreter owners).run s = .ok () (setOwners s (key interpreter) owners) := rfl

@[simp] theorem run_init (interpreter owner : Address) (s : σ) :
    (init interpreter owner).run s =
      .ok () (setOwners s (key interpreter) (Std.ExtTreeSet.ofList [owner])) := rfl

theorem run_apply_eq_ok {caller interpreter : Address} {call : OwnerCall} {s t : σ} :
    (apply caller interpreter call).run s = .ok () t ↔
      caller = interpreter ∧ ∃ owners, setAt? s (key interpreter) = some owners ∧
        t = setOwners s (key interpreter) (call.change owners) := by
  unfold apply
  by_cases hcaller : caller = interpreter
  · rw [if_neg fun hne => hne hcaller]
    show (load interpreter >>= fun owners => save interpreter (call.change owners)).run s = _ ↔ _
    rw [Script.run_bind_eq_ok]
    constructor
    · rintro ⟨owners, u, hload, h⟩
      obtain ⟨rfl, howners⟩ := run_load_eq_ok.mp hload
      cases h
      exact ⟨hcaller, owners, howners, rfl⟩
    · rintro ⟨-, owners, howners, rfl⟩
      exact ⟨owners, s, run_load_eq_ok.mpr ⟨rfl, howners⟩, rfl⟩
  · rw [if_pos hcaller]
    constructor
    · intro h
      cases h
    · rintro ⟨h, -⟩
      exact absurd h hcaller

end Owners

end Crossnet
