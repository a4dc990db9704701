import Crossnet.Storage.Layers
import Crossnet.Proofs.Owners.Growth

/-!
# Changes of owners are set operations

A change reads a list of addresses, makes a set of it, adds addresses to the set or
takes them out, and writes the set back as a list in order.  So what is written
depends on the set alone: neither the order of the list that was read nor that of
the addresses in the change is left in it.

* `OwnerCall.makes_change`: a change adds its addresses to the set or takes them out.
* `Owners.run_apply_of_setAt?`, `Owners.run_apply_of_corrupt`,
  `Owners.run_apply_of_ne`: the three ends of a change.
* `Owners.apply_makes`: **changes of owners are set operations on what is stored.**
-/

namespace Crossnet

namespace OwnerCall

/-- The owners after a change are those before together with its addresses, or without them. -/
def Makes : OwnerCall → AddressSet → AddressSet → Prop
  | add added, old, new => ∀ a, a ∈ new ↔ a ∈ old ∨ a ∈ added
  | remove removed, old, new => ∀ a, a ∈ new ↔ a ∈ old ∧ a ∉ removed

/-- Both changes add, or both remove, and they name the same addresses, in any order and any number
of times. -/
inductive NamesSame : OwnerCall → OwnerCall → Prop
  | add {added added' : List Address} (h : ∀ a, a ∈ added ↔ a ∈ added') :
    NamesSame (add added) (add added')
  | remove {removed removed' : List Address} (h : ∀ a, a ∈ removed ↔ a ∈ removed') :
    NamesSame (remove removed) (remove removed')

theorem mem_foldl_insert (added : List Address) (owners : AddressSet) (a : Address) :
    a ∈ added.foldl (fun s b => s.insert b) owners ↔ a ∈ owners ∨ a ∈ added := by
  induction added generalizing owners with
  | nil => simp
  | cons b rest ih =>
    rw [List.foldl_cons, ih, Std.ExtTreeSet.mem_insert, Std.LawfulEqCmp.compare_eq_iff_eq,
      List.mem_cons, eq_comm, or_assoc, or_left_comm]

theorem mem_foldl_erase (removed : List Address) (owners : AddressSet) (a : Address) :
    a ∈ removed.foldl (fun s b => s.erase b) owners ↔ a ∈ owners ∧ a ∉ removed := by
  induction removed generalizing owners with
  | nil => simp
  | cons b rest ih =>
    rw [List.foldl_cons, ih, Std.ExtTreeSet.mem_erase, ne_eq, Std.LawfulEqCmp.compare_eq_iff_eq,
      List.mem_cons, not_or, eq_comm (a := b), and_assoc, and_left_comm]

/-- **A change adds its addresses to the set or takes them out.** -/
theorem makes_change (call : OwnerCall) (owners : AddressSet) :
    call.Makes owners (call.change owners) := by
  cases call with
  | add added => exact mem_foldl_insert added owners
  | remove removed => exact mem_foldl_erase removed owners

/-- What a change makes of a set is determined. -/
theorem Makes.unique {call call' : OwnerCall} {old new new' : AddressSet}
    (hsame : call.NamesSame call') (h : call.Makes old new) (h' : call'.Makes old new') :
    new = new' := by
  refine Std.ExtTreeSet.ext_mem fun a => ?_
  cases hsame with
  | add hnamed => rw [h a, h' a, hnamed a]
  | remove hnamed => rw [h a, h' a, hnamed a]

theorem NamesSame.refl (call : OwnerCall) : call.NamesSame call := by
  cases call with
  | add added => exact .add fun _ => Iff.rfl
  | remove removed => exact .remove fun _ => Iff.rfl

/-- Where a change was made, making it again changes nothing. -/
theorem Makes.again {call : OwnerCall} {old new : AddressSet} (h : call.Makes old new) :
    call.Makes new new := by
  cases call with
  | add added =>
    intro a
    rw [h a, or_assoc, or_self]
  | remove removed =>
    intro a
    rw [h a, and_assoc, and_self]

end OwnerCall

/-! ## Writing twice -/

theorem Storage.put_put_alike {σ : Type} [Storage σ] [LawfulStorage σ] (s : σ) (key : Digest)
    (value : Option Bytes) : Alike (put (put s key value) key value) (put s key value) := by
  intro other
  rw [LawfulStorage.get?_put, LawfulStorage.get?_put]
  by_cases h : key = other
  · rw [if_pos h, if_pos h]
  · rw [if_neg h]

/-- On a store under any overlays the second write leaves no trace at all. -/
theorem Layers.put_put (s : Layers) (key : Digest) (value : Option Bytes) :
    (s.put key value).put key value = s.put key value := by
  cases s with
  | base store => exact congrArg base (Storage.put_put_alike store key value).eq
  | layer writes below =>
    refine congrArg (layer · below) (Std.ExtTreeMap.ext_getElem? fun other => ?_)
    rw [Std.ExtTreeMap.getElem?_insert, Std.ExtTreeMap.getElem?_insert]
    by_cases h : compare key other = .eq
    · rw [if_pos h, if_pos h]
    · rw [if_neg h]

/-! ## The ends of a change -/

namespace Owners

variable {σ : Type} [Storage σ] {s : σ} {interpreter : Address} {call : OwnerCall}
  {old : AddressSet}

theorem run_apply_of_setAt? (h : setAt? s (key interpreter) = some old) :
    (apply interpreter interpreter call).run s =
      .ok () (setOwners s (key interpreter) (call.change old)) :=
  run_apply_eq_ok.mpr ⟨rfl, old, h, rfl⟩

/-- Bytes that are no list of addresses are no owners. -/
theorem run_load_of_corrupt {raw : Bytes} {e : DecodeError}
    (hget : Storage.get? s (key interpreter) = some raw)
    (hraw : (Wire.decode raw : Except DecodeError (List Address)) = .error e) :
    (load interpreter).run s = .error (.corruptState (key interpreter)) s := by
  unfold load
  rw [Script.run_bind_of_ok (Script.run_get? _ s), hget]
  dsimp only
  rw [hraw]
  rfl

theorem run_apply_of_corrupt {raw : Bytes} {e : DecodeError}
    (hget : Storage.get? s (key interpreter) = some raw)
    (hraw : (Wire.decode raw : Except DecodeError (List Address)) = .error e) :
    (apply interpreter interpreter call).run s = .error (.corruptState (key interpreter)) s := by
  unfold apply
  rw [if_neg (not_not_intro rfl)]
  exact Script.run_bind_eq_error.mpr (.inl (run_load_of_corrupt hget hraw))

theorem run_apply_of_ne {caller : Address} (h : caller ≠ interpreter) :
    (apply caller interpreter call).run s = .error (.unauthorized caller interpreter) s := by
  unfold apply
  rw [if_pos h]
  rfl

/-- A set that was read has no more owners than a count can say. -/
theorem size_lt_of_setAt? {key : Digest} (h : setAt? s key = some old) : old.size < 2 ^ 64 := by
  unfold setAt? at h
  cases hget : Storage.get? s key with
  | none =>
    rw [hget] at h
    cases h
    decide
  | some raw =>
    rw [hget] at h
    obtain ⟨list, hlist, rfl⟩ := Option.map_eq_some_iff.mp h
    cases hraw : (Wire.decode raw : Except DecodeError (List Address)) with
    | error e =>
      rw [hraw] at hlist
      cases hlist
    | ok list' =>
      rw [hraw] at hlist
      obtain rfl : list' = list := Option.some.inj hlist
      obtain ⟨⟨hlength, -⟩, -⟩ := Wire.decode_eq_ok.mp hraw
      exact Std.ExtTreeSet.size_ofList_le.trans_lt hlength

/-- Removing makes no set too large. -/
theorem size_change_lt (hold : setAt? s (key interpreter) = some old)
    (hadd : ∀ added, call = .add added → (call.change old).size < 2 ^ 64) :
    (call.change old).size < 2 ^ 64 := by
  cases call with
  | add added => exact hadd added rfl
  | remove removed =>
    exact (OwnerCall.size_foldl_erase_le removed old).trans_lt (size_lt_of_setAt? hold)

/-- **Changes of owners are set operations on what is stored**, where `old` are the owners that the
entry holds, in whatever order and however often, or none if there is no entry.  A change leaves the
old owners together with its addresses, or without them.  What is stored is the list of these in
increasing order, and nothing else is written.  Naming the same addresses in another order or more
than once leaves the same.  The new owners read back, and the same change again leaves everything as
it is, as long as the 64-bit count that is stored with them can say how many they are; removing
never makes them too many.  A change by another caller, or of an entry that is no list of addresses,
fails and leaves everything as it was. -/
theorem apply_makes (interpreter : Address) (call : OwnerCall) :
    (∀ {σ : Type} [Storage σ] [LawfulStorage σ] (s : σ),
      (∀ caller, caller ≠ interpreter →
        (apply caller interpreter call).run s = .error (.unauthorized caller interpreter) s) ∧
      (∀ raw e, Storage.get? s (key interpreter) = some raw →
        (Wire.decode raw : Except DecodeError (List Address)) = .error e →
        (apply interpreter interpreter call).run s =
          .error (.corruptState (key interpreter)) s) ∧
      ∀ old, setAt? s (key interpreter) = some old →
        (load interpreter).run s = .ok old s ∧
        ∃ new t, call.Makes old new ∧ (apply interpreter interpreter call).run s = .ok () t ∧
          (∃ list : List Address, list.Pairwise (fun a b => compare a b = .lt) ∧
            (∀ a, a ∈ list ↔ a ∈ new) ∧
            Storage.get? t (key interpreter) = some (Wire.encode list)) ∧
          (∀ other, other ≠ key interpreter → Storage.get? t other = Storage.get? s other) ∧
          (∀ call', call.NamesSame call' →
            (apply interpreter interpreter call').run s = .ok () t) ∧
          ((∀ added, call = .add added → new.size < 2 ^ 64) →
            (load interpreter).run t = .ok new t ∧
              ∃ u, (apply interpreter interpreter call).run t = .ok () u ∧ Storage.Alike u t)) ∧
      ∀ (s t : Layers) (old : AddressSet), setAt? s (key interpreter) = some old →
        (∀ added, call = .add added → (call.change old).size < 2 ^ 64) →
        (apply interpreter interpreter call).run s = .ok () t →
        (apply interpreter interpreter call).run t = .ok () t := by
  have hchange : ∀ old, call.change (call.change old) = call.change old := fun old =>
    (call.makes_change _).unique (.refl call) (call.makes_change old).again
  constructor
  · intro σ _ _ s
    refine ⟨fun caller => run_apply_of_ne, fun raw e => run_apply_of_corrupt,
      fun old hold => ⟨run_load_eq_ok.mpr ⟨rfl, hold⟩, call.change old,
        setOwners s (key interpreter) (call.change old), call.makes_change old,
        run_apply_of_setAt? hold, ?_, ?_, ?_, ?_⟩⟩
    · refine ⟨(call.change old).toList, Std.ExtTreeSet.ordered_toList,
        fun a => Std.ExtTreeSet.mem_toList, ?_⟩
      rw [setOwners, LawfulStorage.get?_put, if_pos rfl]
    · intro other hne
      rw [setOwners, LawfulStorage.get?_put, if_neg hne.symm]
    · intro call' hsame
      rw [run_apply_of_setAt? hold,
        (call.makes_change old).unique hsame (call'.makes_change old)]
    · intro hadd
      have hnew := setAt?_setOwners s (key interpreter) (size_change_lt hold hadd)
      refine ⟨run_load_eq_ok.mpr ⟨rfl, hnew⟩, _, run_apply_of_setAt? hnew, ?_⟩
      rw [hchange]
      exact Storage.put_put_alike s _ _
  · intro s t old hold hadd hrun
    rw [run_apply_of_setAt? hold] at hrun
    cases hrun
    have hnew := setAt?_setOwners s (key interpreter) (size_change_lt hold hadd)
    rw [run_apply_of_setAt? hnew, hchange]
    exact congrArg _ (Layers.put_put s _ _)

/-! ## An entry out of order -/

/-- The address of twenty equal bytes. -/
def uniform (b : UInt8) : Address := ⟨FixedBytes.replicate 20 b⟩

/-- A store where an interpreter's owners are listed out of order, one of them twice. -/
def jumbled (interpreter : Address) : Store :=
  Storage.put .empty (key interpreter) (some (Wire.encode [uniform 9, uniform 3, uniform 9]))

/-- One owner goes, named twice, and the other one stays. -/
theorem apply_makes_jumbled :
    ∃ t, (apply .zero .zero (.remove [uniform 3, uniform 3])).run (jumbled .zero) = .ok () t ∧
      ∃ owners : AddressSet, (load .zero).run t = .ok owners t ∧
        uniform 3 ∉ owners ∧ uniform 9 ∈ owners := by
  have hget : Storage.get? (jumbled .zero) (key .zero) =
      some (Wire.encode [uniform 9, uniform 3, uniform 9]) := by
    rw [jumbled, LawfulStorage.get?_put, if_pos rfl]
  have hold := setAt?_of_list hget (by decide)
  obtain ⟨-, new, t, hmakes, hrun, -, -, -, hback⟩ :=
    ((apply_makes .zero (.remove [uniform 3, uniform 3])).1 (jumbled .zero)).2.2 _ hold
  refine ⟨t, hrun, new, (hback nofun).1, ?_, ?_⟩
  · rw [hmakes]
    simp
  · rw [hmakes, Std.ExtTreeSet.mem_ofList]
    decide

end Owners

end Crossnet
