import Crossnet.Proofs.Owners.Stored
import Crossnet.Proofs.Program.Spelling
import Crossnet.Program.Envelope

/-!
# How far a set of owners can grow

A change adds the addresses that it spells out, so it makes a set larger by no more
than the bytes that it takes.  The payloads of a program are parts of the program's
bytes, so all of its changes together are bounded by these.

* `OwnerCall.size_change_le`: **a change adds no more owners than it has bytes.**
* `Program.length_encodeAll_lt`: the instructions of a program are shorter than its
  enveloped form.
-/

namespace Crossnet

open LawfulWire Reader

namespace OwnerCall

instance : WideWire OwnerCall where
  encode_ne_nil c := by cases c <;> simp [Wire.encode]

/-- The addresses that are added or removed. -/
def named : OwnerCall → List Address
  | add owners => owners
  | remove owners => owners

instance : LawfulWire OwnerCall where
  Fits c := Fits c.named
  exact := by
    have hlist : Exact (Wire.read : Reader (List Address)) Wire.encode Fits := exact
    apply Exact.tagged WideWire.encode_ne_nil
    intro t input c rest
    generalize ht : t.toNat = n
    match n with
    | 0 =>
      obtain rfl : t = 0 := UInt8.toNat_inj.mp ht
      show (add <$> (Wire.read : Reader (List Address))) input = _ ↔ _
      refine Exact.alternative (fun c => Fits c.named) hlist ?_ ?_ ?_ input c rest
      · intro _; rfl
      · intro _; rfl
      · intro c rest
        cases c <;> simp [Wire.encode]
    | 1 =>
      obtain rfl : t = 1 := UInt8.toNat_inj.mp ht
      show (remove <$> (Wire.read : Reader (List Address))) input = _ ↔ _
      refine Exact.alternative (fun c => Fits c.named) hlist ?_ ?_ ?_ input c rest
      · intro _; rfl
      · intro _; rfl
      · intro c rest
        cases c <;> simp [Wire.encode]
    | n + 2 =>
      show (throw (DecodeError.unknownTag "OwnerCall" t) : Reader OwnerCall) input = _ ↔ _
      refine Exact.no_alternative (fun c => Fits c.named) ?_ input c rest
      intro c rest
      cases c <;> simp [Wire.encode] <;> rintro rfl <;> simp at ht

/-! ## Sizes of sets -/

theorem size_foldl_insert_le (added : List Address) (owners : AddressSet) :
    (added.foldl (fun s a => s.insert a) owners).size ≤ owners.size + added.length := by
  induction added generalizing owners with
  | nil => exact Nat.le_refl _
  | cons a rest ih =>
    have hone : (owners.insert a).size ≤ owners.size + 1 := Std.ExtTreeSet.size_insert_le
    have hrest := ih (owners.insert a)
    rw [List.foldl_cons, List.length_cons]
    omega

theorem size_foldl_erase_le (removed : List Address) (owners : AddressSet) :
    (removed.foldl (fun s a => s.erase a) owners).size ≤ owners.size := by
  induction removed generalizing owners with
  | nil => exact Nat.le_refl _
  | cons a rest ih => exact Nat.le_trans (ih (owners.erase a)) Std.ExtTreeSet.size_erase_le

theorem length_le_encode (owners : List Address) : owners.length ≤ (Wire.encode owners).length := by
  have hitems := length_le_length_flatMap owners fun a _ => WideWire.encode_ne_nil a
  show _ ≤ (Wire.encodeCount owners.length ++ owners.flatMap Wire.encode).length
  rw [List.length_append]
  omega

/-- **A change adds no more owners than it has bytes.** -/
theorem size_change_le {calldata : Bytes} {call : OwnerCall} (h : Wire.decode calldata = .ok call)
    (owners : AddressSet) : (call.change owners).size ≤ owners.size + calldata.length := by
  obtain ⟨-, rfl⟩ := Wire.decode_eq_ok.mp h
  cases call with
  | add added =>
    have hset := size_foldl_insert_le added owners
    have hbytes := length_le_encode added
    show (added.foldl (fun s a => s.insert a) owners).size ≤
      owners.size + ((Wire.encode added).length + 1)
    omega
  | remove removed => exact Nat.le_trans (size_foldl_erase_le removed owners) (Nat.le_add_right _ _)

end OwnerCall

/-! ## Payloads in programs -/

theorem Instruction.length_payload_le (payload : Bytes) (bindings : List Binding) :
    payload.length ≤ (Instruction.call payload bindings).encode.length := by
  have hitems := length_le_length_flatMap payload fun b _ => WideWire.encode_ne_nil b
  show _ ≤ (1 :: ((Wire.encodeCount payload.length ++ payload.flatMap Wire.encode) ++
    Wire.encode bindings)).length
  rw [List.length_cons, List.length_append, List.length_append]
  omega

/-- The instructions of a program are shorter than its enveloped form. -/
theorem Program.length_encodeAll_lt (p : Program) :
    (Instruction.encodeAll p.instructions).length < p.toWire.length := by
  rw [toWire, Program.encode_eq, Instruction.encodeAll_eq_flatMap]
  simp only [List.length_append]
  have hmagic : magic.length = 4 := rfl
  omega

end Crossnet
