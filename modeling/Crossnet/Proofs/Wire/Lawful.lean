import Crossnet.Origin
import Crossnet.Program
import Crossnet.Proofs.Wire.Exact

/-!
# Types with an exact byte form

`LawfulWire` says that the reader of a type is exact for its byte form, and
`Fits` which values have one that reads back: those whose lists all have fewer
than `2 ^ 64` items.  Integers, arrays and everything packed from them always
fit.

* `decode_eq_ok`: bytes decode to a value exactly when they are its byte form.
* `decode_encode`: decoding undoes encoding.
-/

namespace Crossnet

/-- A type whose reader accepts the byte forms of the values that fit, and nothing else. -/
class LawfulWire (α : Type) [Wire α] where
  /-- Every list in the value has a length that a count can say. -/
  Fits : α → Prop
  exact : Reader.Exact (Wire.read : Reader α) Wire.encode Fits

/-- A type whose byte forms take at least one byte. -/
class WideWire (α : Type) [Wire α] : Prop where
  encode_ne_nil : ∀ x : α, Wire.encode x ≠ []

namespace Wire

open LawfulWire Reader

variable {α β : Type} [Wire α] [LawfulWire α] [Wire β] [LawfulWire β]

theorem decode_eq_ok {input : Bytes} {x : α} :
    decode input = .ok x ↔ Fits x ∧ input = encode x :=
  Exact.whole_iff exact

/-- **Decoding undoes encoding.** -/
theorem decode_encode {x : α} (h : Fits x) : decode (encode x) = .ok x :=
  decode_eq_ok.mpr ⟨h, rfl⟩

theorem encode_append_inj {x y : α} (hx : Fits x) (hy : Fits y) {more rest : Bytes}
    (h : encode x ++ more = encode y ++ rest) : x = y ∧ more = rest :=
  exact.append_inj hx hy h

/-- Different values have different byte forms. -/
theorem encode_inj {x y : α} (hx : Fits x) (hy : Fits y) (h : encode x = encode y) : x = y := by
  have happend : encode x ++ [] = encode y ++ [] := by rw [h]
  exact (encode_append_inj hx hy happend).1

/-! ## Integers -/

instance : LawfulWire UInt8 where
  Fits _ := True
  exact := exact_byte

instance : LawfulWire UInt16 where
  Fits _ := True
  exact := (exact_number 2).map UInt16.toNat (fun _ => UInt16.ofNat_toNat)
    (fun _ h => UInt16.toNat_ofNat_of_lt h)
    (fun n => by simpa using n.toNat_lt)

instance : LawfulWire UInt32 where
  Fits _ := True
  exact := (exact_number 4).map UInt32.toNat (fun _ => UInt32.ofNat_toNat)
    (fun _ h => UInt32.toNat_ofNat_of_lt h)
    (fun n => by simpa using n.toNat_lt)

instance : LawfulWire UInt64 where
  Fits _ := True
  exact := (exact_number 8).map UInt64.toNat (fun _ => UInt64.ofNat_toNat)
    (fun _ h => UInt64.toNat_ofNat_of_lt h)
    (fun n => by simpa using n.toNat_lt)

instance : LawfulWire UInt128 where
  Fits _ := True
  exact := (exact_number 16).map BitVec.toNat (fun a => by simp) (fun _ h => Nat.mod_eq_of_lt h)
    (fun a => by simpa using a.isLt)

/-! ## Arrays, pairs and lists -/

instance {n : Nat} : LawfulWire (FixedBytes n) where
  Fits _ := True
  exact := by
    intro input a rest
    show (match FixedBytes.ofFront? n input with
      | some a => Except.ok (a, input.drop n)
      | none => .error DecodeError.unexpectedEnd) = .ok (a, rest) ↔ True ∧ input = a.toList ++ rest
    simp only [FixedBytes.ofFront?, FixedBytes.ofList?, true_and]
    constructor
    · intro h
      by_cases hlength : (input.take n).length = n
      · rw [dif_pos hlength] at h
        cases h
        exact (List.take_append_drop n input).symm
      · rw [dif_neg hlength] at h
        cases h
    · rintro rfl
      have htake : (a.toList ++ rest).take n = a.toList := List.take_left' a.length_toList
      rw [dif_pos (by rw [htake, a.length_toList])]
      simp only [htake, List.drop_left' a.length_toList]

instance : LawfulWire (α × β) where
  Fits p := Fits p.1 ∧ Fits p.2
  exact := Exact.pair exact exact

instance [WideWire α] : LawfulWire (List α) where
  Fits xs := xs.length < 2 ^ 64 ∧ ∀ x ∈ xs, Fits x
  exact := exact_list exact WideWire.encode_ne_nil

/-! ## Packed types -/

instance : LawfulWire Digest where
  Fits _ := True
  exact := Exact.map exact Digest.toFixedBytes (fun _ => rfl) (fun _ _ => rfl) (fun _ => Iff.rfl)

instance : LawfulWire Address where
  Fits _ := True
  exact := Exact.map exact Address.toFixedBytes (fun _ => rfl) (fun _ _ => rfl) (fun _ => Iff.rfl)

instance : LawfulWire Version where
  Fits _ := True
  exact := Exact.map exact (fun v : Version => (v.major, v.minor, v.patch)) (fun _ => rfl)
    (fun _ _ => rfl) (fun _ => by simp [Fits])

instance : LawfulWire NetworkId where
  Fits _ := True
  exact := Exact.map exact NetworkId.number (fun _ => rfl) (fun _ _ => rfl) (fun _ => Iff.rfl)

instance : LawfulWire Origin where
  Fits _ := True
  exact := Exact.map exact (fun o : Origin => (o.network, o.account)) (fun _ => rfl)
    (fun _ _ => rfl) (fun _ => by simp [Fits])

instance : LawfulWire AssetId where
  Fits _ := True
  exact := Exact.map exact AssetId.number (fun _ => rfl) (fun _ _ => rfl) (fun _ => Iff.rfl)

instance : LawfulWire Ratio where
  Fits _ := True
  exact := Exact.map exact (fun r : Ratio => (r.numerator, r.denominator)) (fun _ => rfl)
    (fun _ _ => rfl) (fun _ => by simp [Fits])

/-! ## Tagged types -/

instance : WideWire Bool where
  encode_ne_nil _ := List.cons_ne_nil _ _

instance : LawfulWire Bool where
  Fits _ := True
  exact := by
    apply Exact.tagged WideWire.encode_ne_nil
    intro t input b rest
    generalize ht : t.toNat = n
    match n with
    | 0 =>
      obtain rfl : t = 0 := UInt8.toNat_inj.mp ht
      refine Exact.alternative_pure (fun _ => True) ?_ trivial ?_ input b rest
      · rfl
      · intro b rest
        cases b <;> simp [Wire.encode]
    | 1 =>
      obtain rfl : t = 1 := UInt8.toNat_inj.mp ht
      refine Exact.alternative_pure (fun _ => True) ?_ trivial ?_ input b rest
      · rfl
      · intro b rest
        cases b <;> simp [Wire.encode]
    | n + 2 =>
      show (throw DecodeError.invalidValue : Reader Bool) input = _ ↔ _
      refine Exact.no_alternative (fun _ => True) ?_ input b rest
      intro b rest
      cases b <;> simp [Wire.encode] <;> rintro rfl <;> simp at ht

instance : WideWire Selector where
  encode_ne_nil s := by cases s <;> simp [Wire.encode]

instance : LawfulWire Selector where
  Fits _ := True
  exact := by
    apply Exact.tagged WideWire.encode_ne_nil
    intro t input s rest
    generalize ht : t.toNat = n
    match n with
    | 0 =>
      obtain rfl : t = 0 := UInt8.toNat_inj.mp ht
      show (Selector.absolute <$> (read : Reader UInt128)) input = _ ↔ _
      refine Exact.alternative (fun _ => True) exact ?_ ?_ ?_ input s rest
      · intro _; rfl
      · intro _; rfl
      · intro s rest
        cases s <;> simp [Wire.encode]
    | 1 =>
      obtain rfl : t = 1 := UInt8.toNat_inj.mp ht
      show (Selector.ratio <$> (read : Reader Ratio)) input = _ ↔ _
      refine Exact.alternative (fun _ => True) exact ?_ ?_ ?_ input s rest
      · intro _; rfl
      · intro _; rfl
      · intro s rest
        cases s <;> simp [Wire.encode]
    | 2 =>
      obtain rfl : t = 2 := UInt8.toNat_inj.mp ht
      show ((fun p => Selector.unit p.1 p.2) <$> (read : Reader (UInt128 × Ratio))) input = _ ↔ _
      refine Exact.alternative (fun _ => True) exact ?_ ?_ ?_ input s rest
      · intro _; rfl
      · intro _; simp [Fits]
      · intro s rest
        cases s <;> simp [Wire.encode]
    | n + 3 =>
      show (throw (DecodeError.unknownTag "Balance" t) : Reader Selector) input = _ ↔ _
      refine Exact.no_alternative (fun _ => True) ?_ input s rest
      intro s rest
      cases s <;> simp [Wire.encode] <;> rintro rfl <;> simp at ht

instance : LawfulWire Portion where
  Fits _ := True
  exact := Exact.map exact (fun p : Portion => (p.asset, p.selector)) (fun _ => rfl)
    (fun _ _ => rfl) (fun _ => by simp [Fits])

instance : WideWire BoundValue where
  encode_ne_nil v := by cases v <;> simp [Wire.encode]

instance : LawfulWire BoundValue where
  Fits _ := True
  exact := by
    apply Exact.tagged WideWire.encode_ne_nil
    intro t input v rest
    generalize ht : t.toNat = n
    match n with
    | 0 =>
      obtain rfl : t = 0 := UInt8.toNat_inj.mp ht
      show (BoundValue.assetId <$> (read : Reader AssetId)) input = _ ↔ _
      refine Exact.alternative (fun _ => True) exact ?_ ?_ ?_ input v rest
      · intro _; rfl
      · intro _; rfl
      · intro v rest
        cases v <;> simp [Wire.encode]
    | 1 =>
      obtain rfl : t = 1 := UInt8.toNat_inj.mp ht
      show ((fun p => BoundValue.assetAmount p.1 p.2) <$> (read : Reader (AssetId × Ratio))) input
        = _ ↔ _
      refine Exact.alternative (fun _ => True) exact ?_ ?_ ?_ input v rest
      · intro _; rfl
      · intro _; simp [Fits]
      · intro v rest
        cases v <;> simp [Wire.encode]
    | 2 =>
      obtain rfl : t = 2 := UInt8.toNat_inj.mp ht
      refine Exact.alternative_pure (fun _ => True) ?_ trivial ?_ input v rest
      · rfl
      · intro v rest
        cases v <;> simp [Wire.encode]
    | n + 3 =>
      show (throw (DecodeError.unknownTag "BindingValue" t) : Reader BoundValue) input = _ ↔ _
      refine Exact.no_alternative (fun _ => True) ?_ input v rest
      intro v rest
      cases v <;> simp [Wire.encode] <;> rintro rfl <;> simp at ht

instance : LawfulWire Binding where
  Fits _ := True
  exact := Exact.map exact (fun b : Binding => (b.position, b.value)) (fun _ => rfl)
    (fun _ _ => rfl) (fun _ => by simp [Fits])

instance : WideWire Recipient where
  encode_ne_nil r := by cases r <;> simp [Wire.encode]

instance : LawfulWire Recipient where
  Fits _ := True
  exact := by
    apply Exact.tagged WideWire.encode_ne_nil
    intro t input r rest
    generalize ht : t.toNat = n
    match n with
    | 0 =>
      obtain rfl : t = 0 := UInt8.toNat_inj.mp ht
      show (Recipient.account <$> (read : Reader Address)) input = _ ↔ _
      refine Exact.alternative (fun _ => True) exact ?_ ?_ ?_ input r rest
      · intro _; rfl
      · intro _; rfl
      · intro r rest
        cases r <;> simp [Wire.encode]
    | 1 =>
      obtain rfl : t = 1 := UInt8.toNat_inj.mp ht
      refine Exact.alternative_pure (fun _ => True) ?_ trivial ?_ input r rest
      · rfl
      · intro r rest
        cases r <;> simp [Wire.encode]
    | 2 =>
      obtain rfl : t = 2 := UInt8.toNat_inj.mp ht
      refine Exact.alternative_pure (fun _ => True) ?_ trivial ?_ input r rest
      · rfl
      · intro r rest
        cases r <;> simp [Wire.encode]
    | n + 3 =>
      show (throw (DecodeError.unknownTag "Destination" t) : Reader Recipient) input = _ ↔ _
      refine Exact.no_alternative (fun _ => True) ?_ input r rest
      intro r rest
      cases r <;> simp [Wire.encode] <;> rintro rfl <;> simp at ht

/-! ## Items of lists -/

instance : WideWire UInt8 where
  encode_ne_nil _ := List.cons_ne_nil _ _

instance : WideWire UInt16 where
  encode_ne_nil _ := List.cons_ne_nil _ _

instance : WideWire UInt32 where
  encode_ne_nil _ := List.cons_ne_nil _ _

instance : WideWire UInt64 where
  encode_ne_nil _ := List.cons_ne_nil _ _

instance : WideWire UInt128 where
  encode_ne_nil _ := List.cons_ne_nil _ _

instance {α : Type} [Wire α] : WideWire (List α) where
  encode_ne_nil _ := List.cons_ne_nil _ _

instance : WideWire Digest where
  encode_ne_nil d := List.ne_nil_of_length_eq_add_one d.length_toList

instance : WideWire Address where
  encode_ne_nil a := List.ne_nil_of_length_eq_add_one a.length_toList

instance {α β : Type} [Wire α] [Wire β] [WideWire α] : WideWire (α × β) where
  encode_ne_nil p := List.append_ne_nil_of_left_ne_nil (WideWire.encode_ne_nil p.1) _

instance : WideWire Version where
  encode_ne_nil v := WideWire.encode_ne_nil (v.major, v.minor, v.patch)

instance : WideWire NetworkId where
  encode_ne_nil n := WideWire.encode_ne_nil n.number

instance : WideWire Origin where
  encode_ne_nil o := WideWire.encode_ne_nil (o.network, o.account)

instance : WideWire AssetId where
  encode_ne_nil a := WideWire.encode_ne_nil a.number

instance : WideWire Ratio where
  encode_ne_nil r := WideWire.encode_ne_nil (r.numerator, r.denominator)

instance : WideWire Portion where
  encode_ne_nil p := WideWire.encode_ne_nil (p.asset.number, p.selector)

instance : WideWire Binding where
  encode_ne_nil b := WideWire.encode_ne_nil (b.position, b.value)

end Wire

end Crossnet
