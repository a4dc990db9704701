import Crossnet.Interpreter.Host
import Crossnet.SpawnRecord
import Crossnet.Proofs.Owners.Growth

/-!
# The wire types

The types with a byte form, apart from programs, and lists of them as names:
`Value` is the type that is meant and `Fits` says that the lists in a value are
no longer than a count can say.  A list has items that take at least one byte
each, which only arrays of no bytes do not.

`fields` takes a value apart: a record into its fields, and a value of a tagged
type, behind the number of its case, into the fields of that case, each in the
order in which they are declared.

* `exact_read`: the reader of each type is exact.
* `encode_eq`: a byte form is the number of the case and the fields in a row.
* `byteForm_canonical`: **each value has one byte form, which reads back, and nothing else
  is read.**
-/

namespace Crossnet

open LawfulWire Reader

/-- A number is written with as many digits as the width has room for. -/
theorem LittleEndian.encode_mod (width n : Nat) :
    encode width (n % 256 ^ width) = encode width n := by
  induction width generalizing n with
  | zero => rfl
  | succ width ih =>
    have hdigit : UInt8.ofNat (n % 256 ^ (width + 1)) = UInt8.ofNat n := by
      apply UInt8.toNat_inj.mp
      rw [UInt8.toNat_ofNat', UInt8.toNat_ofNat', Nat.pow_succ', Nat.mod_mul_right_mod]
    have hrest : n % 256 ^ (width + 1) / 256 = n / 256 % 256 ^ width := by
      rw [Nat.pow_succ', Nat.mod_mul_right_div_self]
    rw [encode, encode, hdigit, hrest, ih]

/-! ## Records and calls -/

instance : WideWire SpawnRecord where
  encode_ne_nil r := WideWire.encode_ne_nil
    (r.origin, r.target, r.salt, r.version, r.program, r.assets, r.amounts)

instance : LawfulWire SpawnRecord where
  Fits r := r.salt.length < 2 ^ 64 ∧ r.program.length < 2 ^ 64 ∧ r.assets.length < 2 ^ 64 ∧
    r.amounts.length < 2 ^ 64
  exact := Exact.map exact
    (fun r : SpawnRecord =>
      (r.origin, r.target, r.salt, r.version, r.program, r.assets, r.amounts))
    (fun _ => rfl) (fun _ _ => rfl) (fun _ => by simp [Fits])

instance : WideWire TokenCall where
  encode_ne_nil c := by cases c; simp [Wire.encode]

instance : LawfulWire TokenCall where
  Fits _ := True
  exact := by
    apply Exact.tagged WideWire.encode_ne_nil
    intro t input c rest
    generalize ht : t.toNat = n
    match n with
    | 0 =>
      obtain rfl : t = 0 := UInt8.toNat_inj.mp ht
      show ((fun p => TokenCall.transfer p.1 p.2) <$> (Wire.read : Reader (Address × UInt128)))
        input = _ ↔ _
      refine Exact.alternative (fun _ => True) exact ?_ ?_ ?_ input c rest
      · intro _; rfl
      · intro _; simp [Fits]
      · intro c rest
        cases c; simp
    | n + 1 =>
      show (throw (DecodeError.unknownTag "TokenCall" t) : Reader TokenCall) input = _ ↔ _
      refine Exact.no_alternative (fun _ => True) ?_ input c rest
      intro c rest
      cases c; simp [Wire.encode]; rintro rfl; simp at ht

/-! ## Types by name -/

/-- The name of a type with a byte form. -/
inductive WireType
  | u8 | u16 | u32 | u64 | u128 | size | bool
  | array (n : Nat)
  | bytes
  | address | digest | assetId | networkId
  | ratio | selector | portion | boundValue | binding | recipient
  | version | origin | spawnRecord | ownerCall | tokenCall
  | list (item : WireType)

namespace WireType

/-- The type that is meant.  A size is a 64-bit word. -/
@[reducible] def Value : WireType → Type
  | u8 => UInt8
  | u16 => UInt16
  | u32 => UInt32
  | u64 => UInt64
  | u128 => UInt128
  | size => UInt64
  | bool => Bool
  | array n => FixedBytes n
  | bytes => Bytes
  | address => Address
  | digest => Digest
  | assetId => AssetId
  | networkId => NetworkId
  | ratio => Ratio
  | selector => Selector
  | portion => Portion
  | boundValue => BoundValue
  | binding => Binding
  | recipient => Recipient
  | version => Version
  | origin => Origin
  | spawnRecord => SpawnRecord
  | ownerCall => OwnerCall
  | tokenCall => TokenCall
  | list item => List item.Value

/-- The byte form of the type that is meant. -/
@[reducible] def wire : (t : WireType) → Wire t.Value
  | u8 => inferInstanceAs (Wire UInt8)
  | u16 => inferInstanceAs (Wire UInt16)
  | u32 => inferInstanceAs (Wire UInt32)
  | u64 => inferInstanceAs (Wire UInt64)
  | u128 => inferInstanceAs (Wire UInt128)
  | size => inferInstanceAs (Wire UInt64)
  | bool => inferInstanceAs (Wire Bool)
  | array n => inferInstanceAs (Wire (FixedBytes n))
  | bytes => inferInstanceAs (Wire Bytes)
  | address => inferInstanceAs (Wire Address)
  | digest => inferInstanceAs (Wire Digest)
  | assetId => inferInstanceAs (Wire AssetId)
  | networkId => inferInstanceAs (Wire NetworkId)
  | ratio => inferInstanceAs (Wire Ratio)
  | selector => inferInstanceAs (Wire Selector)
  | portion => inferInstanceAs (Wire Portion)
  | boundValue => inferInstanceAs (Wire BoundValue)
  | binding => inferInstanceAs (Wire Binding)
  | recipient => inferInstanceAs (Wire Recipient)
  | version => inferInstanceAs (Wire Version)
  | origin => inferInstanceAs (Wire Origin)
  | spawnRecord => inferInstanceAs (Wire SpawnRecord)
  | ownerCall => inferInstanceAs (Wire OwnerCall)
  | tokenCall => inferInstanceAs (Wire TokenCall)
  | list item =>
    have := item.wire
    inferInstanceAs (Wire (List item.Value))

instance (t : WireType) : Wire t.Value := t.wire

/-- Whether every value takes at least one byte. -/
def isWide : WireType → Bool
  | array n => n ≠ 0
  | _ => true

/-- Whether the items of every list take at least one byte each. -/
def isProper : WireType → Bool
  | list item => item.isWide && item.isProper
  | _ => true

/-- Every list in the value has a length that a count can say. -/
def Fits : (t : WireType) → t.Value → Prop
  | bytes, (bs : Bytes) => bs.length < 2 ^ 64
  | spawnRecord, (r : SpawnRecord) =>
    r.salt.length < 2 ^ 64 ∧ r.program.length < 2 ^ 64 ∧ r.assets.length < 2 ^ 64 ∧
      r.amounts.length < 2 ^ 64
  | ownerCall, (c : OwnerCall) => c.named.length < 2 ^ 64
  | list item, (xs : List item.Value) => xs.length < 2 ^ 64 ∧ ∀ x ∈ xs, item.Fits x
  | _, _ => True

/-- A value of a type whose values take bytes takes bytes. -/
theorem encode_ne_nil {t : WireType} (h : t.isWide = true) (v : t.Value) : Wire.encode v ≠ [] := by
  cases t with
  | array n =>
    intro hnil
    have hlength : n = 0 := v.length_toList.symm.trans (congrArg List.length hnil)
    exact of_decide_eq_true h hlength
  | _ => exact WideWire.encode_ne_nil v

/-- **The reader of each type is exact.** -/
theorem exact_read {t : WireType} (h : t.isProper = true) :
    Exact (Wire.read : Reader t.Value) Wire.encode t.Fits := by
  induction t with
  | list item ih =>
    obtain ⟨hwide, hproper⟩ := Bool.and_eq_true_iff.mp h
    exact exact_list (ih hproper) (encode_ne_nil hwide)
  | bytes => exact (exact (α := Bytes)).congr (fun _ => rfl) fun _ => fits_bytes.symm
  | ownerCall =>
    exact (exact (α := OwnerCall)).congr (fun _ => rfl) fun _ =>
      (fits_list (α := Address) fun _ => trivial).symm
  | _ => exact exact

/-! ## Fields -/

/-- The number of the case that a value of a tagged type is in. -/
def case? : (t : WireType) → t.Value → Option Nat
  | selector, (s : Selector) => some s.ctorIdx
  | boundValue, (v : BoundValue) => some v.ctorIdx
  | recipient, (r : Recipient) => some r.ctorIdx
  | ownerCall, (c : OwnerCall) => some c.ctorIdx
  | tokenCall, (c : TokenCall) => some c.ctorIdx
  | _, _ => none

/-- The byte forms of what a value is made of, in the order of declaration. -/
def fields : (t : WireType) → t.Value → List Bytes
  | u8, (b : UInt8) => [[b]]
  | u16, (n : UInt16) => [LittleEndian.encode 2 n.toNat]
  | u32, (n : UInt32) => [LittleEndian.encode 4 n.toNat]
  | u64, (n : UInt64) => [LittleEndian.encode 8 n.toNat]
  | u128, (n : UInt128) => [LittleEndian.encode 16 n.toNat]
  | size, (n : UInt64) => [LittleEndian.encode 8 n.toNat]
  | bool, (b : Bool) => [[if b then 1 else 0]]
  | array _, a => [a.toList]
  | bytes, (bs : Bytes) => [Wire.encode (UInt64.ofNat bs.length), bs]
  | address, (a : Address) => [Wire.encode a.toFixedBytes]
  | digest, (d : Digest) => [Wire.encode d.toFixedBytes]
  | assetId, (a : AssetId) => [Wire.encode a.number]
  | networkId, (n : NetworkId) => [Wire.encode n.number]
  | ratio, (r : Ratio) => [Wire.encode r.numerator, Wire.encode r.denominator]
  | selector, .absolute amount => [Wire.encode amount]
  | selector, .ratio share => [Wire.encode share]
  | selector, .unit whole fraction => [Wire.encode whole, Wire.encode fraction]
  | portion, (p : Portion) => [Wire.encode p.asset, Wire.encode p.selector]
  | boundValue, .assetId asset => [Wire.encode asset]
  | boundValue, .assetAmount asset share => [Wire.encode asset, Wire.encode share]
  | boundValue, .self => []
  | binding, (b : Binding) => [Wire.encode b.position, Wire.encode b.value]
  | recipient, .account holder => [Wire.encode holder]
  | recipient, .relayer => []
  | recipient, .self => []
  | version, (v : Version) => [Wire.encode v.major, Wire.encode v.minor, Wire.encode v.patch]
  | origin, (o : Origin) => [Wire.encode o.network, Wire.encode o.account]
  | spawnRecord, (r : SpawnRecord) =>
    [Wire.encode r.origin, Wire.encode r.target, Wire.encode r.salt, Wire.encode r.version,
      Wire.encode r.program, Wire.encode r.assets, Wire.encode r.amounts]
  | ownerCall, .add owners => [Wire.encode owners]
  | ownerCall, .remove owners => [Wire.encode owners]
  | tokenCall, .transfer payee amount => [Wire.encode payee, Wire.encode amount]
  | list _, xs => Wire.encode (UInt64.ofNat xs.length) :: xs.map Wire.encode

/-- A count is written as a size. -/
theorem encodeCount_eq (n : Nat) : Wire.encodeCount n = Wire.encode (UInt64.ofNat n) := by
  show _ = LittleEndian.encode 8 (UInt64.ofNat n).toNat
  rw [UInt64.toNat_ofNat']
  exact (LittleEndian.encode_mod 8 n).symm

/-- **A byte form is the number of the case and the fields in a row.** -/
theorem encode_eq (t : WireType) (v : t.Value) :
    Wire.encode v = (t.case? v).toList.map UInt8.ofNat ++ (t.fields v).flatten := by
  cases t with
  | list =>
    show Wire.encodeCount (List.length v) ++ List.flatMap Wire.encode v = _
    rw [encodeCount_eq, List.flatMap_def]
    rfl
  | bytes =>
    show Wire.encodeCount (List.length v) ++ List.flatMap (fun b => [b]) v = _
    rw [encodeCount_eq, List.flatMap_singleton']
    simp [case?, fields]
  | selector => cases v <;> simp [Wire.encode, case?, fields, Selector.ctorIdx]
  | boundValue => cases v <;> simp [Wire.encode, case?, fields, BoundValue.ctorIdx]
  | recipient => cases v <;> simp [Wire.encode, case?, fields, Recipient.ctorIdx]
  | ownerCall => cases v <;> simp [Wire.encode, case?, fields, OwnerCall.ctorIdx]
  | tokenCall => cases v; simp [Wire.encode, case?, fields, TokenCall.ctorIdx]
  | _ =>
    simp only [case?, fields, List.flatten_cons, List.flatten_nil, List.append_nil,
      Option.toList_none, List.map_nil, List.nil_append]
    rfl

/-! ## The whole -/

/-- **Each value of a wire type has one byte form**, as long as a count can say how long its lists
are.  It reads back whatever comes after it and leaves that, and whatever is read is the byte form
of what is answered, before what is left.  So a byte string spells a value exactly when it is the
value's byte form, and different values have different ones.  A byte form is the number of the case
that the value is in, where the type has cases, and then the fields in the order of declaration. -/
theorem byteForm_canonical (t : WireType) (ht : t.isProper = true) :
    (∀ v : t.Value, t.Fits v → ∀ rest, Wire.read (Wire.encode v ++ rest) = .ok (v, rest)) ∧
      (∀ input (v : t.Value) rest, Wire.read input = .ok (v, rest) →
        t.Fits v ∧ input = Wire.encode v ++ rest) ∧
      (∀ input (v : t.Value), Wire.decode input = .ok v ↔ t.Fits v ∧ input = Wire.encode v) ∧
      (∀ v w : t.Value, t.Fits v → t.Fits w → v ≠ w → Wire.encode v ≠ Wire.encode w) ∧
      ∀ v : t.Value,
        Wire.encode v = (t.case? v).toList.map UInt8.ofNat ++ (t.fields v).flatten := by
  have hexact := exact_read ht
  refine ⟨fun v hv => hexact.read_encode hv, fun input v rest => hexact.eq_encode,
    fun input v => hexact.whole_iff, fun v w hv hw hne heq => hne ?_, encode_eq t⟩
  have hback : Wire.decode (Wire.encode v) = .ok v := hexact.whole_iff.mpr ⟨hv, rfl⟩
  have hother : Wire.decode (Wire.encode v) = .ok w := hexact.whole_iff.mpr ⟨hw, heq⟩
  exact Except.ok.inj (hback.symm.trans hother)

/-- A record with lists of several kinds in it. -/
def parcel : SpawnRecord :=
  ⟨⟨⟨1⟩, .zero⟩, ⟨2⟩, [7], 3, [88, 67, 86, 77], [⟨4⟩, ⟨4⟩], [5, 6]⟩

/-- A list of records is spelled in one way. -/
theorem byteForm_canonical_parcels :
    (list spawnRecord).isProper = true ∧
      ∀ input, Wire.decode input = .ok ([parcel, parcel] : (list spawnRecord).Value) ↔
        input = Wire.encode ([parcel, parcel] : (list spawnRecord).Value) := by
  have hfits : (list spawnRecord).Fits [parcel, parcel] := by
    simp [Fits, parcel]
  obtain ⟨-, -, hwhole, -⟩ := byteForm_canonical (list spawnRecord) rfl
  exact ⟨rfl, fun input => (hwhole input _).trans (and_iff_right hfits)⟩

end WireType

end Crossnet
