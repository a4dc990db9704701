import Mathlib.Tactic.ByContra
import Mathlib.Tactic.Tauto
import Crossnet.Program.Codec
import Crossnet.Proofs.Wire.Lawful

/-!
# The spelling of programs

A program has one byte form, and with room for `room - 1` nested levels the
reader accepts exactly the forms of the programs that are nested less than
`room` deep.  The induction is on the room: an instruction is read exactly when
the program inside it is, and one level of room is spent on each program.

* `exact_readWithin`: the reader is exact for the programs within its room.
* `Program.encode_inj`: different programs have different byte forms.
* `readWithin_of_deep`: what does not fit into the room is refused as too deep,
  wherever the deep spawn stands.  All that is read before it is read well.
-/

namespace Crossnet

open LawfulWire Reader

/-! ## Programs whose lists can be counted -/

mutual

/-- Every list and byte string in the program, at all levels, has fewer than `2 ^ 64` items. -/
def Program.Fits : Program → Prop
  | ⟨tag, instructions⟩ =>
    tag.length < 2 ^ 64 ∧ instructions.length < 2 ^ 64 ∧ Instruction.FitsAll instructions

/-- Every list and byte string in the instruction has fewer than `2 ^ 64` items. -/
def Instruction.Fits : Instruction → Prop
  | .transfer _ portions => portions.length < 2 ^ 64
  | .call payload bindings => payload.length < 2 ^ 64 ∧ bindings.length < 2 ^ 64
  | .spawn _ salt _ program portions =>
    salt.length < 2 ^ 64 ∧ program.Fits ∧ portions.length < 2 ^ 64

/-- Every instruction of the list fits. -/
def Instruction.FitsAll : List Instruction → Prop
  | [] => True
  | i :: rest => i.Fits ∧ Instruction.FitsAll rest

end

namespace Instruction

theorem fitsAll_iff {instructions : List Instruction} :
    FitsAll instructions ↔ ∀ i ∈ instructions, i.Fits := by
  induction instructions with
  | nil => simp [FitsAll]
  | cons i rest ih => simp [FitsAll, ih]

theorem depthAll_le_iff {instructions : List Instruction} {n : Nat} :
    depthAll instructions ≤ n ↔ ∀ i ∈ instructions, i.depth ≤ n := by
  induction instructions with
  | nil => simp [depthAll]
  | cons i rest ih => rw [depthAll, List.forall_mem_cons, Nat.max_le, ih]

theorem encodeAll_eq_flatMap (instructions : List Instruction) :
    encodeAll instructions = instructions.flatMap encode := by
  induction instructions with
  | nil => rfl
  | cons i rest ih => rw [encodeAll, ih, List.flatMap_cons]

theorem encode_ne_nil (i : Instruction) : i.encode ≠ [] := by
  cases i <;> simp [encode]

end Instruction

theorem fits_list {α : Type} [Wire α] [LawfulWire α] [WideWire α]
    (h : ∀ x : α, Fits x)
    {xs : List α} : Fits xs ↔ xs.length < 2 ^ 64 :=
  ⟨fun hxs => hxs.1, fun hlength => ⟨hlength, fun x _ => h x⟩⟩

theorem fits_bytes {b : Bytes} : Fits b ↔ b.length < 2 ^ 64 :=
  fits_list (fun _ => trivial)

/-! ## Instructions -/

/-- The fields of a spawn are read as a pair of what stands before the program and the rest. -/
theorem Instruction.readSpawn_eq (program : Reader Program) :
    (do
      let (network, salt, version) ← (Wire.read : Reader (NetworkId × Bytes × UInt32))
      let sub ← program
      let portions ← (Wire.read : Reader (List Portion))
      pure (spawn network salt version sub portions)) =
    (fun p => spawn p.1.1 p.1.2.1 p.1.2.2 p.2.1 p.2.2) <$> (do
      let front ← (Wire.read : Reader (NetworkId × Bytes × UInt32))
      let back ← (do
        let sub ← program
        let portions ← (Wire.read : Reader (List Portion))
        pure (sub, portions))
      pure (front, back)) := by
  simp only [map_eq_pure_bind, bind_assoc, pure_bind]

/-- An instruction is read exactly when the program in it is. -/
theorem Instruction.exact_readWith {program : Reader Program} {room : Nat}
    (h : Exact program Program.encode fun p => p.Fits ∧ p.depth < room) :
    Exact (readWith program) encode fun i => i.Fits ∧ i.depth ≤ room := by
  apply Exact.tagged encode_ne_nil
  intro t input i rest
  generalize ht : t.toNat = n
  rcases n with _ | _ | _ | n
  · obtain rfl : t = 0 := UInt8.toNat_inj.mp ht
    have hfields : Exact (Wire.read : Reader (Recipient × List Portion)) Wire.encode
        LawfulWire.Fits := exact
    show ((fun p => transfer p.1 p.2) <$> (Wire.read : Reader (Recipient × List Portion))) input
      = _ ↔ _
    refine Exact.alternative (fun i => i.Fits ∧ i.depth ≤ room) hfields ?_ ?_ ?_ input i rest
    · intro _; rfl
    · rintro ⟨recipient, portions⟩
      show portions.length < 2 ^ 64 ∧ 0 ≤ room ↔ True ∧ LawfulWire.Fits portions
      rw [fits_list (fun _ : Portion => trivial)]
      simp
    · intro i rest
      cases i <;> simp [encode]
  · obtain rfl : t = 1 := UInt8.toNat_inj.mp ht
    have hfields : Exact (Wire.read : Reader (Bytes × List Binding)) Wire.encode
        LawfulWire.Fits := exact
    show ((fun p => call p.1 p.2) <$> (Wire.read : Reader (Bytes × List Binding))) input = _ ↔ _
    refine Exact.alternative (fun i => i.Fits ∧ i.depth ≤ room) hfields ?_ ?_ ?_ input i rest
    · intro _; rfl
    · rintro ⟨payload, bindings⟩
      show (payload.length < 2 ^ 64 ∧ bindings.length < 2 ^ 64) ∧ 0 ≤ room ↔
        LawfulWire.Fits payload ∧ LawfulWire.Fits bindings
      rw [fits_bytes, fits_list (fun _ : Binding => trivial)]
      simp
    · intro i rest
      cases i <;> simp [encode]
  · obtain rfl : t = 2 := UInt8.toNat_inj.mp ht
    have hfront : Exact (Wire.read : Reader (NetworkId × Bytes × UInt32)) Wire.encode
        LawfulWire.Fits := exact
    have hportions : Exact (Wire.read : Reader (List Portion)) Wire.encode LawfulWire.Fits := exact
    show (do
      let (network, salt, version) ← (Wire.read : Reader (NetworkId × Bytes × UInt32))
      let sub ← program
      let portions ← (Wire.read : Reader (List Portion))
      pure (spawn network salt version sub portions)) input = _ ↔ _
    rw [readSpawn_eq]
    refine Exact.alternative (fun i => i.Fits ∧ i.depth ≤ room)
      (hfront.pair (h.pair hportions)) ?_ ?_ ?_ input i rest
    · intro _; rfl
    · rintro ⟨⟨network, salt, version⟩, sub, portions⟩
      show (salt.length < 2 ^ 64 ∧ sub.Fits ∧ portions.length < 2 ^ 64) ∧ sub.depth + 1 ≤ room ↔
        (True ∧ LawfulWire.Fits salt ∧ True) ∧ (sub.Fits ∧ sub.depth < room) ∧
          LawfulWire.Fits portions
      rw [fits_bytes, fits_list (fun _ : Portion => trivial)]
      tauto
    · intro i rest
      cases i <;> simp [encode]
  · show (throw (DecodeError.unknownTag "Instruction" t) : Reader Instruction) input = _ ↔ _
    refine Exact.no_alternative (fun i => i.Fits ∧ i.depth ≤ room) ?_ input i rest
    intro i rest
    cases i <;> simp [encode] <;> rintro rfl <;> simp at ht

/-! ## Programs -/

theorem Program.depth_eq (p : Program) : p.depth = Instruction.depthAll p.instructions := by
  cases p
  rfl

theorem Program.encode_eq (p : Program) :
    p.encode = Wire.encode p.tag ++
      (Wire.encodeCount p.instructions.length ++ p.instructions.flatMap Instruction.encode) := by
  cases p
  rw [Program.encode, Instruction.encodeAll_eq_flatMap]

theorem Program.fits_iff (p : Program) :
    p.Fits ↔ p.tag.length < 2 ^ 64 ∧ p.instructions.length < 2 ^ 64 ∧
      ∀ i ∈ p.instructions, i.Fits := by
  cases p
  rw [Program.Fits, Instruction.fitsAll_iff]

theorem Program.readWithin_succ (room : Nat) :
    readWithin (room + 1) =
      (fun p : Bytes × List Instruction => Program.mk p.1 p.2) <$> (do
        let tag ← (Wire.read : Reader Bytes)
        let instructions ← Reader.list (Instruction.readWith (readWithin room))
        pure (tag, instructions)) := by
  rw [readWithin]
  simp only [map_eq_pure_bind, bind_assoc, pure_bind]

/-- **A reader with room accepts the byte forms of the programs within its room, and nothing
else.** -/
theorem Program.exact_readWithin (room : Nat) :
    Exact (readWithin room) Program.encode fun p => p.Fits ∧ p.depth < room := by
  induction room with
  | zero =>
    intro input p rest
    constructor
    · intro h
      exact absurd h throw_ne_ok
    · rintro ⟨⟨-, h⟩, -⟩
      exact absurd h (Nat.not_lt_zero _)
  | succ room ih =>
    have htag : Exact (Wire.read : Reader Bytes) Wire.encode LawfulWire.Fits := exact
    have hparts := htag.pair
      (exact_list (Instruction.exact_readWith ih) Instruction.encode_ne_nil)
    rw [readWithin_succ]
    refine (hparts.map (fun p : Program => (p.tag, p.instructions)) (fun p => by cases p; rfl)
      (fun _ _ => rfl) (fun _ => Iff.rfl)).congr Program.encode_eq fun p => ?_
    have hdepth : p.depth < room + 1 ↔ ∀ i ∈ p.instructions, i.depth ≤ room := by
      rw [Program.depth_eq, Nat.lt_succ_iff, Instruction.depthAll_le_iff]
    rw [Program.fits_iff, hdepth, fits_bytes]
    constructor
    · rintro ⟨⟨htag, hlength, hfits⟩, hdepth⟩
      exact ⟨htag, hlength, fun i hi => ⟨hfits i hi, hdepth i hi⟩⟩
    · rintro ⟨htag, hlength, h⟩
      exact ⟨⟨htag, hlength, fun i hi => (h i hi).1⟩, fun i hi => (h i hi).2⟩

/-- Different programs have different byte forms, however deep they are nested: a reader with room
for both tells them apart. -/
theorem Program.encode_inj {p q : Program} (hp : p.Fits) (hq : q.Fits)
    (h : p.encode = q.encode) : p = q := by
  have hread := exact_readWithin (max p.depth q.depth + 1)
  have heq : p.encode ++ [] = q.encode ++ [] := by rw [h]
  exact (hread.append_inj ⟨hp, Nat.lt_succ_of_le (Nat.le_max_left _ _)⟩
    ⟨hq, Nat.lt_succ_of_le (Nat.le_max_right _ _)⟩ heq).1

/-! ## Programs that are nested too deep -/

theorem Instruction.readWith_spawn (program : Reader Program) (input : Bytes) :
    readWith program (2 :: input) = (do
      let (network, salt, version) ← (Wire.read : Reader (NetworkId × Bytes × UInt32))
      let sub ← program
      let portions ← (Wire.read : Reader (List Portion))
      pure (spawn network salt version sub portions)) input :=
  rfl

/-- An instruction whose program is refused is refused. -/
theorem Instruction.readWith_of_deep {program : Reader Program} {room : Nat} {e : DecodeError}
    (hdeep : ∀ (p : Program) (rest : Bytes), p.Fits → room ≤ p.depth →
      program (p.encode ++ rest) = .error e)
    {i : Instruction} (hfits : i.Fits) (hi : room < i.depth) (rest : Bytes) :
    readWith program (i.encode ++ rest) = .error e := by
  cases i with
  | transfer recipient portions => exact absurd hi (Nat.not_lt_zero _)
  | call payload bindings => exact absurd hi (Nat.not_lt_zero _)
  | spawn network salt version sub portions =>
    obtain ⟨hsalt, hsub, -⟩ := hfits
    have hfields : LawfulWire.Fits (network, salt, version) :=
      ⟨trivial, fits_bytes.mpr hsalt, trivial⟩
    -- the tag and the fields before the program are read well, and the program is refused
    have hfront := exact.read_encode hfields (sub.encode ++ (Wire.encode portions ++ rest))
    have hprogram := hdeep sub (Wire.encode portions ++ rest) hsub (Nat.lt_succ_iff.mp hi)
    have hinput : (spawn network salt version sub portions).encode ++ rest =
        2 :: (Wire.encode (network, salt, version) ++
          (sub.encode ++ (Wire.encode portions ++ rest))) := by
      simp [encode]
    rw [hinput, readWith_spawn]
    refine (bind_of_ok hfront).trans ?_
    exact bind_of_error hprogram

/-- **What does not fit into the room is refused as too deep**, wherever in the program the deep
spawn stands. -/
theorem Program.readWithin_of_deep (room : Nat) :
    ∀ (p : Program) (rest : Bytes), p.Fits → room ≤ p.depth →
      readWithin room (p.encode ++ rest) = .error (.nestingTooDeep maxNesting) := by
  induction room with
  | zero =>
    intro p rest _ _
    rfl
  | succ room ih =>
    intro p rest hfits hdepth
    obtain ⟨htag, hlength, hinstructions⟩ := p.fits_iff.mp hfits
    have hread := Instruction.exact_readWith (exact_readWithin room)
    have hall : ∀ i ∈ p.instructions,
        (∀ rest, Instruction.readWith (readWithin room) (i.encode ++ rest) = .ok (i, rest)) ∨
          ∀ rest, Instruction.readWith (readWithin room) (i.encode ++ rest) =
            .error (.nestingTooDeep maxNesting) := by
      intro i hi
      by_cases hle : i.depth ≤ room
      · exact Or.inl fun rest => hread.read_encode ⟨hinstructions i hi, hle⟩ rest
      · exact Or.inr fun rest =>
          Instruction.readWith_of_deep ih (hinstructions i hi) (Nat.not_le.mp hle) rest
    have hsome : ∃ i ∈ p.instructions, room < i.depth := by
      by_contra h
      have hle := Instruction.depthAll_le_iff.mpr fun i hi =>
        Nat.not_lt.mp fun hlt => h ⟨i, hi, hlt⟩
      rw [← Program.depth_eq] at hle
      omega
    obtain ⟨i, hi, hdeep⟩ := hsome
    have hlist := list_of_error hlength (fun i _ => Instruction.encode_ne_nil i) hall
      ⟨i, hi, fun rest => Instruction.readWith_of_deep ih (hinstructions i hi) hdeep rest⟩ rest
    have hfront := exact.read_encode (fits_bytes.mpr htag)
      (Wire.encodeCount p.instructions.length ++ p.instructions.flatMap Instruction.encode ++ rest)
    rw [readWithin_succ, Program.encode_eq, List.append_assoc]
    exact map_of_error ((bind_of_ok hfront).trans (bind_of_error hlist))

end Crossnet
