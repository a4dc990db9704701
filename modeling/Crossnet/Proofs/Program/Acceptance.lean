import Crossnet.Program.Validation
import Crossnet.Proofs.Binding.Layout
import Crossnet.Proofs.Program.Spelling

/-!
# Which bytes are accepted as a program

An envelope can be opened in one way only: its magic bytes are fixed, and the
current version is the one version that can be read.  So the enveloped form of a
program is its only spelling.  Validation then accepts the well-formed programs.

* `exact_readEnvelope`: envelopes are read exactly.
* `validate_eq_ok_iff`: **validation accepts the well-formed programs.**
* `accept_iff_toWire`: **bytes are accepted as a program exactly when they are its
  enveloped form, and it is well formed and nested at most sixteen deep.**
-/

namespace Crossnet

open LawfulWire Reader

/-! ## Well-formed programs -/

/-- The ratio in the selector, if there is one, has a denominator other than zero. -/
def Selector.Proper : Selector → Prop
  | absolute _ => True
  | ratio share => share.denominator ≠ 0
  | unit _ fraction => fraction.denominator ≠ 0

/-- The share in the value, if there is one, has a denominator other than zero. -/
def BoundValue.Proper : BoundValue → Prop
  | assetAmount _ share => share.denominator ≠ 0
  | assetId _ => True
  | self => True

mutual

/-- At every level no ratio has denominator zero, and the spans of the bindings of every call lie
inside its payload and share no byte. -/
def Program.WellFormed : Program → Prop
  | ⟨_, instructions⟩ => Instruction.WellFormedAll instructions

/-- The instruction is well formed, and so is the program in it. -/
def Instruction.WellFormed : Instruction → Prop
  | .transfer _ portions => ∀ p ∈ portions, p.selector.Proper
  | .call payload bindings =>
    (∀ b ∈ bindings, b.value.Proper) ∧
      (∀ b ∈ bindings, b.stop ≤ payload.length) ∧ bindings.Pairwise Binding.Apart
  | .spawn _ _ _ program portions => (∀ p ∈ portions, p.selector.Proper) ∧ program.WellFormed

/-- Every instruction of the list is well formed. -/
def Instruction.WellFormedAll : List Instruction → Prop
  | [] => True
  | i :: rest => i.WellFormed ∧ Instruction.WellFormedAll rest

end

theorem Instruction.wellFormedAll_iff {instructions : List Instruction} :
    WellFormedAll instructions ↔ ∀ i ∈ instructions, i.WellFormed := by
  induction instructions with
  | nil => simp [WellFormedAll]
  | cons i rest ih => simp [WellFormedAll, ih]

theorem Program.wellFormed_iff (p : Program) :
    p.WellFormed ↔ ∀ i ∈ p.instructions, i.WellFormed := by
  cases p
  rw [Program.WellFormed, Instruction.wellFormedAll_iff]

/-! ## Validation -/

theorem Selector.hasZeroDenominator_eq_false_iff (s : Selector) :
    s.hasZeroDenominator = false ↔ s.Proper := by
  cases s <;> simp [hasZeroDenominator, ratio?, Proper]

theorem BoundValue.hasZeroDenominator_eq_false_iff (v : BoundValue) :
    v.hasZeroDenominator = false ↔ v.Proper := by
  cases v <;> simp [hasZeroDenominator, Proper]

theorem refuse_any_eq_ok_iff {α ε : Type} {xs : List α} {bad : α → Bool} {e : ε} :
    (if xs.any bad then Except.error e else .ok ()) = .ok () ↔ ∀ x ∈ xs, bad x = false := by
  cases h : xs.any bad with
  | true =>
    obtain ⟨x, hx, hbad⟩ := List.any_eq_true.mp h
    simp only [if_true, reduceCtorEq, false_iff]
    intro hall
    rw [hall x hx] at hbad
    cases hbad
  | false => simpa using h

theorem checkPortions_eq_ok_iff {portions : List Portion} :
    checkPortions portions = .ok () ↔ ∀ p ∈ portions, p.selector.Proper := by
  rw [checkPortions, refuse_any_eq_ok_iff]
  simp only [Selector.hasZeroDenominator_eq_false_iff]

theorem checkShares_eq_ok_iff {bindings : List Binding} :
    checkShares bindings = .ok () ↔ ∀ b ∈ bindings, b.value.Proper := by
  rw [checkShares, refuse_any_eq_ok_iff]
  simp only [BoundValue.hasZeroDenominator_eq_false_iff]

theorem seq_eq_ok_iff {ε : Type} {a b : Except ε Unit} :
    (do a; b) = .ok () ↔ a = .ok () ∧ b = .ok () := by
  cases a with
  | error e => simp [bind, Except.bind]
  | ok u => simp [bind, Except.bind]

mutual

/-- **Validation accepts the well-formed programs.** -/
theorem Program.validate_eq_ok_iff : ∀ p : Program, p.validate = .ok () ↔ p.WellFormed
  | ⟨_, instructions⟩ => Instruction.validateAll_eq_ok_iff instructions

theorem Instruction.validate_eq_ok_iff : ∀ i : Instruction, i.validate = .ok () ↔ i.WellFormed
  | .transfer _ _ => checkPortions_eq_ok_iff
  | .call payload bindings => by
    rw [Instruction.validate, seq_eq_ok_iff, checkShares_eq_ok_iff, checkLayout_eq_ok_iff,
      Instruction.WellFormed]
  | .spawn _ _ _ program portions => by
    rw [Instruction.validate, seq_eq_ok_iff, checkPortions_eq_ok_iff,
      Program.validate_eq_ok_iff program, Instruction.WellFormed]

theorem Instruction.validateAll_eq_ok_iff : ∀ instructions : List Instruction,
    Instruction.validateAll instructions = .ok () ↔ Instruction.WellFormedAll instructions
  | [] => by simp [Instruction.validateAll, Instruction.WellFormedAll]
  | i :: rest => by
    rw [Instruction.validateAll, seq_eq_ok_iff, Instruction.validate_eq_ok_iff i,
      Instruction.validateAll_eq_ok_iff rest, Instruction.WellFormedAll]

end

/-! ## Envelopes -/

/-- No version but the current one can be read: no other has its major version and is not newer. -/
theorem Version.isReadable_iff (v : Version) : v.isReadable = true ↔ v = current := by
  have hzero : ∀ n : UInt8, (compare n 0 = .eq ∧ n = 0) ∨ compare n 0 = .gt := by
    intro n
    by_cases h : n = 0
    · subst h
      exact Or.inl ⟨by decide, rfl⟩
    · right
      show compareOfLessAndEq n 0 = .gt
      rw [compareOfLessAndEq, if_neg (by simp), if_neg h]
  obtain ⟨major, minor, patch⟩ := v
  constructor
  · intro h
    rw [isReadable, Bool.and_eq_true, decide_eq_true_eq] at h
    obtain ⟨hmajor, hle⟩ := h
    obtain rfl : major = 1 := hmajor
    replace hle : ((compare minor 0).then (compare patch 0)).isLE = true := hle
    rcases hzero minor with ⟨hminor, rfl⟩ | hminor
    · rcases hzero patch with ⟨-, rfl⟩ | hpatch
      · rfl
      · rw [hminor, hpatch] at hle
        cases hle
    · rw [hminor] at hle
      cases hle
  · intro h
    rw [h]
    decide

/-- Behind the magic bytes and the current version the program is read. -/
theorem Program.readEnvelope_toWire (p : Program) (rest : Bytes) :
    readEnvelope (p.toWire ++ rest) = readWithin (maxNesting + 1) (p.encode ++ rest) := by
  have hversion : Exact (Wire.read : Reader Version) Wire.encode LawfulWire.Fits := exact
  have hfront : Reader.bytes magic.length
      (magic ++ (Wire.encode Version.current ++ (p.encode ++ rest))) =
        .ok (magic, Wire.encode Version.current ++ (p.encode ++ rest)) :=
    bytes_eq_ok.mpr ⟨rfl, rfl⟩
  have hback := hversion.read_encode (x := Version.current) trivial (p.encode ++ rest)
  rw [toWire, List.append_assoc, List.append_assoc]
  refine (bind_of_ok hfront).trans ?_
  rw [if_neg (not_not_intro rfl)]
  refine (bind_of_ok hback).trans ?_
  rfl

/-- An envelope is read exactly: it holds a program that is nested at most sixteen deep. -/
theorem Program.exact_readEnvelope :
    Exact readEnvelope toWire fun p => p.Fits ∧ p.depth < maxNesting + 1 := by
  intro input p rest
  have hversion : Exact (Wire.read : Reader Version) Wire.encode LawfulWire.Fits := exact
  have hprogram := exact_readWithin (maxNesting + 1)
  constructor
  · intro h
    obtain ⟨front, mid, hfront, h⟩ := bind_eq_ok.mp h
    by_cases hm : front = magic
    · rw [if_neg (not_not_intro hm)] at h
      obtain ⟨version, back, hv, h⟩ := bind_eq_ok.mp h
      by_cases hr : version.isReadable = true
      · simp only [hr, Bool.not_true, Bool.false_eq_true, if_false] at h
        obtain ⟨hp, rfl⟩ := hprogram.eq_encode h
        obtain ⟨-, rfl⟩ := hversion.eq_encode hv
        obtain ⟨-, rfl⟩ := bytes_eq_ok.mp hfront
        obtain rfl := (Version.isReadable_iff version).mp hr
        refine ⟨hp, ?_⟩
        rw [hm, toWire, List.append_assoc, List.append_assoc]
      · simp only [hr, Bool.not_false, if_true] at h
        cases h
    · rw [if_pos hm] at h
      cases h
  · rintro ⟨hp, rfl⟩
    rw [readEnvelope_toWire]
    exact hprogram.read_encode hp rest

/-- What is read of an envelope is what is read of the program in it. -/
theorem Program.ofWire_eq_ok_iff {bytes : Bytes} {p : Program} :
    ofWire bytes = .ok p ↔ (p.Fits ∧ p.depth ≤ 16) ∧ bytes = p.toWire := by
  have h := @Exact.whole_iff _ _ _ _ exact_readEnvelope bytes p
  rw [Nat.lt_succ_iff] at h
  exact h

theorem Program.ofWire_of_deep {p : Program} (hfits : p.Fits) (hdepth : 16 < p.depth) :
    ofWire p.toWire = .error (.nestingTooDeep 16) := by
  apply Exact.whole_of_error
  have h := readEnvelope_toWire p []
  rw [List.append_nil] at h
  rw [h]
  exact readWithin_of_deep (maxNesting + 1) p [] hfits hdepth

/-! ## Acceptance -/

theorem Program.accept_eq_ok_iff_validate {bytes : Bytes} {p : Program} :
    accept bytes = .ok p ↔ ofWire bytes = .ok p ∧ p.validate = .ok () := by
  rw [accept]
  cases hread : ofWire bytes with
  | error cause => simp
  | ok q =>
    constructor
    · intro h
      cases hvalid : q.validate with
      | error e => simp [hvalid] at h
      | ok u =>
        simp only [hvalid, Except.ok.injEq] at h
        subst h
        exact ⟨rfl, hvalid⟩
    · rintro ⟨h, hvalid⟩
      cases h
      simp [hvalid]

/-- Bytes are accepted as a program when they are its enveloped form and it is well formed and
nested at most sixteen deep. -/
theorem Program.accept_eq_ok_iff {bytes : Bytes} {p : Program} :
    accept bytes = .ok p ↔ p.Fits ∧ bytes = p.toWire ∧ p.depth ≤ 16 ∧ p.WellFormed := by
  rw [accept_eq_ok_iff_validate, ofWire_eq_ok_iff, p.validate_eq_ok_iff]
  tauto

/-- The empty program is accepted. -/
theorem Program.accept_nothing : accept (Program.mk [] []).toWire = .ok ⟨[], []⟩ :=
  accept_eq_ok_iff.mpr ⟨⟨by decide, by decide, trivial⟩, rfl, by decide, trivial⟩

/-- **The wire format is exact.**  Bytes are accepted as a program exactly when they are its
enveloped form, it is nested at most sixteen deep, and it is well formed at every level.  So
acceptance undoes the enveloped form, and what is accepted is the enveloped form of what it is
accepted as.  A program that is nested deeper is refused as too deep, wherever in it the deep spawn
stands. -/
theorem Program.accept_iff_toWire (bytes : Bytes) (p : Program) :
    (accept bytes = .ok p ↔ p.Fits ∧ bytes = p.toWire ∧ p.depth ≤ 16 ∧ p.WellFormed) ∧
      (p.Fits → p.depth ≤ 16 → p.WellFormed → accept p.toWire = .ok p) ∧
      (accept bytes = .ok p → p.toWire = bytes) ∧
      (p.Fits → 16 < p.depth → ofWire p.toWire = .error (.nestingTooDeep 16)) := by
  refine ⟨accept_eq_ok_iff, ?_, ?_, ?_⟩
  · intro hfits hdepth hwf
    exact accept_eq_ok_iff.mpr ⟨hfits, rfl, hdepth, hwf⟩
  · intro h
    exact (accept_eq_ok_iff.mp h).2.1.symm
  · exact fun hfits hdepth => ofWire_of_deep hfits hdepth

/-- A program in `levels` spawns, each with a call behind it that binds the interpreter and a share
of an asset. -/
def Program.chain : (levels : Nat) → Program
  | 0 => ⟨[7], []⟩
  | levels + 1 =>
    ⟨[7], [.spawn ⟨3⟩ [1, 2] 5 (chain levels) [⟨⟨9⟩, .unit 2 ⟨1, 4⟩⟩],
      .call (List.replicate 36 0) [⟨20, .assetAmount ⟨9⟩ ⟨1, 2⟩⟩, ⟨0, .self⟩]]⟩

theorem Program.chain_fits (levels : Nat) : (chain levels).Fits := by
  induction levels with
  | zero => simp [chain, Fits, Instruction.FitsAll]
  | succ levels ih => simp [chain, Fits, Instruction.FitsAll, Instruction.Fits, ih]

theorem Program.chain_wellFormed (levels : Nat) : (chain levels).WellFormed := by
  induction levels with
  | zero => simp [chain, WellFormed, Instruction.WellFormedAll]
  | succ levels ih =>
    simp [chain, WellFormed, Instruction.WellFormedAll, Instruction.WellFormed, ih,
      Selector.Proper, BoundValue.Proper, Binding.Apart, Binding.start, Binding.stop,
      BoundValue.width]

theorem Program.depth_chain (levels : Nat) : (chain levels).depth = levels := by
  induction levels with
  | zero => rfl
  | succ levels ih => simp [chain, depth, Instruction.depthAll, Instruction.depth, ih]

/-- Sixteen levels are accepted, and seventeen are too many. -/
theorem Program.accept_chain :
    accept (chain 16).toWire = .ok (chain 16) ∧
      ofWire (chain 17).toWire = .error (.nestingTooDeep 16) :=
  ⟨(accept_iff_toWire (chain 16).toWire (chain 16)).1.mpr
      ⟨chain_fits 16, rfl, (depth_chain 16).le, chain_wellFormed 16⟩,
    (accept_iff_toWire [] (chain 17)).2.2.2 (chain_fits 17) (by rw [depth_chain]; decide)⟩

end Crossnet
