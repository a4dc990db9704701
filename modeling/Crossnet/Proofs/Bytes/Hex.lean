import Mathlib.Data.Char
import Crossnet.Bytes.Hex

/-!
# Which hexadecimal texts are read

`Hex.parse?` drops the blanks around a text and then every mark that it begins
with, and reads what is left in pairs.  A pair is two digits, or a plus sign and
a digit.  So more is read than the spellings of byte strings: the plus sign and
the marks after the first one are the difference.

* `value?_eq_some_iff`: the value of a character is the number of the digit that
  it is in lower case.
* `parse?_eq_some_iff`: what is read is marks and then `Pairs`.
* `parse?_accepts`: **without a plus sign and a second mark the texts that are
  read are the spellings of the bytes.**
-/

namespace Crossnet.Hex

/-! ## Digits -/

/-- A hexadecimal digit of either case. -/
def IsDigit (c : Char) : Prop :=
  ('0' ≤ c ∧ c ≤ '9') ∨ ('a' ≤ c ∧ c ≤ 'f') ∨ ('A' ≤ c ∧ c ≤ 'F')

instance (c : Char) : Decidable (IsDigit c) :=
  inferInstanceAs (Decidable (_ ∨ _ ∨ _))

theorem isDigit_digit : ∀ n < 16, IsDigit (digit n) := by decide

theorem value?_digit : ∀ n < 16, value? (digit n) = some n := by decide

theorem toNat_lt_of_isDigit {c : Char} (h : IsDigit c) : c.toNat < 103 := by
  rcases h with ⟨-, h⟩ | ⟨-, h⟩ | ⟨-, h⟩ <;>
    exact lt_of_le_of_lt (UInt32.le_iff_toNat_le.mp h) (by decide)

/-- What holds of the characters up to `f` can be seen by looking at each. -/
theorem forall_below_g {p : Char → Prop} (h : ∀ n < 103, p (Char.ofNat n)) {c : Char}
    (hc : c.toNat < 103) : p c := by
  have hp := h c.toNat hc
  rwa [Char.ofNat_toNat] at hp

theorem toLower_of_le {c : Char} (h : 103 ≤ c.toNat) : c.toLower = c := by
  refine dif_neg ?_
  rintro ⟨-, hz⟩
  exact absurd (lt_of_le_of_lt (UInt32.le_iff_toNat_le.mp hz) (by decide)) (not_lt.mpr h)

theorem exists_value?_of_isDigit {c : Char} (h : IsDigit c) :
    ∃ n < 16, value? c = some n ∧ c.toLower = digit n :=
  forall_below_g (p := fun c => IsDigit c → ∃ n < 16, value? c = some n ∧ c.toLower = digit n)
    (by decide +kernel) (toNat_lt_of_isDigit h) h

theorem isDigit_of_toLower {c : Char} (h : IsDigit c.toLower) : IsDigit c := by
  by_cases hc : c.toNat < 103
  · exact forall_below_g (p := fun c => IsDigit c.toLower → IsDigit c) (by decide +kernel) hc h
  · rwa [toLower_of_le (not_lt.mp hc)] at h

theorem isBlank_of_isDigit {c : Char} (h : IsDigit c) : Text.isBlank c = false :=
  forall_below_g (p := fun c => IsDigit c → Text.isBlank c = false) (by decide +kernel)
    (toNat_lt_of_isDigit h) h

theorem value?_of_not_isDigit {c : Char} (h : ¬IsDigit c) : value? c = none := by
  obtain ⟨hdecimal, h⟩ := not_or.mp h
  obtain ⟨hlower, hupper⟩ := not_or.mp h
  rw [value?, if_neg hdecimal, if_neg hlower, if_neg hupper]

theorem isDigit_of_value? {c : Char} {n : Nat} (h : value? c = some n) : IsDigit c := by
  by_contra hc
  rw [value?_of_not_isDigit hc] at h
  cases h

/-- The value of a character is the number of the digit that it is in lower case. -/
theorem value?_eq_some_iff {c : Char} {n : Nat} :
    value? c = some n ↔ n < 16 ∧ c.toLower = digit n := by
  constructor
  · intro h
    obtain ⟨m, hm, hvalue, hlower⟩ := exists_value?_of_isDigit (isDigit_of_value? h)
    rw [hvalue] at h
    cases h
    exact ⟨hm, hlower⟩
  · rintro ⟨hn, hlower⟩
    have hc : IsDigit c := isDigit_of_toLower (by rw [hlower]; exact isDigit_digit n hn)
    obtain ⟨m, hm, hvalue, hlower'⟩ := exists_value?_of_isDigit hc
    have hsame : some m = some n := by
      rw [← value?_digit m hm, ← value?_digit n hn, ← hlower', hlower]
    rw [hvalue, hsame]

/-! ## Pairs -/

/-- The characters stand for the bytes in pairs. -/
inductive Pairs : List Char → Bytes → Prop
  | nil : Pairs [] []
  /-- Two digits. -/
  | digits {high low : Char} {h l : Nat} {rest : List Char} {bytes : Bytes} :
    value? high = some h → value? low = some l → Pairs rest bytes →
      Pairs (high :: low :: rest) (UInt8.ofNat (16 * h + l) :: bytes)
  /-- A plus sign and a digit. -/
  | plus {low : Char} {l : Nat} {rest : List Char} {bytes : Bytes} :
    value? low = some l → Pairs rest bytes →
      Pairs ('+' :: low :: rest) (UInt8.ofNat l :: bytes)

theorem pairValue?_eq_some_iff {high low : Char} {b : UInt8} :
    pairValue? high low = some b ↔
      (∃ h l, value? high = some h ∧ value? low = some l ∧ b = UInt8.ofNat (16 * h + l)) ∨
        (high = '+' ∧ ∃ l, value? low = some l ∧ b = UInt8.ofNat l) := by
  have hplus : value? '+' = none := by decide
  rw [pairValue?]
  cases hlow : value? low with
  | none => simp
  | some l =>
    by_cases hhigh : high = '+'
    · subst hhigh
      simp [hplus, eq_comm]
    · cases hvalue : value? high <;> simp [hhigh, eq_comm]

theorem pairs_cons_cons_iff {high low : Char} {rest : List Char} {bytes : Bytes} :
    Pairs (high :: low :: rest) bytes ↔
      ∃ b tail, pairValue? high low = some b ∧ Pairs rest tail ∧ bytes = b :: tail := by
  constructor
  · intro h
    cases h with
    | digits hhigh hlow hrest =>
      exact ⟨_, _, pairValue?_eq_some_iff.mpr (.inl ⟨_, _, hhigh, hlow, rfl⟩), hrest, rfl⟩
    | plus hlow hrest =>
      exact ⟨_, _, pairValue?_eq_some_iff.mpr (.inr ⟨rfl, _, hlow, rfl⟩), hrest, rfl⟩
  · rintro ⟨b, tail, hpair, hrest, rfl⟩
    rcases pairValue?_eq_some_iff.mp hpair with ⟨h, l, hhigh, hlow, rfl⟩ | ⟨rfl, l, hlow, rfl⟩
    · exact .digits hhigh hlow hrest
    · exact .plus hlow hrest

/-- Pairs are read behind the bytes that were read before. -/
theorem pairs?_eq_some_iff {done : Bytes} {text : List Char} {bytes : Bytes} :
    pairs? done text = some bytes ↔ ∃ tail, Pairs text tail ∧ bytes = done.reverse ++ tail := by
  induction done, text using pairs?.induct generalizing bytes with
  | case1 done =>
    rw [pairs?]
    constructor
    · intro h
      cases h
      exact ⟨[], .nil, (List.append_nil _).symm⟩
    · rintro ⟨tail, htail, rfl⟩
      cases htail
      rw [List.append_nil]
  | case2 done c =>
    rw [pairs?]
    constructor
    · intro h
      cases h
    · rintro ⟨tail, htail, -⟩
      cases htail
  | case3 done high low rest hpair =>
    rw [pairs?, hpair]
    constructor
    · intro h
      cases h
    · rintro ⟨tail, htail, -⟩
      obtain ⟨b, _, hb, -⟩ := pairs_cons_cons_iff.mp htail
      rw [hpair] at hb
      cases hb
  | case4 done high low rest b hpair ih =>
    simp only [pairs?, hpair, ih, pairs_cons_cons_iff, List.reverse_cons, List.append_assoc,
      List.singleton_append, Option.some.injEq]
    constructor
    · rintro ⟨tail, htail, rfl⟩
      exact ⟨b :: tail, ⟨b, tail, rfl, htail, rfl⟩, rfl⟩
    · rintro ⟨_, ⟨_, tail, rfl, htail, rfl⟩, rfl⟩
      exact ⟨tail, htail, rfl⟩

/-! ## Marks -/

/-- The mark `0x`, `n` times. -/
def marks : (n : Nat) → List Char
  | 0 => []
  | n + 1 => '0' :: 'x' :: marks n

theorem dropMarks_marks (n : Nat) (text : List Char) :
    dropMarks (marks n ++ text) = dropMarks text := by
  induction n with
  | zero => rfl
  | succ n ih => exact ih

theorem exists_marks (text : List Char) : ∃ n, text = marks n ++ dropMarks text := by
  induction text using dropMarks.induct with
  | case1 rest ih =>
    obtain ⟨n, hn⟩ := ih
    refine ⟨n + 1, ?_⟩
    rw [dropMarks, marks, List.cons_append, List.cons_append, ← hn]
  | case2 text h =>
    have hnone : dropMarks text = text := by
      rw [dropMarks]
      exact h
    exact ⟨0, hnone.symm⟩

/-- No pair begins with a mark: `x` has no value. -/
theorem Pairs.dropMarks_eq {text : List Char} {bytes : Bytes} (h : Pairs text bytes) :
    dropMarks text = text := by
  rw [dropMarks]
  rintro rest rfl
  have hx : value? 'x' = none := by decide
  cases h with
  | digits _ hlow _ =>
    rw [hx] at hlow
    cases hlow

/-- What is read is marks, any number of them, and then pairs. -/
theorem parse?_eq_some_iff {text : String} {bytes : Bytes} :
    parse? text = some bytes ↔
      ∃ n digits, Text.trim text.toList = marks n ++ digits ∧ Pairs digits bytes := by
  rw [parse?, pairs?_eq_some_iff]
  constructor
  · rintro ⟨tail, hpairs, rfl⟩
    obtain ⟨n, hn⟩ := exists_marks (Text.trim text.toList)
    exact ⟨n, _, hn, hpairs⟩
  · rintro ⟨n, digits, htrim, hpairs⟩
    refine ⟨bytes, ?_, rfl⟩
    rw [htrim, dropMarks_marks, hpairs.dropMarks_eq]
    exact hpairs

/-! ## Spellings -/

/-- The digits spell the bytes, each digit in either case. -/
structure Spells (digits : List Char) (bytes : Bytes) : Prop where
  isDigit : ∀ c ∈ digits, IsDigit c
  length_eq : digits.length = 2 * bytes.length
  lower_eq : digits.map Char.toLower = (spell bytes).toList

/-- The text is digits that spell the bytes, behind one mark or none. -/
def IsHex (text : List Char) (bytes : Bytes) : Prop :=
  ∃ mark digits, (mark = [] ∨ mark = ['0', 'x']) ∧ text = mark ++ digits ∧ Spells digits bytes

theorem toList_spell (bytes : Bytes) : (spell bytes).toList = bytes.flatMap pairOf := by
  rw [spell, String.toList_ofList]

theorem exists_halves (b : UInt8) : ∃ h < 16, ∃ l < 16, b = UInt8.ofNat (16 * h + l) := by
  have hb := b.toNat_lt
  refine ⟨b.toNat / 16, by omega, b.toNat % 16, by omega, ?_⟩
  rw [Nat.div_add_mod, UInt8.ofNat_toNat]

theorem toList_spell_cons {h l : Nat} (hh : h < 16) (hl : l < 16) (bytes : Bytes) :
    (spell (UInt8.ofNat (16 * h + l) :: bytes)).toList =
      digit h :: digit l :: (spell bytes).toList := by
  have hbyte : (UInt8.ofNat (16 * h + l)).toNat = 16 * h + l := by
    rw [UInt8.toNat_ofNat']
    omega
  rw [toList_spell, List.flatMap_cons, pairOf, hbyte, show (16 * h + l) / 16 = h by omega,
    show (16 * h + l) % 16 = l by omega, toList_spell]
  rfl

theorem spells_nil : Spells [] [] :=
  ⟨fun _ hc => absurd hc List.not_mem_nil, rfl, rfl⟩

theorem Spells.cons {high low : Char} {h l : Nat} {rest : List Char} {bytes : Bytes}
    (hhigh : value? high = some h) (hlow : value? low = some l) (hrest : Spells rest bytes) :
    Spells (high :: low :: rest) (UInt8.ofNat (16 * h + l) :: bytes) := by
  obtain ⟨hh, hhigh'⟩ := value?_eq_some_iff.mp hhigh
  obtain ⟨hl, hlow'⟩ := value?_eq_some_iff.mp hlow
  refine ⟨?_, ?_, ?_⟩
  · intro c hc
    rcases List.mem_cons.mp hc with rfl | hc
    · exact isDigit_of_value? hhigh
    · rcases List.mem_cons.mp hc with rfl | hc
      · exact isDigit_of_value? hlow
      · exact hrest.isDigit c hc
  · have hlength := hrest.length_eq
    simp only [List.length_cons]
    omega
  · rw [toList_spell_cons hh hl, List.map_cons, List.map_cons, hhigh', hlow', hrest.lower_eq]

/-- Pairs without a plus sign are digits. -/
theorem Pairs.spells {text : List Char} {bytes : Bytes} (h : Pairs text bytes)
    (hplus : '+' ∉ text) : Spells text bytes := by
  induction h with
  | nil => exact spells_nil
  | digits hhigh hlow _ ih =>
    exact (ih fun hmem => hplus (List.mem_cons_of_mem _ (List.mem_cons_of_mem _ hmem))).cons
      hhigh hlow
  | plus => exact absurd List.mem_cons_self hplus

/-- Digits that spell bytes stand for them in pairs. -/
theorem Spells.pairs {text : List Char} {bytes : Bytes} (h : Spells text bytes) :
    Pairs text bytes := by
  have hlower := h.lower_eq
  clear h
  induction bytes generalizing text with
  | nil =>
    obtain rfl : text = [] := List.map_eq_nil_iff.mp hlower
    exact .nil
  | cons b bytes ih =>
    obtain ⟨h, hh, l, hl, rfl⟩ := exists_halves b
    rw [toList_spell_cons hh hl] at hlower
    match text, hlower with
    | [_], hlower => cases (List.cons.inj hlower).2
    | high :: low :: rest, hlower =>
      obtain ⟨hhigh, hlower⟩ := List.cons.inj hlower
      obtain ⟨hlow, hrest⟩ := List.cons.inj hlower
      exact .digits (value?_eq_some_iff.mpr ⟨hh, hhigh⟩) (value?_eq_some_iff.mpr ⟨hl, hlow⟩)
        (ih hrest)

theorem spells_spell (bytes : Bytes) : Spells (spell bytes).toList bytes := by
  induction bytes with
  | nil => exact spells_nil
  | cons b bytes ih =>
    obtain ⟨h, hh, l, hl, rfl⟩ := exists_halves b
    rw [toList_spell_cons hh hl]
    exact ih.cons (value?_digit h hh) (value?_digit l hl)

/-- What spells bytes in lower case spells them as it is. -/
theorem Spells.of_lower {digits : List Char} {bytes : Bytes}
    (h : digits.map Char.toLower = (spell bytes).toList) : Spells digits bytes := by
  have hspell := spells_spell bytes
  refine ⟨?_, ?_, h⟩
  · intro c hc
    have hlower : c.toLower ∈ (spell bytes).toList := by
      rw [← h]
      exact List.mem_map_of_mem hc
    exact isDigit_of_toLower (hspell.isDigit _ hlower)
  · have hlength := congrArg List.length h
    rw [List.length_map] at hlength
    rw [hlength, hspell.length_eq]

/-- The digits of a byte string are read back. -/
theorem pairs?_spell (bytes : Bytes) : pairs? [] (spell bytes).toList = some bytes :=
  pairs?_eq_some_iff.mpr ⟨bytes, (spells_spell bytes).pairs, rfl⟩

/-- Different byte strings are written differently. -/
theorem spell_injective : Function.Injective spell := by
  intro a b h
  have hread := pairs?_spell a
  rw [h, pairs?_spell] at hread
  exact (Option.some.inj hread).symm

theorem Spells.plus_notMem {digits : List Char} {bytes : Bytes} (h : Spells digits bytes) :
    '+' ∉ digits :=
  fun hmem => absurd (h.isDigit _ hmem) (by decide)

/-- Digits begin with no mark. -/
theorem Spells.not_marked {digits : List Char} {bytes : Bytes} (h : Spells digits bytes) :
    ¬['0', 'x'] <+: digits :=
  fun hmark => absurd (h.isDigit 'x' (hmark.subset (by decide))) (by decide)

namespace IsHex

variable {text : List Char} {bytes : Bytes}

theorem plus_notMem (h : IsHex text bytes) : '+' ∉ text := by
  obtain ⟨mark, digits, rfl | rfl, rfl, hspells⟩ := h
  · exact hspells.plus_notMem
  · simpa using hspells.plus_notMem

theorem not_marked_twice (h : IsHex text bytes) : ¬marks 2 <+: text := by
  obtain ⟨mark, digits, rfl | rfl, rfl, hspells⟩ := h
  · exact fun htwice => hspells.not_marked ((List.prefix_append _ ['0', 'x']).trans htwice)
  · intro htwice
    exact hspells.not_marked ((List.prefix_append_right_inj ['0', 'x']).mp htwice)

theorem marked (h : IsHex text bytes) :
    ∃ n digits, text = marks n ++ digits ∧ Spells digits bytes := by
  obtain ⟨mark, digits, rfl | rfl, htext, hspells⟩ := h
  · exact ⟨0, digits, htext, hspells⟩
  · exact ⟨1, digits, htext, hspells⟩

theorem isBlank_eq_false (h : IsHex text bytes) :
    ∀ c ∈ text, Text.isBlank c = false := by
  obtain ⟨mark, digits, hmark, rfl, hspells⟩ := h
  intro c hc
  rcases List.mem_append.mp hc with hc | hc
  · rcases hmark with rfl | rfl
    · exact absurd hc List.not_mem_nil
    · simp only [List.mem_cons, List.not_mem_nil, or_false] at hc
      rcases hc with rfl | rfl <;> decide
  · exact isBlank_of_isDigit (hspells.isDigit c hc)

/-- Blanks around a spelling do not matter. -/
theorem parse?_surrounded {before after : List Char} (h : IsHex text bytes)
    (hbefore : ∀ c ∈ before, Text.isBlank c = true)
    (hafter : ∀ c ∈ after, Text.isBlank c = true) :
    parse? (String.ofList (before ++ text ++ after)) = some bytes := by
  obtain ⟨n, digits, htext, hspells⟩ := h.marked
  refine parse?_eq_some_iff.mpr ⟨n, digits, ?_, hspells.pairs⟩
  rw [String.toList_ofList, Text.trim_surrounded hbefore h.isBlank_eq_false hafter, htext]

end IsHex

/-! ## What is read -/

/-- **Which texts are read.**  What a text holds between the blanks at its ends is read as a byte
string exactly when it is marks, any number of them, and then pairs that stand for the bytes, where
a pair is two digits of either case or a plus sign and a digit.  Where there is no plus sign and no
second mark, it is read exactly when it is one mark or none and then two digits for each byte,
which in lower case are the byte string's own spelling. -/
theorem parse?_accepts (text : String) (bytes : Bytes) :
    (parse? text = some bytes ↔
      ∃ n digits, Text.trim text.toList = marks n ++ digits ∧ Pairs digits bytes) ∧
    (IsHex (Text.trim text.toList) bytes ↔
      parse? text = some bytes ∧ '+' ∉ Text.trim text.toList ∧
        ¬marks 2 <+: Text.trim text.toList) := by
  refine ⟨parse?_eq_some_iff, ?_⟩
  constructor
  · intro h
    obtain ⟨n, digits, htext, hspells⟩ := h.marked
    exact ⟨parse?_eq_some_iff.mpr ⟨n, digits, htext, hspells.pairs⟩, h.plus_notMem,
      h.not_marked_twice⟩
  · rintro ⟨hread, hplus, htwice⟩
    obtain ⟨n, digits, htext, hpairs⟩ := parse?_eq_some_iff.mp hread
    rw [htext] at hplus htwice ⊢
    have hspells := hpairs.spells fun hmem => hplus (List.mem_append_right _ hmem)
    match n, htwice with
    | 0, _ => exact ⟨[], digits, .inl rfl, rfl, hspells⟩
    | 1, _ => exact ⟨['0', 'x'], digits, .inr rfl, rfl, hspells⟩
    | n + 2, htwice => exact absurd ⟨marks n ++ digits, rfl⟩ htwice

/-- A plus sign is read for a digit, and a second mark is dropped like the first. -/
theorem parse?_plus_and_second_mark :
    (parse? "+f" = some [15] ∧ ¬IsHex (Text.trim "+f".toList) [15]) ∧
      parse? "0x0x12" = some [18] ∧ ¬IsHex (Text.trim "0x0x12".toList) [18] := by
  refine ⟨⟨by decide, fun h => ?_⟩, by decide, fun h => ?_⟩
  · exact h.plus_notMem (by decide)
  · exact h.not_marked_twice (by decide)

end Crossnet.Hex
