import Mathlib.Algebra.Group.Nat.Defs
import Crossnet.Wire

/-!
# Exact readers

A reader is exact for a way to write values when it accepts what is written of a
value, whatever bytes follow, and accepts nothing else.  So a value has one
spelling, and reading undoes writing in both directions.

Not every value of an unbounded type can be written: a count has eight bytes, so
a list of `2 ^ 64` items or more has no byte form that reads back.  `fits` says
which values are meant.

* `LittleEndian.decode_encode`, `LittleEndian.encode_decode`: numbers below
  `256 ^ width` and byte strings of that length are the same thing.
* `Exact.map`, `Exact.pair`, `Exact.tagged`, `exact_list`: exactness passes from
  the parts to the whole.
* `Exact.whole_iff`: the whole input spells a value exactly when it is the
  value's byte form.
-/

namespace Crossnet

/-! ## Little-endian numbers -/

namespace LittleEndian

theorem decode_encode {width n : Nat} (h : n < 256 ^ width) : decode (encode width n) = n := by
  induction width generalizing n with
  | zero => simp at h; simp [encode, decode, h]
  | succ width ih =>
    have hq : n / 256 < 256 ^ width := by
      rw [Nat.pow_succ] at h
      exact Nat.div_lt_of_lt_mul (by rw [Nat.mul_comm]; exact h)
    simp only [encode, decode, ih hq, UInt8.toNat_ofNat']
    omega

theorem decode_lt (bytes : Bytes) : decode bytes < 256 ^ bytes.length := by
  induction bytes with
  | nil => simp [decode]
  | cons b rest ih =>
    have hb := b.toNat_lt
    simp only [decode, List.length_cons, Nat.pow_succ]
    omega

theorem encode_decode (bytes : Bytes) : encode bytes.length (decode bytes) = bytes := by
  induction bytes with
  | nil => rfl
  | cons b rest ih =>
    have hb := b.toNat_lt
    have hq : (b.toNat + 256 * decode rest) / 256 = decode rest := by omega
    have hr : UInt8.ofNat (b.toNat + 256 * decode rest) = b := by
      apply UInt8.toNat_inj.mp
      simp only [UInt8.toNat_ofNat']
      omega
    simp only [List.length_cons, decode, encode, hq, hr, ih]

end LittleEndian

namespace Reader

variable {α β : Type}

/-! ## Readers in sequence -/

theorem bind_eq_ok {read : Reader α} {f : α → Reader β} {input rest : Bytes} {y : β} :
    (read >>= f) input = .ok (y, rest) ↔
      ∃ x mid, read input = .ok (x, mid) ∧ f x mid = .ok (y, rest) := by
  show (StateT.bind read f) input = _ ↔ _
  cases h : read input with
  | error e => simp [StateT.bind, bind, Except.bind, h]
  | ok p =>
    obtain ⟨x, mid⟩ := p
    simp only [StateT.bind, bind, Except.bind, h, Except.ok.injEq, Prod.mk.injEq]
    constructor
    · intro hf
      exact ⟨x, mid, ⟨rfl, rfl⟩, hf⟩
    · rintro ⟨_, _, ⟨rfl, rfl⟩, hf⟩
      exact hf

theorem map_eq_ok {read : Reader α} {f : α → β} {input rest : Bytes} {y : β} :
    (f <$> read) input = .ok (y, rest) ↔ ∃ x, read input = .ok (x, rest) ∧ f x = y := by
  show (StateT.map f read) input = _ ↔ _
  cases h : read input with
  | error e => simp [StateT.map, bind, Except.bind, h]
  | ok p =>
    obtain ⟨x, mid⟩ := p
    simp only [StateT.map, bind, Except.bind, h, pure, Except.pure, Except.ok.injEq, Prod.mk.injEq]
    constructor
    · rintro ⟨hf, rfl⟩
      exact ⟨x, ⟨rfl, rfl⟩, hf⟩
    · rintro ⟨_, ⟨rfl, rfl⟩, hf⟩
      exact ⟨hf, rfl⟩

theorem pure_eq_ok {x y : α} {input rest : Bytes} :
    (pure x : Reader α) input = .ok (y, rest) ↔ x = y ∧ input = rest := by
  show Except.ok (x, input) = .ok (y, rest) ↔ _
  simp

theorem throw_ne_ok {e : DecodeError} {input rest : Bytes} {y : α} :
    (throw e : Reader α) input ≠ .ok (y, rest) := by
  intro h
  cases h

theorem bind_of_ok {read : Reader α} {f : α → Reader β} {input mid : Bytes} {x : α}
    (h : read input = .ok (x, mid)) : (read >>= f) input = f x mid := by
  show (StateT.bind read f) input = _
  simp only [StateT.bind, bind, Except.bind, h]

theorem bind_of_error {read : Reader α} {f : α → Reader β} {input : Bytes} {e : DecodeError}
    (h : read input = .error e) : (read >>= f) input = .error e := by
  show (StateT.bind read f) input = _
  simp only [StateT.bind, bind, Except.bind, h]

theorem map_of_error {read : Reader α} {f : α → β} {input : Bytes} {e : DecodeError}
    (h : read input = .error e) : (f <$> read) input = .error e := by
  show (StateT.map f read) input = _
  simp only [StateT.map, bind, Except.bind, h]

/-! ## The law -/

/-- `read` accepts what `encode` writes of the values in `fits`, before any other bytes, and
accepts nothing else. -/
def Exact (read : Reader α) (encode : α → Bytes) (fits : α → Prop) : Prop :=
  ∀ input x rest, read input = .ok (x, rest) ↔ fits x ∧ input = encode x ++ rest

namespace Exact

variable {read : Reader α} {encode : α → Bytes} {fits : α → Prop}

/-- Reading undoes writing. -/
theorem read_encode (h : Exact read encode fits) {x : α} (hx : fits x) (rest : Bytes) :
    read (encode x ++ rest) = .ok (x, rest) :=
  (h _ x rest).mpr ⟨hx, rfl⟩

/-- What is written of two values differs before its end, whatever follows it. -/
theorem append_inj (h : Exact read encode fits) {x y : α} (hx : fits x) (hy : fits y)
    {more rest : Bytes} (heq : encode x ++ more = encode y ++ rest) : x = y ∧ more = rest := by
  have hread := h.read_encode hx more
  rw [heq, h.read_encode hy rest] at hread
  cases hread
  exact ⟨rfl, rfl⟩

/-- Writing undoes reading. -/
theorem eq_encode (h : Exact read encode fits) {input rest : Bytes} {x : α}
    (hread : read input = .ok (x, rest)) : fits x ∧ input = encode x ++ rest :=
  (h input x rest).mp hread

theorem congr (h : Exact read encode fits) {encode' : α → Bytes} {fits' : α → Prop}
    (hencode : ∀ x, encode' x = encode x) (hfits : ∀ x, fits' x ↔ fits x) :
    Exact read encode' fits' := by
  intro input x rest
  rw [hencode x, hfits x]
  exact h input x rest

/-- A whole input spells a value exactly when it is the value's byte form. -/
theorem whole_iff (h : Exact read encode fits) {input : Bytes} {x : α} :
    whole read input = .ok x ↔ fits x ∧ input = encode x := by
  have hx := h input x []
  rw [List.append_nil] at hx
  rw [← hx, whole]
  cases hr : read input with
  | error e => simp
  | ok p =>
    obtain ⟨y, rest⟩ := p
    cases rest with
    | nil => simp
    | cons b rest => simp

theorem whole_of_error {input : Bytes} {e : DecodeError} (h : read input = .error e) :
    whole read input = .error e := by
  rw [whole, h]

/-! ### Parts and wholes -/

/-- A packed type is written as what it is packed from. -/
theorem map (h : Exact read encode fits) {pack : α → β} (unpack : β → α) {fits' : β → Prop}
    (hpack : ∀ b, pack (unpack b) = b) (hunpack : ∀ a, fits a → unpack (pack a) = a)
    (hfits : ∀ b, fits' b ↔ fits (unpack b)) :
    Exact (pack <$> read) (fun b => encode (unpack b)) fits' := by
  intro input b rest
  rw [map_eq_ok, hfits b]
  constructor
  · rintro ⟨a, ha, rfl⟩
    obtain ⟨hfit, hinput⟩ := h.eq_encode ha
    simp only [hunpack a hfit]
    exact ⟨hfit, hinput⟩
  · rintro ⟨hfit, rfl⟩
    exact ⟨unpack b, h.read_encode hfit rest, hpack b⟩

/-- Two values in a row. -/
theorem pair {read' : Reader β} {encode' : β → Bytes} {fits' : β → Prop}
    (h : Exact read encode fits) (h' : Exact read' encode' fits') :
    Exact (do let a ← read; let b ← read'; pure (a, b))
      (fun p => encode p.1 ++ encode' p.2) (fun p => fits p.1 ∧ fits' p.2) := by
  rintro input ⟨a, b⟩ rest
  simp only [bind_eq_ok, pure_eq_ok, Prod.mk.injEq]
  constructor
  · rintro ⟨a', mid, ha, b', rest', hb, ⟨rfl, rfl⟩, rfl⟩
    obtain ⟨hfa, rfl⟩ := h.eq_encode ha
    obtain ⟨hfb, rfl⟩ := h'.eq_encode hb
    exact ⟨⟨hfa, hfb⟩, by rw [List.append_assoc]⟩
  · rintro ⟨⟨hfa, hfb⟩, rfl⟩
    rw [List.append_assoc]
    exact ⟨a, _, h.read_encode hfa _, b, rest, h'.read_encode hfb rest, ⟨rfl, rfl⟩, rfl⟩

/-- A tag byte in front says how to read on. -/
theorem tagged {branch : UInt8 → Reader α} (hne : ∀ x, encode x ≠ [])
    (h : ∀ t input x rest,
      branch t input = .ok (x, rest) ↔ fits x ∧ t :: input = encode x ++ rest) :
    Exact (byte >>= branch) encode fits := by
  intro input x rest
  rw [bind_eq_ok]
  cases input with
  | nil => simp [byte, hne x]
  | cons t input =>
    rw [← h t input x rest]
    simp only [byte, Except.ok.injEq, Prod.mk.injEq]
    constructor
    · rintro ⟨t', mid, ⟨rfl, rfl⟩, hbranch⟩
      exact hbranch
    · intro hbranch
      exact ⟨t, input, ⟨rfl, rfl⟩, hbranch⟩

/-- The case of a tagged type that has the tag `t` and is packed from one value. -/
theorem alternative (fits' : β → Prop) (h : Exact read encode fits) {pack : α → β}
    {encode' : β → Bytes} {t : UInt8} (hencode : ∀ a, encode' (pack a) = t :: encode a)
    (hfits : ∀ a, fits' (pack a) ↔ fits a)
    (hcase : ∀ b rest, (encode' b ++ rest).head? = some t → ∃ a, b = pack a)
    (input : Bytes) (b : β) (rest : Bytes) :
    (pack <$> read) input = .ok (b, rest) ↔ fits' b ∧ t :: input = encode' b ++ rest := by
  rw [map_eq_ok]
  constructor
  · rintro ⟨a, ha, rfl⟩
    obtain ⟨hfit, rfl⟩ := h.eq_encode ha
    exact ⟨(hfits a).mpr hfit, by rw [hencode, List.cons_append]⟩
  · rintro ⟨hfit, hinput⟩
    obtain ⟨a, rfl⟩ := hcase b rest (by rw [← hinput, List.head?_cons])
    rw [hencode, List.cons_append, List.cons.injEq] at hinput
    rw [hinput.2]
    exact ⟨a, h.read_encode ((hfits a).mp hfit) rest, rfl⟩

/-- The case of a tagged type that is a tag alone. -/
theorem alternative_pure (fits' : β → Prop) {c : β} {encode' : β → Bytes} {t : UInt8}
    (hencode : encode' c = [t]) (hfits : fits' c)
    (hcase : ∀ b rest, (encode' b ++ rest).head? = some t → b = c)
    (input : Bytes) (b : β) (rest : Bytes) :
    (pure c : Reader β) input = .ok (b, rest) ↔ fits' b ∧ t :: input = encode' b ++ rest := by
  rw [pure_eq_ok]
  constructor
  · rintro ⟨rfl, rfl⟩
    exact ⟨hfits, by rw [hencode, List.singleton_append]⟩
  · rintro ⟨-, hinput⟩
    obtain rfl := hcase b rest (by rw [← hinput, List.head?_cons])
    rw [hencode, List.singleton_append, List.cons.injEq] at hinput
    exact ⟨rfl, hinput.2⟩

/-- A tag that no case has. -/
theorem no_alternative (fits' : β → Prop) {e : DecodeError} {encode' : β → Bytes} {t : UInt8}
    (hcase : ∀ b rest, (encode' b ++ rest).head? ≠ some t)
    (input : Bytes) (b : β) (rest : Bytes) :
    (throw e : Reader β) input = .ok (b, rest) ↔ fits' b ∧ t :: input = encode' b ++ rest := by
  constructor
  · intro h
    exact absurd h throw_ne_ok
  · rintro ⟨-, hinput⟩
    exact absurd (by rw [← hinput, List.head?_cons]) (hcase b rest)

end Exact

/-! ## Numbers and byte strings -/

theorem bytes_eq_ok {n : Nat} {input front rest : Bytes} :
    bytes n input = .ok (front, rest) ↔ front.length = n ∧ input = front ++ rest := by
  simp only [bytes]
  constructor
  · intro h
    by_cases hlength : (input.take n).length = n
    · rw [if_pos hlength] at h
      cases h
      exact ⟨hlength, (List.take_append_drop n input).symm⟩
    · rw [if_neg hlength] at h
      cases h
  · rintro ⟨rfl, rfl⟩
    simp

theorem exact_number (width : Nat) :
    Exact (number width) (LittleEndian.encode width) (fun n => n < 256 ^ width) := by
  intro input n rest
  rw [number, map_eq_ok]
  constructor
  · rintro ⟨front, hfront, rfl⟩
    obtain ⟨rfl, rfl⟩ := bytes_eq_ok.mp hfront
    exact ⟨LittleEndian.decode_lt front, by rw [LittleEndian.encode_decode]⟩
  · rintro ⟨hn, rfl⟩
    exact ⟨_, bytes_eq_ok.mpr ⟨LittleEndian.length_encode width n, rfl⟩,
      LittleEndian.decode_encode hn⟩

theorem exact_byte : Exact byte (fun b => [b]) (fun _ => True) := by
  intro input b rest
  cases input with
  | nil => simp [byte]
  | cons c input => simp [byte]

/-! ## Lists -/

theorem count_eq_ok {input rest : Bytes} {n : Nat} :
    count input = .ok (n, rest) ↔
      n < 2 ^ 64 ∧ n ≤ rest.length ∧ input = Wire.encodeCount n ++ rest := by
  have hcheck : count input = .ok (n, rest) ↔
      number 8 input = .ok (n, rest) ∧ n ≤ rest.length := by
    rw [count]
    cases hr : number 8 input with
    | error e => simp
    | ok p =>
      obtain ⟨m, mid⟩ := p
      simp only [List.length_take, Except.ok.injEq, Prod.mk.injEq]
      by_cases hle : m ≤ mid.length
      · rw [if_pos (Nat.min_eq_left hle)]
        simp only [Except.ok.injEq, Prod.mk.injEq]
        constructor
        · rintro ⟨rfl, rfl⟩
          exact ⟨⟨rfl, rfl⟩, hle⟩
        · exact fun h => h.1
      · rw [if_neg (by omega)]
        simp only [reduceCtorEq, false_iff]
        rintro ⟨⟨rfl, rfl⟩, h⟩
        exact hle h
  rw [hcheck, exact_number 8 input n rest]
  constructor
  · rintro ⟨⟨hn, hinput⟩, hle⟩
    exact ⟨by omega, hle, hinput⟩
  · rintro ⟨hn, hle, hinput⟩
    exact ⟨⟨by omega, hinput⟩, hle⟩

/-- Things read in a row are put behind those read before. -/
theorem times_eq_ok {read : Reader α} {encode : α → Bytes} {fits : α → Prop}
    (h : Exact read encode fits) (n : Nat) (done ys : List α) (input rest : Bytes) :
    times read n done input = .ok (ys, rest) ↔
      ∃ xs, xs.length = n ∧ (∀ x ∈ xs, fits x) ∧ ys = done.reverse ++ xs ∧
        input = xs.flatMap encode ++ rest := by
  induction n generalizing done input with
  | zero =>
    simp only [times, Except.ok.injEq, Prod.mk.injEq]
    constructor
    · rintro ⟨rfl, rfl⟩
      exact ⟨[], rfl, by simp, by simp, rfl⟩
    · rintro ⟨xs, hxs, -, rfl, rfl⟩
      rw [List.length_eq_zero_iff.mp hxs]
      simp
  | succ n ih =>
    rw [times]
    constructor
    · intro hread
      cases hr : read input with
      | error e =>
        rw [hr] at hread
        cases hread
      | ok p =>
        obtain ⟨x, mid⟩ := p
        rw [hr] at hread
        obtain ⟨hx, rfl⟩ := h.eq_encode hr
        obtain ⟨xs, hxs, hfits, rfl, rfl⟩ := (ih _ _).mp hread
        refine ⟨x :: xs, by simp [hxs], ?_, by simp, by simp⟩
        intro y hy
        rcases List.mem_cons.mp hy with rfl | hy
        · exact hx
        · exact hfits y hy
    · rintro ⟨xs, hxs, hfits, rfl, rfl⟩
      cases xs with
      | nil => cases hxs
      | cons x xs =>
        rw [List.flatMap_cons, List.append_assoc, h.read_encode (hfits x (by simp))]
        exact (ih _ _).mpr ⟨xs, by simpa using hxs, fun y hy => hfits y (by simp [hy]),
          by simp, rfl⟩

theorem length_le_length_flatMap {encode : α → Bytes} :
    ∀ xs : List α, (∀ x ∈ xs, encode x ≠ []) → xs.length ≤ (xs.flatMap encode).length := by
  intro xs
  induction xs with
  | nil => intro _; simp
  | cons x xs ih =>
    intro h
    have hx := List.length_pos_iff.mpr (h x (by simp))
    have hxs := ih fun y hy => h y (by simp [hy])
    simp only [List.flatMap_cons, List.length_append, List.length_cons]
    omega

/-- A list of things that take bytes is a count and then the things.  The count is never refused:
there are at least as many bytes as things. -/
theorem exact_list {read : Reader α} {encode : α → Bytes} {fits : α → Prop}
    (h : Exact read encode fits) (hpos : ∀ x, encode x ≠ []) :
    Exact (list read) (fun xs => Wire.encodeCount xs.length ++ xs.flatMap encode)
      (fun xs => xs.length < 2 ^ 64 ∧ ∀ x ∈ xs, fits x) := by
  intro input xs rest
  simp only [list, bind_eq_ok, count_eq_ok, times_eq_ok h]
  constructor
  · rintro ⟨n, mid, ⟨hn, -, rfl⟩, ys, rfl, hfits, rfl, rfl⟩
    exact ⟨⟨hn, hfits⟩, by simp⟩
  · rintro ⟨⟨hlength, hfits⟩, rfl⟩
    refine ⟨xs.length, xs.flatMap encode ++ rest, ⟨hlength, ?_, by simp⟩,
      xs, rfl, hfits, by simp, rfl⟩
    have := length_le_length_flatMap xs fun x _ => hpos x
    rw [List.length_append]
    omega

/-- Reading in a row fails with the first thing that fails. -/
theorem times_of_error {read : Reader α} {encode : α → Bytes} {e : DecodeError} :
    ∀ (xs done : List α) (rest : Bytes),
      (∀ x ∈ xs, (∀ rest, read (encode x ++ rest) = .ok (x, rest)) ∨
        ∀ rest, read (encode x ++ rest) = .error e) →
      (∃ x ∈ xs, ∀ rest, read (encode x ++ rest) = .error e) →
      times read xs.length done (xs.flatMap encode ++ rest) = .error e := by
  intro xs
  induction xs with
  | nil =>
    rintro _ _ _ ⟨x, hx, -⟩
    exact absurd hx List.not_mem_nil
  | cons x xs ih =>
    intro done rest hall hsome
    rw [List.flatMap_cons, List.append_assoc, List.length_cons, times]
    rcases hall x List.mem_cons_self with hx | hx
    · rw [hx]
      refine ih _ rest (fun y hy => hall y (List.mem_cons_of_mem x hy)) ?_
      obtain ⟨y, hy, hfail⟩ := hsome
      rcases List.mem_cons.mp hy with rfl | hy
      · have h := hx []
        rw [hfail []] at h
        cases h
      · exact ⟨y, hy, hfail⟩
    · rw [hx]

theorem list_of_error {read : Reader α} {encode : α → Bytes} {e : DecodeError} {xs : List α}
    (hlength : xs.length < 2 ^ 64) (hpos : ∀ x ∈ xs, encode x ≠ [])
    (hall : ∀ x ∈ xs, (∀ rest, read (encode x ++ rest) = .ok (x, rest)) ∨
      ∀ rest, read (encode x ++ rest) = .error e)
    (hsome : ∃ x ∈ xs, ∀ rest, read (encode x ++ rest) = .error e) (rest : Bytes) :
    list read (Wire.encodeCount xs.length ++ xs.flatMap encode ++ rest) = .error e := by
  have hcount : count (Wire.encodeCount xs.length ++ (xs.flatMap encode ++ rest)) =
      .ok (xs.length, xs.flatMap encode ++ rest) := by
    refine count_eq_ok.mpr ⟨hlength, ?_, rfl⟩
    have := length_le_length_flatMap xs hpos
    rw [List.length_append]
    omega
  rw [List.append_assoc, list, bind_of_ok hcount]
  exact times_of_error xs [] rest hall hsome

end Reader

end Crossnet
