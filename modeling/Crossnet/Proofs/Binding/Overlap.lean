import Mathlib.Data.Prod.Lex
import Crossnet.Proofs.Binding.Layout

/-!
# Why layouts are refused

A span is a range of bytes, and `place` orders spans by their two ends.  Bindings
in one place may have different values, so a list has more than one sorted form;
but the places in a sorted list are determined by the places in the list, and the
places alone decide which neighbours overlap and what is said about them.

* `apart_iff_not_meets`: two spans share no byte when one stands behind the other.
* `map_place_sorted`: the places of sorted bindings do not depend on the order of
  the list.
* `checkLayout_congr`: **nor does what is said of bindings that all end inside the
  payload.**
* `checkLayout_verdict`: which layouts are accepted, and which bindings a refusal
  names.
-/

namespace Crossnet

namespace Binding

/-- The byte of the payload at `i` is overwritten. -/
def Covers (b : Binding) (i : Nat) : Prop := b.start ≤ i ∧ i < b.stop

/-- Some byte is overwritten by both. -/
def Meets (a b : Binding) : Prop := ∃ i, a.Covers i ∧ b.Covers i

theorem apart_iff_not_meets {a b : Binding} : a.Apart b ↔ ¬a.Meets b := by
  have ha := a.start_lt_stop
  have hb := b.start_lt_stop
  constructor
  · rintro h ⟨i, hai, hbi⟩
    rw [Covers] at hai hbi
    rw [Apart] at h
    omega
  · intro h
    by_contra hapart
    rw [Apart] at hapart
    -- both spans cover the begin of the one that begins later
    refine h ⟨max a.start b.start, ?_, ?_⟩
    · rw [Covers]
      omega
    · rw [Covers]
      omega

theorem meets_iff_not_apart {a b : Binding} : a.Meets b ↔ ¬a.Apart b := by
  rw [apart_iff_not_meets, not_not]

/-! ## Two positions of a list -/

/-- Two positions of the list hold these bindings, which may be equal. -/
def BothIn (a b : Binding) (bindings : List Binding) : Prop :=
  ∃ i j : Nat, i ≠ j ∧ bindings[i]? = some a ∧ bindings[j]? = some b

/-- A symmetric relation that holds in list order holds of any two positions. -/
theorem pairwise_iff_bothIn {r : Binding → Binding → Prop} (hsymm : ∀ {a b}, r a b → r b a)
    {bindings : List Binding} : bindings.Pairwise r ↔ ∀ a b, BothIn a b bindings → r a b := by
  rw [List.pairwise_iff_getElem]
  constructor
  · rintro h a b ⟨i, j, hne, ha, hb⟩
    obtain ⟨hi, rfl⟩ := List.getElem?_eq_some_iff.mp ha
    obtain ⟨hj, rfl⟩ := List.getElem?_eq_some_iff.mp hb
    rcases Nat.lt_or_gt_of_ne hne with hlt | hgt
    · exact h i j hi hj hlt
    · exact hsymm (h j i hj hi hgt)
  · intro h i j hi hj hlt
    exact h _ _ ⟨i, j, hlt.ne, List.getElem?_eq_getElem hi, List.getElem?_eq_getElem hj⟩

/-- Two bindings in a row of a rearranged list stand at two positions of the list. -/
theorem bothIn_of_perm {a b : Binding} {bindings other : List Binding}
    (hperm : other.Perm bindings) (hsub : [a, b].Sublist other) : BothIn a b bindings := by
  by_contra hnone
  -- If no two positions held them, no two in a row of any rearrangement would be them.
  let r : Binding → Binding → Prop := fun c d => ¬(c = a ∧ d = b) ∧ ¬(c = b ∧ d = a)
  have hsymm : ∀ {c d}, r c d → r d c := fun h =>
    ⟨fun hc => h.2 ⟨hc.2, hc.1⟩, fun hc => h.1 ⟨hc.2, hc.1⟩⟩
  have hall : bindings.Pairwise r := by
    rw [pairwise_iff_bothIn hsymm]
    rintro c d ⟨i, j, hne, hc, hd⟩
    constructor
    · rintro ⟨rfl, rfl⟩
      exact hnone ⟨i, j, hne, hc, hd⟩
    · rintro ⟨rfl, rfl⟩
      exact hnone ⟨j, i, hne.symm, hd, hc⟩
  have hother : other.Pairwise r := (hperm.pairwise_iff hsymm).mpr hall
  exact (List.pairwise_pair.mp (hother.sublist hsub)).1 ⟨rfl, rfl⟩

/-! ## Places -/

/-- Where the span begins and ends.  Spans that begin together are ordered by their ends. -/
def place (b : Binding) : Nat ×ₗ Nat := toLex (b.start, b.stop)

theorem precedes_iff_place_le {a b : Binding} : a.precedes b = true ↔ a.place ≤ b.place := by
  rw [precedes_iff, place, place, Prod.Lex.toLex_le_toLex]

theorem place_eq_iff {a b : Binding} : a.place = b.place ↔ a.start = b.start ∧ a.stop = b.stop := by
  rw [place, place, toLex_inj, Prod.mk.injEq]

theorem position_eq_of_place_eq {a b : Binding} (h : a.place = b.place) :
    a.position = b.position :=
  UInt16.toNat_inj.mp (place_eq_iff.mp h).1

theorem position_le_of_precedes {a b : Binding} (h : a.precedes b = true) :
    a.position ≤ b.position :=
  UInt16.le_iff_toNat_le.mpr (start_le_of_precedes h)

/-- **The places of sorted bindings do not depend on the order of the list.** -/
theorem map_place_sorted {bindings other : List Binding} (h : other.Perm bindings) :
    (sorted other).map place = (sorted bindings).map place := by
  have hordered : ∀ l : List Binding, ((sorted l).map place).Pairwise (· ≤ ·) := fun l =>
    List.pairwise_map.mpr ((pairwise_sorted l).imp precedes_iff_place_le.mp)
  have hperm : (sorted other).Perm (sorted bindings) :=
    (sorted_perm other).trans (h.trans (sorted_perm bindings).symm)
  exact (hperm.map place).eq_of_pairwise' (hordered other) (hordered bindings)

/-! ## The first two that overlap -/

theorem firstOverlap?_cons_cons (a b : Binding) (rest : List Binding) :
    firstOverlap? (a :: b :: rest) =
      if b.start < a.stop then some (a, b) else firstOverlap? (b :: rest) := by
  rw [firstOverlap?]

/-- The places decide where the first two stand that overlap. -/
theorem map_firstOverlap?_congr {bindings other : List Binding}
    (h : other.map place = bindings.map place) :
    (firstOverlap? other).map (Prod.map place place) =
      (firstOverlap? bindings).map (Prod.map place place) := by
  induction bindings generalizing other with
  | nil =>
    obtain rfl := List.map_eq_nil_iff.mp h
    rfl
  | cons a rest ih =>
    obtain ⟨a', rest', rfl, ha, hrest⟩ := List.map_eq_cons_iff.mp h
    cases rest with
    | nil =>
      obtain rfl := List.map_eq_nil_iff.mp hrest
      rfl
    | cons b rest =>
      have hnext := ih hrest
      obtain ⟨b', rest', rfl, hb, -⟩ := List.map_eq_cons_iff.mp hrest
      rw [firstOverlap?_cons_cons, firstOverlap?_cons_cons, (place_eq_iff.mp ha).2,
        (place_eq_iff.mp hb).1]
      by_cases hlt : b.start < a.stop
      · rw [if_pos hlt, if_pos hlt, Option.map_some, Option.map_some, Prod.map, Prod.map, ha, hb]
      · rw [if_neg hlt, if_neg hlt]
        exact hnext

/-- The first two that overlap stand next to each other. -/
theorem of_firstOverlap?_eq_some {a b : Binding} {bindings : List Binding}
    (h : firstOverlap? bindings = some (a, b)) :
    [a, b].Sublist bindings ∧ b.start < a.stop := by
  induction bindings with
  | nil => cases h
  | cons c rest ih =>
    cases rest with
    | nil => cases h
    | cons d rest =>
      rw [firstOverlap?_cons_cons] at h
      by_cases hlt : d.start < c.stop
      · rw [if_pos hlt] at h
        cases h
        exact ⟨((List.nil_sublist rest).cons_cons b).cons_cons a, hlt⟩
      · rw [if_neg hlt] at h
        obtain ⟨hsub, hover⟩ := ih h
        exact ⟨hsub.cons c, hover⟩

end Binding

/-! ## What is said of a layout -/

section Verdict

open Binding

variable {payloadLength : Nat} {bindings other : List Binding}

/-- The first binding in list order that ends outside is named, whatever else overlaps. -/
theorem checkLayout_of_outside {front back : List Binding} {b : Binding}
    (hfront : ∀ c ∈ front, c.stop ≤ payloadLength) (hb : payloadLength < b.stop) :
    checkLayout payloadLength (front ++ b :: back) =
      .error (.invalidBinding b.position b.value.width payloadLength) := by
  have hfind : (front ++ b :: back).find? (fun c => payloadLength < c.stop) = some b := by
    rw [List.find?_eq_some_iff_append]
    refine ⟨decide_eq_true hb, front, back, rfl, fun c hc => ?_⟩
    simpa using hfront c hc
  rw [checkLayout, hfind]

/-- When every span ends inside, only overlaps are left to refuse. -/
theorem checkLayout_of_inside (hinside : ∀ b ∈ bindings, b.stop ≤ payloadLength) :
    checkLayout payloadLength bindings =
      (firstOverlap? (sorted bindings)).elim (.ok ()) fun p =>
        .error (.overlappingBinding p.1.position p.2.position) := by
  have hfind : bindings.find? (fun b => payloadLength < b.stop) = none := by
    rw [List.find?_eq_none]
    intro b hb
    simpa using hinside b hb
  rw [checkLayout, hfind]
  cases firstOverlap? (sorted bindings) with
  | none => rfl
  | some p => rfl

/-- **What is said of bindings that all end inside does not depend on their order.** -/
theorem checkLayout_congr (hinside : ∀ b ∈ bindings, b.stop ≤ payloadLength)
    (hperm : other.Perm bindings) :
    checkLayout payloadLength other = checkLayout payloadLength bindings := by
  have hsame := map_firstOverlap?_congr (map_place_sorted hperm)
  rw [checkLayout_of_inside hinside,
    checkLayout_of_inside fun b hb => hinside b (hperm.mem_iff.mp hb)]
  cases hthis : firstOverlap? (sorted bindings) with
  | none =>
    rw [hthis, Option.map_none, Option.map_eq_none_iff] at hsame
    rw [hsame]
  | some p =>
    obtain ⟨a, b⟩ := p
    rw [hthis, Option.map_some, Option.map_eq_some_iff] at hsame
    obtain ⟨⟨a', b'⟩, hother, hplaces⟩ := hsame
    obtain ⟨ha, hb⟩ := Prod.mk.inj hplaces
    rw [hother, Option.elim_some, Option.elim_some, position_eq_of_place_eq ha,
      position_eq_of_place_eq hb]

/-- Where two spans meet and all end inside, two bindings are named whose spans do meet. -/
theorem checkLayout_of_overlap (hinside : ∀ b ∈ bindings, b.stop ≤ payloadLength)
    (hoverlap : ¬bindings.Pairwise Apart) :
    ∃ a b, BothIn a b bindings ∧ a.position ≤ b.position ∧ ¬a.Apart b ∧
      checkLayout payloadLength bindings =
        .error (.overlappingBinding a.position b.position) := by
  cases hfirst : firstOverlap? (sorted bindings) with
  | none =>
    have hapart := (firstOverlap?_eq_none_iff _ (pairwise_sorted bindings)).mp hfirst
    exact absurd (((sorted_perm bindings).pairwise_iff Apart.symm).mp hapart) hoverlap
  | some p =>
    obtain ⟨a, b⟩ := p
    obtain ⟨hsub, hlt⟩ := of_firstOverlap?_eq_some hfirst
    have hpair := (pairwise_sorted bindings).sublist hsub
    have hprecedes : a.precedes b = true :=
      (List.pairwise_cons.mp hpair).1 b (List.mem_singleton.mpr rfl)
    have hmeet : ¬a.Apart b := by
      have hstart := start_le_of_precedes hprecedes
      have hstop := b.start_lt_stop
      rw [Apart]
      omega
    refine ⟨a, b, bothIn_of_perm (sorted_perm bindings) hsub, position_le_of_precedes hprecedes,
      hmeet, ?_⟩
    rw [checkLayout_of_inside hinside, hfirst, Option.elim_some]

end Verdict

/-- **The layout check is exact, and sees no order but in what ends outside.**  Bindings are
accepted exactly when every span ends inside the payload and the spans at any two positions of the
list share no byte.  If some span ends outside, the first one in list order is named, whatever else
overlaps.  If all end inside and some meet, two bindings of the list are named whose spans do meet,
the one that begins earlier first.  And as long as all end inside, every order of the list has the
same answer. -/
theorem checkLayout_verdict (payloadLength : Nat) (bindings : List Binding) :
    (checkLayout payloadLength bindings = .ok () ↔
      (∀ b ∈ bindings, b.stop ≤ payloadLength) ∧
        ∀ a b, Binding.BothIn a b bindings → ¬a.Meets b) ∧
      ((∃ b ∈ bindings, payloadLength < b.stop) →
        ∃ front b back, bindings = front ++ b :: back ∧
          (∀ c ∈ front, c.stop ≤ payloadLength) ∧ payloadLength < b.stop ∧
          checkLayout payloadLength bindings =
            .error (.invalidBinding b.position b.value.width payloadLength)) ∧
      ((∀ b ∈ bindings, b.stop ≤ payloadLength) →
        (∃ a b, Binding.BothIn a b bindings ∧ a.Meets b) →
        ∃ a b, Binding.BothIn a b bindings ∧ a.position ≤ b.position ∧ a.Meets b ∧
          checkLayout payloadLength bindings =
            .error (.overlappingBinding a.position b.position)) ∧
      ((∀ b ∈ bindings, b.stop ≤ payloadLength) → ∀ other, other.Perm bindings →
        checkLayout payloadLength other = checkLayout payloadLength bindings) := by
  have hpairs : bindings.Pairwise Binding.Apart ↔
      ∀ a b, Binding.BothIn a b bindings → a.Apart b :=
    Binding.pairwise_iff_bothIn Binding.Apart.symm
  simp only [Binding.meets_iff_not_apart, not_not]
  refine ⟨?_, ?_, ?_, fun hinside other => checkLayout_congr hinside⟩
  · rw [checkLayout_eq_ok_iff, hpairs]
  · rintro ⟨c, hc, hlt⟩
    have hsome : (bindings.find? fun b => payloadLength < b.stop).isSome = true :=
      List.find?_isSome.mpr ⟨c, hc, decide_eq_true hlt⟩
    obtain ⟨b, hfind⟩ := Option.isSome_iff_exists.mp hsome
    obtain ⟨hb, front, back, rfl, hfront⟩ := List.find?_eq_some_iff_append.mp hfind
    have hinside : ∀ c ∈ front, c.stop ≤ payloadLength := fun c hc => by
      simpa using hfront c hc
    exact ⟨front, b, back, rfl, hinside, of_decide_eq_true hb,
      checkLayout_of_outside hinside (of_decide_eq_true hb)⟩
  · rintro hinside ⟨a, b, hboth, hmeet⟩
    exact checkLayout_of_overlap hinside fun hapart => hmeet (hpairs.mp hapart a b hboth)

/-- Three spans that meet.  The two that begin together differ in their ends. -/
def tangled : List Binding := [⟨30, .assetId ⟨1⟩⟩, ⟨12, .self⟩, ⟨12, .assetId ⟨1⟩⟩]

/-- The two that begin together are named in either order; but where the payload is too short for
the last span, that one is. -/
theorem checkLayout_verdict_tangled :
    checkLayout 64 tangled.reverse = .error (.overlappingBinding 12 12) ∧
      checkLayout 45 tangled = .error (.invalidBinding 30 16 45) := by
  obtain ⟨-, -, -, hperm⟩ := checkLayout_verdict 64 tangled
  obtain ⟨-, houtside, -⟩ := checkLayout_verdict 45 tangled
  refine ⟨(hperm (by decide) _ (List.reverse_perm _)).trans rfl, ?_⟩
  obtain ⟨front, b, back, hsplit, -, hlt, h⟩ := houtside (by decide)
  have hb : b = ⟨30, .assetId ⟨1⟩⟩ := by
    have hmem : b ∈ tangled := by rw [hsplit]; simp
    simp only [tangled, List.mem_cons, List.not_mem_nil, or_false] at hmem
    rcases hmem with rfl | rfl | rfl
    · rfl
    · exact absurd hlt (by decide)
    · exact absurd hlt (by decide)
  rw [h, hb]
  rfl

end Crossnet
