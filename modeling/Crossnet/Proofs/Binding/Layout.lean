import Mathlib.Data.List.Sort
import Crossnet.Binding.Layout

/-!
# Which layouts are accepted

`checkLayout` sorts the spans and looks at neighbours only.  That is enough:
spans are not empty, so when each span of a sorted list ends before the next one
begins, no two of them meet.

* `sorted_eq_insertionSort`: the bindings are sorted by the library's insertion
  sort, so they are a permutation of the list, in order.
* `firstOverlap?_eq_none_iff`: on a sorted list no two neighbours overlap exactly
  when no two bindings do.
* `checkLayout_eq_ok_iff`: **a layout is accepted exactly when every span ends
  inside the payload and no two spans share a byte.**
-/

namespace Crossnet

namespace Binding

/-- The spans of two bindings share no byte. -/
def Apart (a b : Binding) : Prop := a.stop ≤ b.start ∨ b.stop ≤ a.start

theorem Apart.symm {a b : Binding} (h : a.Apart b) : b.Apart a := Or.symm h

theorem start_lt_stop (b : Binding) : b.start < b.stop := by
  have hwidth : 0 < b.value.width := by cases b.value <;> simp [BoundValue.width]
  simp only [stop]
  omega

/-! ## Sorted bindings -/

theorem precedes_iff {a b : Binding} :
    a.precedes b = true ↔ a.start < b.start ∨ a.start = b.start ∧ a.stop ≤ b.stop := by
  simp [precedes]

theorem start_le_of_precedes {a b : Binding} (h : a.precedes b = true) : a.start ≤ b.start := by
  rcases precedes_iff.mp h with h | ⟨h, -⟩ <;> omega

instance : Std.Total fun a b : Binding => a.precedes b = true where
  total a b := by
    rw [precedes_iff, precedes_iff]
    omega

instance : IsTrans Binding fun a b => a.precedes b = true where
  trans a b c hab hbc := by
    rw [precedes_iff] at hab hbc ⊢
    omega

theorem insertSorted_eq_orderedInsert (b : Binding) (bindings : List Binding) :
    insertSorted b bindings = bindings.orderedInsert (fun a b => a.precedes b = true) b := by
  induction bindings with
  | nil => rfl
  | cons c rest ih => rw [insertSorted, ih, List.orderedInsert]

theorem sorted_eq_insertionSort (bindings : List Binding) :
    sorted bindings = bindings.insertionSort fun a b => a.precedes b = true := by
  induction bindings with
  | nil => rfl
  | cons b rest ih =>
    show insertSorted b (sorted rest) = _
    rw [insertSorted_eq_orderedInsert, ih, List.insertionSort_cons]

theorem sorted_perm (bindings : List Binding) : (sorted bindings).Perm bindings := by
  rw [sorted_eq_insertionSort]
  exact List.perm_insertionSort _ bindings

theorem pairwise_sorted (bindings : List Binding) :
    (sorted bindings).Pairwise fun a b => a.precedes b = true := by
  rw [sorted_eq_insertionSort]
  exact List.pairwise_insertionSort _ bindings

/-! ## Neighbours -/

theorem firstOverlap?_cons_cons_eq_none {a b : Binding} {rest : List Binding} :
    firstOverlap? (a :: b :: rest) = none ↔
      a.stop ≤ b.start ∧ firstOverlap? (b :: rest) = none := by
  rw [firstOverlap?]
  by_cases h : b.start < a.stop
  · rw [if_pos h]
    simp
    omega
  · rw [if_neg h]
    simp
    omega

/-- Among sorted bindings it is enough to look at neighbours. -/
theorem firstOverlap?_eq_none_iff : ∀ bindings : List Binding,
    (bindings.Pairwise fun a b => a.precedes b = true) →
      (firstOverlap? bindings = none ↔ bindings.Pairwise Apart) := by
  intro bindings
  induction bindings with
  | nil => intro _; simp [firstOverlap?]
  | cons a rest ih =>
    intro h
    obtain ⟨ha, hrest⟩ := List.pairwise_cons.mp h
    cases rest with
    | nil => simp [firstOverlap?]
    | cons b rest =>
      rw [firstOverlap?_cons_cons_eq_none, ih hrest]
      constructor
      · rintro ⟨hab, hapart⟩
        refine List.pairwise_cons.mpr ⟨fun c hc => Or.inl ?_, hapart⟩
        have hbc : b.start ≤ c.start := by
          rcases List.mem_cons.mp hc with rfl | hc
          · exact Nat.le_refl _
          · exact start_le_of_precedes ((List.pairwise_cons.mp hrest).1 c hc)
        omega
      · intro h
        obtain ⟨hapart, hrest⟩ := List.pairwise_cons.mp h
        refine ⟨?_, hrest⟩
        rcases hapart b List.mem_cons_self with hab | hba
        · exact hab
        · have hle := start_le_of_precedes (ha b List.mem_cons_self)
          have hlt := b.start_lt_stop
          omega

end Binding

/-! ## Accepted layouts -/

/-- **A layout is accepted exactly when every span ends inside the payload and no two spans share
a byte.** -/
theorem checkLayout_eq_ok_iff {payloadLength : Nat} {bindings : List Binding} :
    checkLayout payloadLength bindings = .ok () ↔
      (∀ b ∈ bindings, b.stop ≤ payloadLength) ∧ bindings.Pairwise Binding.Apart := by
  have hoverlap : Binding.firstOverlap? (Binding.sorted bindings) = none ↔
      bindings.Pairwise Binding.Apart := by
    rw [Binding.firstOverlap?_eq_none_iff _ (Binding.pairwise_sorted bindings)]
    exact (Binding.sorted_perm bindings).pairwise_iff Binding.Apart.symm
  rw [checkLayout]
  cases hfind : bindings.find? fun b => payloadLength < b.stop with
  | some b =>
    have hmem := List.mem_of_find?_eq_some hfind
    have hlt := List.find?_some hfind
    simp only [decide_eq_true_eq] at hlt
    simp only [reduceCtorEq, false_iff, not_and]
    intro h
    exact absurd (h b hmem) (Nat.not_le.mpr hlt)
  | none =>
    have hinside : ∀ b ∈ bindings, b.stop ≤ payloadLength := by
      intro b hb
      have h := List.find?_eq_none.mp hfind b hb
      simpa using h
    rw [← hoverlap]
    cases hfirst : Binding.firstOverlap? (Binding.sorted bindings) with
    | some p => simp
    | none => simpa using hinside

end Crossnet
