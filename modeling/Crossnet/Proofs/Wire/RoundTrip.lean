import Crossnet.Proofs.Wire.Types

/-!
# Values that read back

A value reads back when reading its byte form answers the value and leaves what
follows, whatever that is.  Lists of values that read back may still fail to: a count
is refused when it is above the number of bytes left, as if each item took a byte.
This is the only way to fail, and few lists meet it.  Beside a value that takes no
bytes no other value of its type reads back, so a list that is refused repeats one
item, and it is refused before fewer bytes than it has items.

* `Reader.count_encodeCount`: a count is refused exactly before too few bytes.
* `ReadsBack.eq_of_encode_eq_nil`: beside a value that takes no bytes no other one
  reads back.
* `readsBack_list_iff`: a list of values that read back reads back exactly when each
  of them takes bytes.
* `read_encode_list`: **what is read of the byte form of a list**, for every type of
  items and all that may follow.
* `WireType.isProper_iff_readsBack`: **the proper types are those whose values read
  back.**
-/

namespace Crossnet

/-! ## Counts and rows -/

namespace Reader

/-- A count is refused exactly when there are fewer bytes behind it than it says. -/
theorem count_encodeCount {n : Nat} (h : n < 2 ^ 64) (rest : Bytes) :
    count (Wire.encodeCount n ++ rest) =
      if n ≤ rest.length then .ok (n, rest) else .error .unexpectedEnd := by
  have hnumber : number 8 (Wire.encodeCount n ++ rest) = .ok (n, rest) :=
    (exact_number 8).read_encode (by omega) rest
  rw [count, hnumber]
  simp only [List.length_take, inf_eq_left]

/-- Things that read back one by one read back in a row. -/
theorem times_of_read_encode {α : Type} {read : Reader α} {encode : α → Bytes} {xs : List α}
    (h : ∀ x ∈ xs, ∀ rest, read (encode x ++ rest) = .ok (x, rest)) (done : List α)
    (rest : Bytes) :
    times read xs.length done (xs.flatMap encode ++ rest) = .ok (done.reverse ++ xs, rest) := by
  induction xs generalizing done with
  | nil => simp [times]
  | cons x xs ih =>
    have htail := ih (fun y hy => h y (List.mem_cons_of_mem x hy)) (x :: done)
    rw [List.reverse_cons, List.append_assoc, List.singleton_append] at htail
    -- the first thing leaves the row of the others, and `htail` reads that
    rw [List.flatMap_cons, List.append_assoc, List.length_cons, times, h x List.mem_cons_self]
    exact htail

end Reader

namespace Wire

open Reader

variable {α : Type} [Wire α]

/-- Reading undoes writing of this value, whatever bytes follow. -/
def ReadsBack (x : α) : Prop :=
  ∀ rest, read (encode x ++ rest) = .ok (x, rest)

theorem readsBack_of_fits [LawfulWire α] {x : α} (h : LawfulWire.Fits x) : ReadsBack x :=
  LawfulWire.exact.read_encode h

/-! ## Values that take no bytes -/

/-- **Beside a value that takes no bytes no other one reads back**: the first would be read wherever
the other is written. -/
theorem ReadsBack.eq_of_encode_eq_nil {x y : α} (hx : ReadsBack x) (hy : ReadsBack y)
    (hnil : encode x = []) : y = x := by
  have hfirst : read (encode y ++ []) = .ok (x, encode y ++ []) := by
    simpa only [hnil, List.nil_append] using hx (encode y ++ [])
  rw [hy []] at hfirst
  exact (Prod.mk.inj (Except.ok.inj hfirst)).1

theorem flatMap_encode_eq_nil {xs : List α} (hback : ∀ x ∈ xs, ReadsBack x) {x : α} (hx : x ∈ xs)
    (hnil : encode x = []) : xs.flatMap encode = [] := by
  rw [List.flatMap_eq_nil_iff]
  intro y hy
  rw [(hback x hx).eq_of_encode_eq_nil (hback y hy) hnil, hnil]

/-! ## Lists -/

/-- The count is the one thing about a list that can be refused. -/
theorem read_encode_list_eq_ite {xs : List α} (hlength : xs.length < 2 ^ 64)
    (hback : ∀ x ∈ xs, ReadsBack x) (rest : Bytes) :
    read (encode xs ++ rest) =
      if xs.length ≤ (xs.flatMap encode).length + rest.length then .ok (xs, rest)
      else .error .unexpectedEnd := by
  have hcount := count_encodeCount hlength (xs.flatMap encode ++ rest)
  rw [List.length_append] at hcount
  show Reader.list read (encodeCount xs.length ++ xs.flatMap encode ++ rest) = _
  rw [List.append_assoc, Reader.list]
  split_ifs at hcount ⊢
  · rw [bind_of_ok hcount, times_of_read_encode hback]
    rfl
  · exact bind_of_error hcount

/-- Items that take bytes are no more than the bytes they take. -/
theorem readsBack_list_of_ne_nil {xs : List α} (hlength : xs.length < 2 ^ 64)
    (hback : ∀ x ∈ xs, ReadsBack x) (hne : ∀ x ∈ xs, encode x ≠ []) : ReadsBack xs := by
  intro rest
  have hle := length_le_length_flatMap xs hne
  rw [read_encode_list_eq_ite hlength hback, if_pos (by omega)]

/-- Where one item takes no bytes none does, and the bytes behind the list are all that its count is
held against. -/
theorem read_encode_list_of_eq_nil {xs : List α} (hlength : xs.length < 2 ^ 64)
    (hback : ∀ x ∈ xs, ReadsBack x) {x : α} (hx : x ∈ xs) (hnil : encode x = []) (rest : Bytes) :
    read (encode xs ++ rest) =
      if xs.length ≤ rest.length then .ok (xs, rest) else .error .unexpectedEnd := by
  rw [read_encode_list_eq_ite hlength hback, flatMap_encode_eq_nil hback hx hnil]
  simp only [List.length_nil, Nat.zero_add]

theorem readsBack_list_iff {xs : List α} (hlength : xs.length < 2 ^ 64)
    (hback : ∀ x ∈ xs, ReadsBack x) : ReadsBack xs ↔ ∀ x ∈ xs, encode x ≠ [] := by
  constructor
  · intro h x hx hnil
    have hend := h []
    have hpos := List.length_pos_of_mem hx
    rw [read_encode_list_of_eq_nil hlength hback hx hnil,
      if_neg (by rw [List.length_nil]; omega)] at hend
    cases hend
  · exact readsBack_list_of_ne_nil hlength hback

/-- Behind the count of a list of one stands the item. -/
theorem readsBack_of_singleton {x : α} (h : ReadsBack [x]) : ReadsBack x := by
  intro rest
  have hlist : (count >>= fun n => times read n []) (encodeCount 1 ++ (encode x ++ rest)) =
      .ok ([x], rest) := by
    rw [← h rest, ← List.append_assoc]
    show _ = Reader.list read (encodeCount 1 ++ [x].flatMap encode ++ rest)
    rw [List.flatMap_singleton]
    rfl
  obtain ⟨n, mid, hcount, htimes⟩ := bind_eq_ok.mp hlist
  rw [count_encodeCount (by decide)] at hcount
  split_ifs at hcount
  cases hcount
  rw [times] at htimes
  split at htimes
  · cases htimes
  · next y rest' hy =>
    cases htimes
    exact hy

/-! ### Arrays -/

theorem readsBack_array {n : Nat} (a : FixedBytes n) : ReadsBack a :=
  readsBack_of_fits trivial

theorem encode_array_eq_nil_iff {n : Nat} {a : FixedBytes n} : encode a = [] ↔ n = 0 := by
  show a.toList = [] ↔ n = 0
  rw [← List.length_eq_zero_iff, a.length_toList]

theorem readsBack_list_array_iff {n : Nat} {arrays : List (FixedBytes n)}
    (hlength : arrays.length < 2 ^ 64) : ReadsBack arrays ↔ n ≠ 0 ∨ arrays = [] := by
  rw [readsBack_list_iff hlength fun a _ => readsBack_array a]
  constructor
  · intro h
    by_cases hn : n = 0
    · right
      refine List.eq_nil_iff_forall_not_mem.mpr fun a ha => ?_
      exact h a ha (encode_array_eq_nil_iff.mpr hn)
    · exact .inl hn
  · rintro (hn | rfl) a ha
    · exact mt encode_array_eq_nil_iff.mp hn
    · cases ha

/-! ### The whole -/

/-- **A list of values that read back reads back exactly when each of them takes bytes.**  Its byte
form gives the list again and leaves what follows, but for one case: the items take no bytes and
there are more of them than bytes that follow, and then the input is said to end too early.  Arrays
of every length are such values, and those that take no bytes are the empty ones. -/
theorem read_encode_list {xs : List α} (hlength : xs.length < 2 ^ 64)
    (hback : ∀ x ∈ xs, ReadsBack x) :
    (ReadsBack xs ↔ ∀ x ∈ xs, encode x ≠ []) ∧
      (∀ rest, read (encode xs ++ rest) =
        if (∃ x ∈ xs, encode x = []) ∧ rest.length < xs.length then .error .unexpectedEnd
        else .ok (xs, rest)) ∧
      ∀ (n : Nat) (a : FixedBytes n), ReadsBack a ∧ (encode a = [] ↔ n = 0) := by
  refine ⟨readsBack_list_iff hlength hback, fun rest => ?_,
    fun n a => ⟨readsBack_array a, encode_array_eq_nil_iff⟩⟩
  by_cases hsome : ∃ x ∈ xs, encode x = []
  · obtain ⟨x, hx, hnil⟩ := hsome
    rw [read_encode_list_of_eq_nil hlength hback hx hnil]
    by_cases hle : xs.length ≤ rest.length
    · rw [if_pos hle, if_neg fun h => by omega]
    · rw [if_neg hle, if_pos ⟨⟨x, hx, hnil⟩, by omega⟩]
  · rw [if_neg fun h => hsome h.1]
    exact readsBack_list_of_ne_nil hlength hback (fun x hx hnil => hsome ⟨x, hx, hnil⟩) rest

/-- An empty array needs no byte, and a list of one is refused unless some byte follows. -/
example :
    let arrays := [FixedBytes.replicate 0 0]
    (read : Reader (List (FixedBytes 0))) (encode arrays) = .error .unexpectedEnd ∧
      read (encode arrays ++ [7]) = .ok (arrays, [7]) :=
  ⟨rfl, rfl⟩

end Wire

namespace WireType

open Wire

/-- Where the lists of a type read back, its values take bytes: a list of one empty array does
not. -/
theorem isWide_of_readsBack {item : WireType}
    (h : ∀ v : (list item).Value, (list item).Fits v → ReadsBack v) : item.isWide = true := by
  cases item with
  | array n =>
    have hlength : [FixedBytes.replicate n 0].length < 2 ^ 64 := Nat.one_lt_two_pow (by decide)
    have hback := h [FixedBytes.replicate n 0] ⟨hlength, fun _ _ => trivial⟩
    rcases (readsBack_list_array_iff hlength).mp hback with hne | hnil
    · exact decide_eq_true hne
    · cases hnil
  | _ => rfl

/-- **The proper types are those whose values read back.** -/
theorem isProper_iff_readsBack (t : WireType) :
    t.isProper = true ↔ ∀ v : t.Value, t.Fits v → ReadsBack v := by
  constructor
  · intro h v hv
    exact (exact_read h).read_encode hv
  · intro h
    induction t with
    | list item ih =>
      rw [isProper, isWide_of_readsBack h, Bool.true_and]
      refine ih fun v hv => readsBack_of_singleton (h [v] ⟨Nat.one_lt_two_pow (by decide), ?_⟩)
      intro w hw
      obtain rfl := List.mem_singleton.mp hw
      exact hv
    | _ => rfl

end WireType

end Crossnet
