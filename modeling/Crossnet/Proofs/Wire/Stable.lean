import Crossnet.Proofs.Wire.Types

/-!
# Reading and what follows

A reader is stable when what follows its value makes no difference: what it reads is
read of every longer input too, and what it refuses for another cause than the end of
the input is refused for that cause however the input goes on.  A count looks ahead,
but only to see whether enough bytes are left, and that question has the end of the
input as its one cause.

* `Stable.bind`, `Stable.list`: stability passes from the parts to the whole.
* `Stable.of_strict_prefix`: **of a byte form that was cut off a stable and exact
  reader misses the end, and nothing else.**
* `WireType.stable_read`: the reader of each wire type is stable.
-/

namespace Crossnet

namespace Reader

variable {α β : Type}

/-- What is read, and what is refused for another cause than the end of the input, stays so when
more bytes follow. -/
structure Stable (read : Reader α) : Prop where
  ok : ∀ {input rest x}, read input = .ok (x, rest) →
    ∀ more, read (input ++ more) = .ok (x, rest ++ more)
  error : ∀ {input e}, read input = .error e → e ≠ .unexpectedEnd →
    ∀ more, read (input ++ more) = .error e

theorem bind_eq_error {read : Reader α} {f : α → Reader β} {input : Bytes} {e : DecodeError} :
    (read >>= f) input = .error e ↔
      read input = .error e ∨ ∃ x mid, read input = .ok (x, mid) ∧ f x mid = .error e := by
  cases h : read input with
  | error d => simp [bind_of_error h]
  | ok p =>
    obtain ⟨x, mid⟩ := p
    simp [bind_of_ok h]

/-! ## The end of the input -/

theorem byte_eq_error {input : Bytes} {e : DecodeError} (h : byte input = .error e) :
    e = .unexpectedEnd := by
  cases input with
  | nil =>
    cases h
    rfl
  | cons b input => cases h

theorem bytes_eq_error {n : Nat} {input : Bytes} {e : DecodeError}
    (h : bytes n input = .error e) : e = .unexpectedEnd := by
  simp only [bytes] at h
  split at h
  · cases h
  · cases h
    rfl

theorem number_eq_error {width : Nat} {input : Bytes} {e : DecodeError}
    (h : number width input = .error e) : e = .unexpectedEnd := by
  rw [number, map_eq_pure_bind, bind_eq_error] at h
  rcases h with h | ⟨front, rest, -, h⟩
  · exact bytes_eq_error h
  · cases h

theorem count_eq_error {input : Bytes} {e : DecodeError} (h : count input = .error e) :
    e = .unexpectedEnd := by
  rw [count] at h
  split at h
  · next hnumber =>
    cases h
    exact number_eq_error hnumber
  · split at h
    · cases h
    · cases h
      rfl

/-! ## Parts and wholes -/

namespace Stable

variable {read : Reader α} {f : α → Reader β}

/-- A reader that refuses for the end of the input only. -/
theorem of_end (hok : ∀ {input rest x}, read input = .ok (x, rest) →
      ∀ more, read (input ++ more) = .ok (x, rest ++ more))
    (hend : ∀ {input e}, read input = .error e → e = .unexpectedEnd) : read.Stable where
  ok := hok
  error h hne := absurd (hend h) hne

theorem pure (x : α) : (Pure.pure x : Reader α).Stable where
  ok h _ := by
    obtain ⟨rfl, rfl⟩ := pure_eq_ok.mp h
    rfl
  error h := by cases h

theorem throw (e : DecodeError) : (MonadExcept.throw e : Reader α).Stable where
  ok h := absurd h throw_ne_ok
  error h _ _ := h

theorem bind (h : read.Stable) (hf : ∀ x, (f x).Stable) : (read >>= f).Stable where
  ok hread more := by
    obtain ⟨x, mid, hx, hy⟩ := bind_eq_ok.mp hread
    exact bind_eq_ok.mpr ⟨x, mid ++ more, h.ok hx more, (hf x).ok hy more⟩
  error hread hne more := by
    rcases bind_eq_error.mp hread with hx | ⟨x, mid, hx, hy⟩
    · exact bind_of_error (h.error hx hne more)
    · exact bind_eq_error.mpr (.inr ⟨x, mid ++ more, h.ok hx more, (hf x).error hy hne more⟩)

theorem map (h : read.Stable) (g : α → β) : (g <$> read).Stable := by
  rw [map_eq_pure_bind]
  exact h.bind fun x => .pure (g x)

theorem byte : Reader.byte.Stable := by
  refine .of_end (fun h more => ?_) byte_eq_error
  obtain ⟨-, rfl⟩ := exact_byte.eq_encode h
  rfl

theorem bytes (n : Nat) : (Reader.bytes n).Stable := by
  refine .of_end (fun h more => ?_) bytes_eq_error
  obtain ⟨hlength, rfl⟩ := bytes_eq_ok.mp h
  exact bytes_eq_ok.mpr ⟨hlength, List.append_assoc ..⟩

theorem number (width : Nat) : (Reader.number width).Stable :=
  (bytes width).map _

/-- Where enough bytes are left for the items, more do not make them too few. -/
theorem count : Reader.count.Stable := by
  refine .of_end (fun h more => ?_) count_eq_error
  obtain ⟨hn, hle, rfl⟩ := count_eq_ok.mp h
  refine count_eq_ok.mpr ⟨hn, ?_, List.append_assoc ..⟩
  rw [List.length_append]
  omega

theorem times (h : read.Stable) (n : Nat) (done : List α) : (Reader.times read n done).Stable := by
  induction n generalizing done with
  | zero => exact .pure done.reverse
  | succ n ih =>
    have hstep : Reader.times read (n + 1) done =
        read >>= fun x => Reader.times read n (x :: done) := by
      funext input
      rw [Reader.times]
      cases hx : read input with
      | error e => exact (bind_of_error hx).symm
      | ok p =>
        rw [bind_of_ok hx]
    rw [hstep]
    exact h.bind fun x => ih (x :: done)

theorem list (h : read.Stable) : (Reader.list read).Stable :=
  count.bind fun n => h.times n []

/-! ## Byte forms that were cut off -/

/-- **Of a byte form that was cut off the end is missed, and nothing else.** -/
theorem of_strict_prefix {encode : α → Bytes} {fits : α → Prop} (h : read.Stable)
    (hexact : Exact read encode fits) {x : α} (hx : fits x) {front back : Bytes}
    (hsplit : encode x = front ++ back) (hback : back ≠ []) :
    read front = .error .unexpectedEnd := by
  have hwhole : read (front ++ back) = .ok (x, []) := by
    rw [← hsplit, ← List.append_nil (encode x)]
    exact hexact.read_encode hx []
  cases hread : read front with
  | ok p =>
    obtain ⟨y, rest⟩ := p
    -- what was read of the front would leave the back unread
    rw [h.ok hread back] at hwhole
    obtain ⟨-, hnil⟩ := Prod.mk.inj (Except.ok.inj hwhole)
    exact absurd (List.append_eq_nil_iff.mp hnil).2 hback
  | error e =>
    by_cases he : e = .unexpectedEnd
    · rw [he]
    · rw [h.error hread he back] at hwhole
      cases hwhole

end Stable

end Reader

/-! ## Types -/

/-- A type whose reader is stable. -/
class StableWire (α : Type) [Wire α] : Prop where
  stable : (Wire.read : Reader α).Stable

namespace StableWire

open Reader

variable {α β : Type} [Wire α] [StableWire α] [Wire β] [StableWire β]

instance : StableWire UInt8 := ⟨.byte⟩

instance : StableWire UInt16 := ⟨(Stable.number 2).map _⟩

instance : StableWire UInt32 := ⟨(Stable.number 4).map _⟩

instance : StableWire UInt64 := ⟨(Stable.number 8).map _⟩

instance : StableWire UInt128 := ⟨(Stable.number 16).map _⟩

instance : StableWire Bool where
  stable := by
    refine Stable.byte.bind fun b => ?_
    split
    · exact .pure false
    · exact .pure true
    · exact .throw _

instance {n : Nat} : StableWire (FixedBytes n) where
  stable := by
    refine .of_end (fun h more => ?_) fun {input e} h => ?_
    · obtain ⟨-, rfl⟩ := LawfulWire.exact.eq_encode h
      rw [List.append_assoc]
      exact LawfulWire.exact.read_encode trivial _
    · simp only [Wire.read] at h
      split at h
      · cases h
      · cases h
        rfl

instance : StableWire (α × β) :=
  ⟨stable.bind fun a => stable.bind fun b => .pure (a, b)⟩

instance : StableWire (List α) := ⟨stable.list⟩

instance : StableWire Digest := ⟨stable.map _⟩

instance : StableWire Address := ⟨stable.map _⟩

instance : StableWire Version := ⟨stable.map _⟩

instance : StableWire NetworkId := ⟨stable.map _⟩

instance : StableWire AssetId := ⟨stable.map _⟩

instance : StableWire Ratio := ⟨stable.map _⟩

instance : StableWire Selector where
  stable := by
    refine Stable.byte.bind fun tag => ?_
    split
    · exact stable.map _
    · exact stable.map _
    · exact stable.map _
    · exact .throw _

instance : StableWire Portion := ⟨stable.map _⟩

instance : StableWire BoundValue where
  stable := by
    refine Stable.byte.bind fun tag => ?_
    split
    · exact stable.map _
    · exact stable.map _
    · exact .pure _
    · exact .throw _

instance : StableWire Binding := ⟨stable.map _⟩

instance : StableWire Recipient where
  stable := by
    refine Stable.byte.bind fun tag => ?_
    split
    · exact stable.map _
    · exact .pure _
    · exact .pure _
    · exact .throw _

instance : StableWire Origin := ⟨stable.map _⟩

instance : StableWire SpawnRecord := ⟨stable.map _⟩

instance : StableWire OwnerCall where
  stable := by
    refine Stable.byte.bind fun tag => ?_
    split
    · exact stable.map _
    · exact stable.map _
    · exact .throw _

instance : StableWire TokenCall where
  stable := by
    refine Stable.byte.bind fun tag => ?_
    split
    · exact stable.map _
    · exact .throw _

end StableWire

/-- **The reader of each wire type is stable**, lists of empty arrays included. -/
theorem WireType.stable_read (t : WireType) : (Wire.read : Reader t.Value).Stable := by
  induction t with
  | list item ih => exact ih.list
  | _ => exact StableWire.stable

end Crossnet
