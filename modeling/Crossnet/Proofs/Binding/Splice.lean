import Crossnet.Binding.Resolution
import Crossnet.Proofs.Binding.Layout
import Crossnet.Proofs.Storage.Transparent

/-!
# What a filled-in payload holds

`splice` writes values one after the other.  Where no two spans meet, a write
leaves the other spans alone, so in the end each span holds its own value and a
byte in no span is the one that was there.

* `getElem?_splice_outside`, `getElem?_splice_inside`: the bytes of a spliced
  payload, one by one.
* `take_drop_splice`: **each span holds its own value.**
* `run_resolve_eq_ok`: a value that was worked out has the width of its span.
* `resolvePayload_self`: **a binding of the interpreter's own address to the
  begin of a payload puts that address there**, whatever else is bound.
-/

namespace Crossnet

theorem Bytes.getElem?_overwrite {bytes : Bytes} {start : Nat} {patch : Bytes}
    (h : start + patch.length ≤ bytes.length) (i : Nat) :
    (Bytes.overwrite bytes start patch)[i]? =
      if start ≤ i ∧ i < start + patch.length then patch[i - start]? else bytes[i]? := by
  have htake : (bytes.take start).length = start := List.length_take_of_le (by omega)
  unfold Bytes.overwrite
  by_cases hspan : start ≤ i ∧ i < start + patch.length
  · rw [if_pos hspan, List.append_assoc, List.getElem?_append_right (by omega), htake,
      List.getElem?_append_left (by omega)]
  · rw [if_neg hspan]
    by_cases hbefore : i < start
    · rw [List.append_assoc, List.getElem?_append_left (by omega), List.getElem?_take,
        if_pos hbefore]
    · rw [List.getElem?_append_right (by rw [List.length_append]; omega), List.length_append,
        htake, List.getElem?_drop]
      congr 1
      omega

/-! ## Splicing -/

/-- The value of a binding fills its span, which ends inside a payload of the given length. -/
def Binding.Fills (payloadLength : Nat) (filled : Binding × Bytes) : Prop :=
  filled.2.length = filled.1.value.width ∧ filled.1.stop ≤ payloadLength

theorem Binding.Fills.span_le {n : Nat} {filled : Binding × Bytes} (h : Binding.Fills n filled) :
    filled.1.start + filled.2.length ≤ n := by
  rw [h.1]
  exact h.2

theorem length_splice {payload : Bytes} {values : List (Binding × Bytes)}
    (h : ∀ v ∈ values, Binding.Fills payload.length v) :
    (splice payload values).length = payload.length := by
  induction values generalizing payload with
  | nil => rfl
  | cons v rest ih =>
    have hlength := Bytes.length_overwrite (h v List.mem_cons_self).span_le
    show (splice (payload.overwrite v.1.start v.2) rest).length = _
    rw [ih, hlength]
    intro w hw
    rw [hlength]
    exact h w (List.mem_cons_of_mem _ hw)

/-- A byte in no span is the one that was there. -/
theorem getElem?_splice_outside {payload : Bytes} {values : List (Binding × Bytes)}
    (h : ∀ v ∈ values, Binding.Fills payload.length v) {i : Nat}
    (hi : ∀ v ∈ values, i < v.1.start ∨ v.1.stop ≤ i) :
    (splice payload values)[i]? = payload[i]? := by
  induction values generalizing payload with
  | nil => rfl
  | cons v rest ih =>
    have hv := h v List.mem_cons_self
    have hlength := Bytes.length_overwrite hv.span_le
    show (splice (payload.overwrite v.1.start v.2) rest)[i]? = _
    rw [ih ?_ fun w hw => hi w (List.mem_cons_of_mem _ hw), Bytes.getElem?_overwrite hv.span_le,
      if_neg]
    · have hi := hi v List.mem_cons_self
      have hwidth := hv.1
      simp only [Binding.stop] at hi
      omega
    · intro w hw
      rw [hlength]
      exact h w (List.mem_cons_of_mem _ hw)

/-- A byte in a span is one of the value of that span. -/
theorem getElem?_splice_inside {payload : Bytes} {values : List (Binding × Bytes)}
    (h : ∀ v ∈ values, Binding.Fills payload.length v)
    (hapart : values.Pairwise fun v w => v.1.Apart w.1) {v : Binding × Bytes} (hv : v ∈ values)
    {i : Nat} (hi : i < v.1.value.width) :
    (splice payload values)[v.1.start + i]? = v.2[i]? := by
  induction values generalizing payload with
  | nil => cases hv
  | cons w rest ih =>
    have hw := h w List.mem_cons_self
    have hlength := Bytes.length_overwrite hw.span_le
    have hrest : ∀ u ∈ rest, Binding.Fills (payload.overwrite w.1.start w.2).length u := by
      intro u hu
      rw [hlength]
      exact h u (List.mem_cons_of_mem _ hu)
    rw [List.pairwise_cons] at hapart
    show (splice (payload.overwrite w.1.start w.2) rest)[v.1.start + i]? = _
    rcases List.mem_cons.mp hv with rfl | hv
    · rw [getElem?_splice_outside hrest, Bytes.getElem?_overwrite hw.span_le, if_pos,
        Nat.add_sub_cancel_left]
      · have hwidth := hw.1
        omega
      · intro u hu
        have huv := hapart.1 u hu
        simp only [Binding.Apart, Binding.stop] at huv
        simp only [Binding.stop]
        omega
    · exact ih hrest hapart.2 hv

/-- **Each span holds its own value.** -/
theorem take_drop_splice {payload : Bytes} {values : List (Binding × Bytes)}
    (h : ∀ v ∈ values, Binding.Fills payload.length v)
    (hapart : values.Pairwise fun v w => v.1.Apart w.1) {v : Binding × Bytes} (hv : v ∈ values) :
    ((splice payload values).drop v.1.start).take v.1.value.width = v.2 := by
  refine List.ext_getElem? fun i => ?_
  by_cases hi : i < v.1.value.width
  · rw [List.getElem?_take_of_lt hi, List.getElem?_drop, getElem?_splice_inside h hapart hv hi]
  · rw [List.getElem?_take_eq_none (Nat.le_of_not_lt hi), List.getElem?_eq_none]
    rw [(h v hv).1]
    exact Nat.le_of_not_lt hi

/-- Bindings whose spans do not meet are such bindings along with their values. -/
theorem pairwise_apart_zip {bindings : List Binding} {values : List Bytes}
    (hlength : bindings.length ≤ values.length) (h : bindings.Pairwise Binding.Apart) :
    (bindings.zip values).Pairwise fun v w => v.1.Apart w.1 := by
  rw [← List.pairwise_map (f := Prod.fst) (R := Binding.Apart), List.map_fst_zip hlength]
  exact h

/-! ## Values in a script -/

namespace BoundValue

variable {σ : Type} [Storage σ]

/-- A value that was worked out has the width of its span; the interpreter's address is itself. -/
theorem run_resolve_eq_ok {live : LiveValues (Script ExecutionError)} {value : BoundValue}
    {s t : σ} {bytes : Bytes} (h : (value.resolve live).run s = .ok bytes t) :
    bytes.length = value.width ∧ (value = .self → bytes = live.self.toList) := by
  cases value with
  | assetId asset =>
    cases h
    exact ⟨LittleEndian.length_encode .., fun h => nomatch h⟩
  | assetAmount asset share =>
    obtain ⟨held, u, -, h⟩ := Script.run_bind_eq_ok.mp h
    cases hshare : share.of held with
    | ok amount =>
      rw [hshare] at h
      cases h
      exact ⟨LittleEndian.length_encode .., fun h => nomatch h⟩
    | error e =>
      rw [hshare] at h
      cases h
  | self =>
    cases h
    exact ⟨live.self.length_toList, fun _ => rfl⟩

end BoundValue

/-! ## Payloads in a script -/

section Resolve

variable {σ : Type} [Storage σ] {live : LiveValues (Script ExecutionError)}

theorem BoundValue.run_resolve_reads {s t : σ}
    (hheld : ∀ asset amount u, (live.held asset).run s = .ok amount u → u = s)
    {value : BoundValue} {bytes : Bytes} (h : (value.resolve live).run s = .ok bytes t) :
    t = s := by
  cases value with
  | assetId asset =>
    cases h
    rfl
  | assetAmount asset share =>
    obtain ⟨held, u, hread, hshare⟩ := Script.run_bind_eq_ok.mp h
    obtain rfl := hheld asset held u hread
    cases hof : share.of held with
    | ok amount =>
      rw [hof] at hshare
      cases hshare
      rfl
    | error e =>
      rw [hof] at hshare
      cases hshare
  | self =>
    cases h
    rfl

/-- The values that a payload was filled in with. -/
theorem run_resolvePayload_eq_ok {s t : σ}
    (hheld : ∀ asset amount u, (live.held asset).run s = .ok amount u → u = s)
    {payload resolved : Bytes} {bindings : List Binding}
    (h : (resolvePayload live payload bindings).run s = .ok resolved t) :
    t = s ∧ checkLayout payload.length bindings = .ok () ∧
      ∃ values, List.Forall₂ (fun b v => (b.value.resolve live).run s = .ok v s) bindings values ∧
        resolved = splice payload (bindings.zip values) := by
  unfold resolvePayload at h
  cases hlayout : checkLayout payload.length bindings with
  | error e =>
    rw [hlayout] at h
    cases h
  | ok done =>
    rw [hlayout] at h
    obtain ⟨values, u, hvalues, hdone⟩ := Script.run_bind_eq_ok.mp h
    obtain ⟨rfl, hall⟩ := Script.run_mapM_of_reads
      (fun b v t h => BoundValue.run_resolve_reads hheld h) hvalues
    cases hdone
    exact ⟨rfl, rfl, values, hall, rfl⟩

theorem fills_of_resolve {s : σ} {bindings : List Binding} {values : List Bytes} {n : Nat}
    (h : List.Forall₂ (fun b v => (b.value.resolve live).run s = .ok v s) bindings values)
    (hstop : ∀ b ∈ bindings, b.stop ≤ n) :
    ∀ v ∈ bindings.zip values, Binding.Fills n v := by
  induction h with
  | nil =>
    intro v hv
    cases hv
  | cons hvalue hrest ih =>
    intro v hv
    rcases List.mem_cons.mp hv with rfl | hv
    · exact ⟨(BoundValue.run_resolve_eq_ok hvalue).1, hstop _ List.mem_cons_self⟩
    · exact ih (fun b hb => hstop b (List.mem_cons_of_mem _ hb)) v hv

theorem exists_value_of_mem {s : σ} {bindings : List Binding} {values : List Bytes}
    (h : List.Forall₂ (fun b v => (b.value.resolve live).run s = .ok v s) bindings values)
    {b : Binding} (hb : b ∈ bindings) :
    ∃ v, (b, v) ∈ bindings.zip values ∧ (b.value.resolve live).run s = .ok v s := by
  induction h with
  | nil => cases hb
  | cons hvalue hrest ih =>
    rcases List.mem_cons.mp hb with rfl | hb
    · exact ⟨_, List.mem_cons_self, hvalue⟩
    · obtain ⟨v, hv, hrun⟩ := ih hb
      exact ⟨v, List.mem_cons_of_mem _ hv, hrun⟩

/-- **The interpreter's own address, bound to the begin of a payload, is what the payload begins
with**, whatever else is bound. -/
theorem resolvePayload_self {s t : σ}
    (hheld : ∀ asset amount u, (live.held asset).run s = .ok amount u → u = s)
    {payload resolved : Bytes} {bindings : List Binding}
    (h : (resolvePayload live payload bindings).run s = .ok resolved t) {b : Binding}
    (hb : b ∈ bindings) (hposition : b.position = 0) (hself : b.value = .self) :
    Address.ofFront? resolved = some live.self := by
  obtain ⟨-, hlayout, values, hvalues, rfl⟩ := run_resolvePayload_eq_ok hheld h
  obtain ⟨hstop, hapart⟩ := checkLayout_eq_ok_iff.mp hlayout
  have hfills := fills_of_resolve hvalues hstop
  obtain ⟨v, hv, hrun⟩ := exists_value_of_mem hvalues hb
  have hvalue : v = live.self.toList := (BoundValue.run_resolve_eq_ok hrun).2 hself
  have hstart : b.start = 0 := by rw [Binding.start, hposition]; rfl
  have hwidth : b.value.width = 20 := by rw [hself]; rfl
  have hspan := take_drop_splice hfills (pairwise_apart_zip hvalues.length_eq.le hapart) hv
  have hfront : (splice payload (bindings.zip values)).take 20 = live.self.toList := by
    rw [hstart, hwidth, List.drop_zero] at hspan
    rw [hspan, hvalue]
  simp only [Address.ofFront?, FixedBytes.ofFront?, hfront, FixedBytes.ofList?_toList,
    Option.map_some]

end Resolve

end Crossnet
