import Crossnet.Proofs.Program.Acceptance
import Crossnet.Proofs.Wire.Stable

/-!
# Enveloped programs that were cut off or go on

Programs are read stably: the room for nesting is counted from the outside, so how
deep a spawn stands is known when it is met, whatever follows.  An envelope is read
stably too, and a whole input differs from what its reader says only by the bytes that
are left.

* `Program.stable_readWithin`: programs are read stably, with any room.
* `Program.ofWire_append_of_error`: what is wrong with an input stays wrong with it when
  more bytes follow.
* `Program.ofWire_of_strict_prefix`, `Program.ofWire_toWire_append`: enveloped forms
  that were cut off, and those with bytes behind them.
* `Program.reading_stable`: **decoding is stable under extension, and what was cut off
  misses its end.**
-/

namespace Crossnet

open Reader

/-! ## Programs -/

theorem Instruction.stable_readWith {program : Reader Program} (h : program.Stable) :
    (readWith program).Stable := by
  refine Stable.byte.bind fun tag => ?_
  split
  · exact StableWire.stable.map _
  · exact StableWire.stable.map _
  · exact StableWire.stable.bind fun _ => h.bind fun _ => StableWire.stable.bind fun _ => .pure _
  · exact .throw _

theorem Program.stable_readWithin (room : Nat) : (readWithin room).Stable := by
  induction room with
  | zero => exact .throw _
  | succ room ih =>
    rw [readWithin]
    exact StableWire.stable.bind fun _ =>
      (Instruction.stable_readWith ih).list.bind fun _ => .pure _

instance : StableWire Program := ⟨Program.stable_readWithin _⟩

instance : StableWire Instruction :=
  ⟨Instruction.stable_readWith (Program.stable_readWithin _)⟩

/-! ## Envelopes -/

namespace Program

theorem stable_readEnvelope : readEnvelope.Stable := by
  have hback : (do
      let version ← (Wire.read : Reader Version)
      if !version.isReadable then
        throw (DecodeError.unsupportedVersion version)
      (Wire.read : Reader Program)).Stable := by
    refine StableWire.stable.bind fun version => ?_
    split
    · exact (Stable.throw _).bind fun _ => StableWire.stable
    · exact StableWire.stable
  refine (Stable.bytes _).bind fun front => ?_
  split
  · exact (Stable.throw _).bind fun _ => hback
  · exact hback

/-- What is wrong with an input stays wrong with it when more bytes follow, unless it is only too
short or too long. -/
theorem ofWire_append_of_error {bytes : Bytes} {e : DecodeError} (h : ofWire bytes = .error e)
    (hshort : e ≠ .unexpectedEnd) (hlong : ∀ k, e ≠ .trailingBytes k) (more : Bytes) :
    ofWire (bytes ++ more) = .error e := by
  refine Exact.whole_of_error (stable_readEnvelope.error ?_ hshort more)
  rw [ofWire, whole] at h
  cases hread : readEnvelope bytes with
  | error cause =>
    rw [hread] at h
    cases h
    rfl
  | ok p =>
    obtain ⟨q, rest⟩ := p
    rw [hread] at h
    cases rest with
    | nil => cases h
    | cons b rest =>
      cases h
      exact absurd rfl (hlong _)

/-- An enveloped form that was cut off misses its end. -/
theorem ofWire_of_strict_prefix {p : Program} (hfits : p.Fits) (hdepth : p.depth ≤ 16)
    {front back : Bytes} (hsplit : p.toWire = front ++ back) (hback : back ≠ []) :
    ofWire front = .error .unexpectedEnd :=
  Exact.whole_of_error (stable_readEnvelope.of_strict_prefix exact_readEnvelope
    ⟨hfits, Nat.lt_succ_of_le hdepth⟩ hsplit hback)

/-- Bytes behind an enveloped form are counted. -/
theorem ofWire_toWire_append {p : Program} (hfits : p.Fits) (hdepth : p.depth ≤ 16)
    {more : Bytes} (hmore : more ≠ []) :
    ofWire (p.toWire ++ more) = .error (.trailingBytes more.length) := by
  have hread := exact_readEnvelope.read_encode ⟨hfits, Nat.lt_succ_of_le hdepth⟩ more
  rw [ofWire, whole, hread]
  cases more with
  | nil => exact absurd rfl hmore
  | cons b rest => rfl

/-- **Decoding is stable under extension, and what was cut off misses its end.**  For every wire
type, programs and instructions, and lists of anything that has the property, a value that is read
is read of every longer input, which leaves as much more, and a cause of refusal other than the end
of the input stays the cause.  An enveloped program that is refused for another cause than its
length is refused for that cause whatever follows.  So of the enveloped form of a program that is
nested at most sixteen deep, each strict prefix misses its end, and with bytes behind it these are
counted. -/
theorem reading_stable :
    (∀ t : WireType, (Wire.read : Reader t.Value).Stable) ∧
      (Wire.read : Reader Program).Stable ∧ (Wire.read : Reader Instruction).Stable ∧
      (∀ {α : Type} [Wire α], (Wire.read : Reader α).Stable →
        (Wire.read : Reader (List α)).Stable) ∧
      (∀ bytes e, ofWire bytes = .error e → e ≠ .unexpectedEnd → (∀ k, e ≠ .trailingBytes k) →
        ∀ more, ofWire (bytes ++ more) = .error e) ∧
      ∀ p : Program, p.Fits → p.depth ≤ 16 →
        (∀ front back, p.toWire = front ++ back → back ≠ [] →
          ofWire front = .error .unexpectedEnd) ∧
        ∀ more, more ≠ [] → ofWire (p.toWire ++ more) = .error (.trailingBytes more.length) :=
  ⟨WireType.stable_read, StableWire.stable, StableWire.stable, fun h => h.list,
    fun _ _ h hshort hlong => ofWire_append_of_error h hshort hlong,
    fun _ hfits hdepth => ⟨fun _ _ => ofWire_of_strict_prefix hfits hdepth,
      fun _ => ofWire_toWire_append hfits hdepth⟩⟩

/-- Of a program in sixteen spawns the last byte is missed, and three more are counted. -/
theorem reading_stable_chain :
    ofWire (chain 16).toWire.dropLast = .error .unexpectedEnd ∧
      ofWire ((chain 16).toWire ++ [0, 0, 0]) = .error (.trailingBytes 3) := by
  obtain ⟨-, -, -, -, -, hwire⟩ := reading_stable
  obtain ⟨hshort, hlong⟩ := hwire (chain 16) (chain_fits 16) (depth_chain 16).le
  have hne : (chain 16).toWire ≠ [] := List.cons_ne_nil _ _
  refine ⟨hshort _ [(chain 16).toWire.getLast hne] ?_ (List.cons_ne_nil _ _),
    hlong [0, 0, 0] (List.cons_ne_nil _ _)⟩
  exact (List.dropLast_append_getLast hne).symm

end Program

end Crossnet
