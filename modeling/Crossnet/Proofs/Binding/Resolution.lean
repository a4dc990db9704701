import Crossnet.Interpreter
import Crossnet.Proofs.Amount
import Crossnet.Proofs.Binding.Splice
import Crossnet.Proofs.Ledger.Holding

/-!
# What late binding makes of a payload

The values of a list of bindings are worked out in list order and then written one
after the other, but neither order shows in a payload that was filled in: where no
two spans meet, each span holds the bytes of its value and every other byte is the
one that was there.  That says all of the payload (`Patched.unique`), and it does
not say in which order.  The order shows in a failure, which is that of the first
binding whose value cannot be worked out.

* `BoundValue.comesTo_iff`: what a value comes to, in unbounded numbers.
* `mapM_eq_error_iff`: a list fails as its first failing member.
* `Patched.of_splice`, `Patched.unique`: **the filled-in payload, byte by byte.**
* `resolvePayload_eq_iff`: the three ends of filling in a payload.
* `Script.finds_resolvePayload`: a script fills in what it finds in storage.
* `resolvePayload_patches`: **late binding writes the bound spans and nothing else**,
  in whatever order the bindings are listed.
-/

namespace Crossnet

/-! ## Values -/

/-- What a bound value comes to: its canonical bytes, or why it has none.  A share is worked out in
unbounded numbers and rounded down. -/
inductive BoundValue.ComesTo (live : LiveValues (Except ExecutionError)) :
    BoundValue → Except ExecutionError Bytes → Prop
  | assetId (asset : AssetId) :
    ComesTo live (.assetId asset) (.ok (LittleEndian.encode 16 asset.number.toNat))
  | self : ComesTo live .self (.ok live.self.toList)
  | amount {asset : AssetId} {share : Ratio} {held : UInt128} (hheld : live.held asset = .ok held)
    (hzero : share.denominator ≠ 0) (hfits : share.exact held ≤ UInt128.max.toNat) :
    ComesTo live (.assetAmount asset share) (.ok (LittleEndian.encode 16 (share.exact held)))
  | unheld {asset : AssetId} {share : Ratio} {e : ExecutionError}
    (hheld : live.held asset = .error e) : ComesTo live (.assetAmount asset share) (.error e)
  | zeroDenominator {asset : AssetId} {share : Ratio} {held : UInt128}
    (hheld : live.held asset = .ok held) (hzero : share.denominator = 0) :
    ComesTo live (.assetAmount asset share) (.error (.program .zeroDenominator))
  | overflow {asset : AssetId} {share : Ratio} {held : UInt128} (hheld : live.held asset = .ok held)
    (hzero : share.denominator ≠ 0) (hgt : UInt128.max.toNat < share.exact held) :
    ComesTo live (.assetAmount asset share) (.error (.amountOverflow asset))

namespace BoundValue

variable {live : LiveValues (Except ExecutionError)} {value : BoundValue}

theorem resolve_amount {asset : AssetId} {share : Ratio} {held : UInt128}
    (hheld : live.held asset = .ok held) :
    (assetAmount asset share).resolve live =
      match share.of held with
      | .ok amount => .ok amount.toBytes
      | .error e => .error (ExecutionError.ofAmount asset e) := by
  simp only [resolve, hheld]
  rfl

theorem comesTo_resolve (live : LiveValues (Except ExecutionError)) (value : BoundValue) :
    value.ComesTo live (value.resolve live) := by
  cases value with
  | assetId asset => exact .assetId asset
  | self => exact .self
  | assetAmount asset share =>
    cases hheld : live.held asset with
    | error e =>
      have hresolve : (assetAmount asset share).resolve live = .error e := by
        simp only [resolve, hheld]
        rfl
      rw [hresolve]
      exact .unheld hheld
    | ok held =>
      rw [resolve_amount hheld]
      by_cases hzero : share.denominator = 0
      · rw [Ratio.of, if_pos hzero]
        exact .zeroDenominator hheld hzero
      · rw [Ratio.of_eq hzero]
        rcases Nat.lt_or_ge UInt128.max.toNat (share.exact held) with hgt | hfits
        · rw [UInt128.checked_of_gt hgt]
          exact .overflow hheld hzero hgt
        · obtain ⟨amount, hamount⟩ := UInt128.exists_of_le_max hfits
          rw [← hamount, UInt128.checked_toNat]
          show ComesTo live _ (.ok (LittleEndian.encode 16 amount.toNat))
          rw [hamount]
          exact .amount hheld hzero hfits

theorem ComesTo.unique {answer other : Except ExecutionError Bytes} (h : value.ComesTo live answer)
    (h' : value.ComesTo live other) : answer = other := by
  cases h <;> cases h' <;> grind

/-- **What a value comes to is what is worked out.** -/
theorem comesTo_iff {answer : Except ExecutionError Bytes} :
    value.ComesTo live answer ↔ value.resolve live = answer :=
  ⟨fun h => (comesTo_resolve live value).unique h, fun h => h ▸ comesTo_resolve live value⟩

theorem ComesTo.length_eq {bytes : Bytes} (h : value.ComesTo live (.ok bytes)) :
    bytes.length = value.width := by
  cases h with
  | assetId asset => exact LittleEndian.length_encode ..
  | self => exact live.self.length_toList
  | amount _ _ _ => exact LittleEndian.length_encode ..

end BoundValue

/-! ## Lists of values -/

section MapM

variable {ε α β : Type} {f : α → Except ε β}

theorem forall₂_of_mapM_eq_ok {xs : List α} {ys : List β} (h : xs.mapM f = .ok ys) :
    List.Forall₂ (fun x y => f x = .ok y) xs ys := by
  induction xs generalizing ys with
  | nil =>
    cases h
    exact .nil
  | cons x rest ih =>
    rw [List.mapM_cons] at h
    cases hx : f x with
    | error e =>
      rw [hx] at h
      cases h
    | ok y =>
      rw [hx] at h
      cases hrest : rest.mapM f with
      | error e =>
        rw [hrest] at h
        cases h
      | ok zs =>
        rw [hrest] at h
        cases h
        exact .cons hx (ih hrest)

theorem mapM_cons_eq_error {x : α} {rest : List α} {e : ε} :
    (x :: rest).mapM f = .error e ↔
      f x = .error e ∨ (∃ y, f x = .ok y) ∧ rest.mapM f = .error e := by
  rw [List.mapM_cons]
  cases hx : f x with
  | error d => simp [bind, Except.bind]
  | ok y =>
    cases hrest : rest.mapM f with
    | error d => simp [bind, Except.bind]
    | ok zs => simp [bind, Except.bind, pure, Except.pure]

/-- **A list fails as its first failing member.** -/
theorem mapM_eq_error_iff {xs : List α} {e : ε} :
    xs.mapM f = .error e ↔ ∃ front x back, xs = front ++ x :: back ∧
      (∀ a ∈ front, ∃ y, f a = .ok y) ∧ f x = .error e := by
  induction xs with
  | nil => simp [pure, Except.pure]
  | cons x rest ih =>
    rw [mapM_cons_eq_error, ih]
    constructor
    · rintro (hx | ⟨hx, front, y, back, rfl, hfront, hy⟩)
      · exact ⟨[], x, rest, rfl, by simp, hx⟩
      · exact ⟨x :: front, y, back, rfl, List.forall_mem_cons.mpr ⟨hx, hfront⟩, hy⟩
    · rintro ⟨front, y, back, hsplit, hfront, hy⟩
      cases front with
      | nil =>
        cases hsplit
        exact .inl hy
      | cons a front =>
        cases hsplit
        obtain ⟨ha, hfront⟩ := List.forall_mem_cons.mp hfront
        exact .inr ⟨ha, front, y, back, rfl, hfront, hy⟩

end MapM

/-! ## The bytes of a filled-in payload -/

/-- The payload with the bytes of each value over the span of its binding, and every other byte as
it was. -/
structure Patched (live : LiveValues (Except ExecutionError)) (payload : Bytes)
    (bindings : List Binding) (resolved : Bytes) : Prop where
  length_eq : resolved.length = payload.length
  inside : ∀ b ∈ bindings, ∃ bytes, b.value.ComesTo live (.ok bytes) ∧
    (resolved.drop b.start).take b.value.width = bytes
  outside : ∀ i, (∀ b ∈ bindings, i < b.start ∨ b.stop ≤ i) → resolved[i]? = payload[i]?

namespace Patched

variable {live : LiveValues (Except ExecutionError)} {payload resolved : Bytes}
  {bindings : List Binding}

/-- Each byte is said: it lies in a span, or in none. -/
theorem unique {other : Bytes} (h : Patched live payload bindings resolved)
    (h' : Patched live payload bindings other) : resolved = other := by
  refine List.ext_getElem? fun i => ?_
  by_cases hspan : ∃ b ∈ bindings, b.start ≤ i ∧ i < b.stop
  · obtain ⟨b, hb, hstart, hstop⟩ := hspan
    obtain ⟨bytes, hvalue, hbytes⟩ := h.inside b hb
    obtain ⟨bytes', hvalue', hbytes'⟩ := h'.inside b hb
    have hsame : (resolved.drop b.start).take b.value.width =
        (other.drop b.start).take b.value.width := by
      have heq := hvalue.unique hvalue'
      rw [hbytes, hbytes']
      exact Except.ok.inj heq
    have hbyte := congrArg (·[i - b.start]?) hsame
    have hlt : i - b.start < b.value.width := by
      rw [Binding.stop] at hstop
      omega
    simpa only [List.getElem?_take_of_lt hlt, List.getElem?_drop, Nat.add_sub_cancel' hstart]
      using hbyte
  · have hout : ∀ b ∈ bindings, i < b.start ∨ b.stop ≤ i := fun b hb => by
      by_contra hin
      exact hspan ⟨b, hb, by omega, by omega⟩
    rw [h.outside i hout, h'.outside i hout]

/-- The order of the bindings is not said. -/
theorem perm {other : List Binding} (h : Patched live payload bindings resolved)
    (hperm : other.Perm bindings) : Patched live payload other resolved where
  length_eq := h.length_eq
  inside b hb := h.inside b (hperm.mem_iff.mp hb)
  outside i hi := h.outside i fun b hb => hi b (hperm.mem_iff.mpr hb)

/-- **Each span holds what its value comes to, and nothing else changes.** -/
theorem of_splice (hlayout : checkLayout payload.length bindings = .ok ()) {values : List Bytes}
    (hvalues : List.Forall₂ (fun b v => b.value.ComesTo live (.ok v)) bindings values) :
    Patched live payload bindings (splice payload (bindings.zip values)) := by
  obtain ⟨hstop, hapart⟩ := checkLayout_eq_ok_iff.mp hlayout
  have hmap : (bindings.zip values).map Prod.fst = bindings :=
    List.map_fst_zip hvalues.length_eq.le
  have hmem : ∀ v ∈ bindings.zip values, v.1 ∈ bindings := fun v hv =>
    (List.of_mem_zip hv).1
  have hfills : ∀ v ∈ bindings.zip values, Binding.Fills payload.length v := fun v hv =>
    ⟨(List.forall₂_zip hvalues hv).length_eq, hstop v.1 (hmem v hv)⟩
  refine ⟨length_splice hfills, fun b hb => ?_, fun i hi => ?_⟩
  · rw [← hmap] at hb
    obtain ⟨v, hv, rfl⟩ := List.mem_map.mp hb
    exact ⟨v.2, List.forall₂_zip hvalues hv,
      take_drop_splice hfills (pairwise_apart_zip hvalues.length_eq.le hapart) hv⟩
  · exact getElem?_splice_outside hfills fun v hv => hi v.1 (hmem v hv)

end Patched

/-! ## The ends of filling in a payload -/

/-- How filling in a payload ends: the layout is refused, or the first binding in list order that
has no value says why, or the payload is filled in. -/
inductive Resolution (live : LiveValues (Except ExecutionError)) (payload : Bytes)
    (bindings : List Binding) : Except ExecutionError Bytes → Prop
  | refused {cause : ProgramError} (hlayout : checkLayout payload.length bindings = .error cause) :
    Resolution live payload bindings (.error (.program cause))
  | unresolved {front back : List Binding} {b : Binding} {e : ExecutionError}
    (hlayout : checkLayout payload.length bindings = .ok ())
    (hsplit : bindings = front ++ b :: back)
    (hfront : ∀ a ∈ front, ∃ bytes, a.value.ComesTo live (.ok bytes))
    (hb : b.value.ComesTo live (.error e)) : Resolution live payload bindings (.error e)
  | filled {resolved : Bytes} (hlayout : checkLayout payload.length bindings = .ok ())
    (hpatched : Patched live payload bindings resolved) :
    Resolution live payload bindings (.ok resolved)

section Ends

variable {live : LiveValues (Except ExecutionError)} {payload : Bytes} {bindings : List Binding}

/-- A layout that is refused is refused before anything is asked for. -/
theorem resolvePayload_of_layout {m : Type → Type} [Monad m] [MonadExcept ExecutionError m]
    {cause : ProgramError} (h : checkLayout payload.length bindings = .error cause)
    (live : LiveValues m) : resolvePayload live payload bindings = throw (.program cause) := by
  rw [resolvePayload, h]

theorem resolvePayload_of_values_error (hlayout : checkLayout payload.length bindings = .ok ())
    {e : ExecutionError} (h : (bindings.mapM fun b => b.value.resolve live) = .error e) :
    resolvePayload live payload bindings = .error e := by
  simp only [resolvePayload, hlayout, h]
  rfl

theorem resolvePayload_of_values (hlayout : checkLayout payload.length bindings = .ok ())
    {values : List Bytes} (h : (bindings.mapM fun b => b.value.resolve live) = .ok values) :
    resolvePayload live payload bindings = .ok (splice payload (bindings.zip values)) := by
  simp only [resolvePayload, hlayout, h]
  rfl

theorem values_eq_error_iff {e : ExecutionError} :
    (bindings.mapM fun b => b.value.resolve live) = .error e ↔
      ∃ front b back, bindings = front ++ b :: back ∧
        (∀ a ∈ front, ∃ bytes, a.value.ComesTo live (.ok bytes)) ∧
        b.value.ComesTo live (.error e) := by
  simp only [mapM_eq_error_iff, BoundValue.comesTo_iff]

theorem resolution_resolvePayload :
    Resolution live payload bindings (resolvePayload live payload bindings) := by
  cases hlayout : checkLayout payload.length bindings with
  | error cause =>
    rw [resolvePayload_of_layout hlayout]
    exact .refused hlayout
  | ok done =>
    cases hvalues : bindings.mapM fun b => b.value.resolve live with
    | error e =>
      rw [resolvePayload_of_values_error hlayout hvalues]
      obtain ⟨front, b, back, hsplit, hfront, hb⟩ := values_eq_error_iff.mp hvalues
      exact .unresolved hlayout hsplit hfront hb
    | ok values =>
      rw [resolvePayload_of_values hlayout hvalues]
      refine .filled hlayout (Patched.of_splice hlayout ?_)
      simpa only [BoundValue.comesTo_iff] using forall₂_of_mapM_eq_ok hvalues

/-- **The three ends of filling in a payload.** -/
theorem resolvePayload_eq_iff {answer : Except ExecutionError Bytes} :
    resolvePayload live payload bindings = answer ↔ Resolution live payload bindings answer := by
  constructor
  · rintro rfl
    exact resolution_resolvePayload
  · intro h
    cases h with
    | refused hlayout => exact resolvePayload_of_layout hlayout live
    | unresolved hlayout hsplit hfront hb =>
      exact resolvePayload_of_values_error hlayout
        (values_eq_error_iff.mpr ⟨_, _, _, hsplit, hfront, hb⟩)
    | @filled resolved hlayout hpatched =>
      cases hvalues : bindings.mapM fun b => b.value.resolve live with
      | error e =>
        -- The binding that fails has a value in the filled-in payload.
        obtain ⟨front, b, back, rfl, -, hb⟩ := values_eq_error_iff.mp hvalues
        obtain ⟨bytes, hbytes, -⟩ := hpatched.inside b (by simp)
        cases hb.unique hbytes
      | ok values =>
        rw [resolvePayload_of_values hlayout hvalues]
        refine congrArg _ (Patched.unique (Patched.of_splice hlayout ?_) hpatched)
        simpa only [BoundValue.comesTo_iff] using forall₂_of_mapM_eq_ok hvalues

theorem checkLayout_perm {n : Nat} {other : List Binding} (h : checkLayout n bindings = .ok ())
    (hperm : other.Perm bindings) : checkLayout n other = .ok () := by
  obtain ⟨hstop, hapart⟩ := checkLayout_eq_ok_iff.mp h
  exact checkLayout_eq_ok_iff.mpr ⟨fun b hb => hstop b (hperm.mem_iff.mp hb),
    (hperm.pairwise_iff Binding.Apart.symm).mpr hapart⟩

/-- **A payload that is filled in is filled in alike in every order of the bindings.** -/
theorem resolvePayload_perm {resolved : Bytes} {other : List Binding}
    (h : resolvePayload live payload bindings = .ok resolved) (hperm : other.Perm bindings) :
    resolvePayload live payload other = .ok resolved := by
  cases resolvePayload_eq_iff.mp h with
  | filled hlayout hpatched =>
    exact resolvePayload_eq_iff.mpr (.filled (checkLayout_perm hlayout hperm) (hpatched.perm hperm))

end Ends

/-! ## What a script finds -/

namespace Script

variable {ε α β σ : Type} [Storage σ]

/-- The script answers this on a storage, and leaves the storage as it was. -/
def Finds (script : Script ε α) (s : σ) (found : Except ε α) : Prop :=
  script.run s = match found with
    | .ok a => .ok a s
    | .error e => .error e s

variable {s : σ}

theorem Finds.bind {script : Script ε α} {f : α → Script ε β} {found : Except ε α}
    {g : α → Except ε β} (h : script.Finds s found) (hf : ∀ a, (f a).Finds s (g a)) :
    (script >>= f).Finds s (found >>= g) := by
  cases found with
  | error e =>
    show (script >>= f).run s = .error e s
    rw [run_bind, h]
  | ok a =>
    show (script >>= f).run s = _
    rw [run_bind, h]
    exact hf a

theorem Finds.mapM {f : α → Script ε β} {g : α → Except ε β} (h : ∀ a, (f a).Finds s (g a))
    (xs : List α) : (xs.mapM f).Finds s (xs.mapM g) := by
  induction xs with
  | nil => rfl
  | cons x rest ih =>
    rw [List.mapM_cons, List.mapM_cons]
    exact (h x).bind fun y => ih.bind fun ys => rfl

variable {live : LiveValues (Script ExecutionError)} {found : LiveValues (Except ExecutionError)}

theorem finds_resolve (hself : live.self = found.self)
    (hheld : ∀ asset, (live.held asset).Finds s (found.held asset)) (value : BoundValue) :
    (value.resolve live).Finds s (value.resolve found) := by
  cases value with
  | assetId asset => rfl
  | self =>
    rw [BoundValue.resolve, BoundValue.resolve, hself]
    rfl
  | assetAmount asset share =>
    refine (hheld asset).bind fun held => ?_
    cases share.of held with
    | ok amount => rfl
    | error e => rfl

/-- **A script fills in what it finds in storage.** -/
theorem finds_resolvePayload (hself : live.self = found.self)
    (hheld : ∀ asset, (live.held asset).Finds s (found.held asset)) (payload : Bytes)
    (bindings : List Binding) :
    (resolvePayload live payload bindings).Finds s (resolvePayload found payload bindings) := by
  unfold resolvePayload
  cases checkLayout payload.length bindings with
  | error cause => rfl
  | ok done =>
    exact (Finds.mapM (fun b : Binding => finds_resolve hself hheld b.value) bindings).bind
      fun values => rfl

end Script

namespace Interpreter

variable {σ : Type} [Storage σ]

/-- What the interpreter holds of an asset on a storage. -/
def holding (interp : Interpreter) (env : Environment) (s : σ) (asset : AssetId) :
    Except ExecutionError UInt128 :=
  match env.host.assetHandle asset with
  | none => .error (.unknownAsset asset)
  | some token =>
    match Ledger.amountAt? s (Ledger.key token interp.address) with
    | none => .error (.ledger (.corruptEntry (Ledger.key token interp.address)))
    | some amount => .ok amount

/-- The live values of the interpreter, as they are on a storage. -/
def valuesOn (interp : Interpreter) (env : Environment) (s : σ) :
    LiveValues (Except ExecutionError) :=
  ⟨interp.address, interp.holding env s⟩

theorem finds_held (interp : Interpreter) (env : Environment) (s : σ) (asset : AssetId) :
    ((interp.liveValues env).held asset).Finds s (interp.holding env s asset) := by
  show (token env asset >>= fun token => onLedger (Ledger.balance token interp.address)).run s = _
  rw [Script.run_bind, token, holding]
  cases env.host.assetHandle asset with
  | none => rfl
  | some token =>
    show (onLedger (Ledger.readAt (Ledger.key token interp.address))).run s = _
    rw [onLedger, Script.run_mapError, Ledger.run_readAt]
    dsimp only
    cases Ledger.amountAt? s (Ledger.key token interp.address) with
    | none => rfl
    | some amount => rfl

end Interpreter

/-! ## Late binding -/

/-- **Late binding writes the bound spans and nothing else.**  A layout that is refused is refused
whatever the live values are and in whatever way they are read, so none of them is.  Otherwise the
first binding in list order that has no value says why; and otherwise the payload keeps its length,
each span holds the canonical bytes of its value, and every other byte is the one that was there.
The order of the bindings makes no difference to a payload that is filled in.  And when the
interpreter makes a call, the live values are those of the storage at that moment. -/
theorem resolvePayload_patches (live : LiveValues (Except ExecutionError)) (payload : Bytes)
    (bindings : List Binding) :
    (∀ cause, checkLayout payload.length bindings = .error cause →
      ∀ {m : Type → Type} [Monad m] [MonadExcept ExecutionError m] (unread : LiveValues m),
        resolvePayload unread payload bindings = throw (.program cause)) ∧
      (∀ answer, resolvePayload live payload bindings = answer ↔
        Resolution live payload bindings answer) ∧
      (∀ resolved other, resolvePayload live payload bindings = .ok resolved →
        other.Perm bindings → resolvePayload live payload other = .ok resolved) ∧
      ∀ {σ : Type} [Storage σ] (s : σ) (interp : Interpreter) (env : Environment),
        (resolvePayload (interp.liveValues env) payload bindings).Finds s
          (resolvePayload (interp.valuesOn env s) payload bindings) :=
  ⟨fun _ hlayout _ _ _ unread => resolvePayload_of_layout hlayout unread,
    fun _ => resolvePayload_eq_iff,
    fun _ _ h hperm => resolvePayload_perm h hperm,
    fun s interp env => Script.finds_resolvePayload rfl (interp.finds_held env s) payload bindings⟩

/-! ## Half of what there is -/

/-- An interpreter that holds ten of one asset. -/
def holdsTen : LiveValues (Except ExecutionError) where
  self := ⟨FixedBytes.replicate 20 0x5E⟩
  held asset := if asset = ⟨1⟩ then .ok 10 else .error (.unknownAsset asset)

/-- The interpreter's own address, behind half of what it holds. -/
def halfThenSelf : List Binding := [⟨16, .self⟩, ⟨0, .assetAmount ⟨1⟩ ⟨1, 2⟩⟩]

/-- In either order of the bindings, and the last byte of the payload stays.  With one byte less,
the address does not fit, whatever is held. -/
theorem resolvePayload_patches_half :
    resolvePayload holdsTen (List.replicate 37 0xFF) halfThenSelf.reverse =
        .ok (5 :: List.replicate 15 0 ++ List.replicate 20 0x5E ++ [0xFF]) ∧
      resolvePayload holdsTen (List.replicate 35 0xFF) halfThenSelf =
        .error (.program (.invalidBinding 16 20 35)) := by
  obtain ⟨-, -, hperm, -⟩ := resolvePayload_patches holdsTen (List.replicate 37 0xFF) halfThenSelf
  obtain ⟨hrefused, -⟩ := resolvePayload_patches holdsTen (List.replicate 35 0xFF) halfThenSelf
  exact ⟨hperm _ _ rfl (List.reverse_perm _), hrefused _ rfl holdsTen⟩

end Crossnet
