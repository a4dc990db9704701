import Crossnet.Program
import Crossnet.Proofs.Bytes.Hex

/-!
# Texts that show what they are of

The texts of amounts, assets, recipients and bindings are for people to read.
None of them hides anything: different values have different texts, each on one
line.  A number ends where a character stands that is no digit, and each kind of
selector, value and recipient begins with a word of its own.

* `Faithful`: different values have different texts, and no text breaks its line.
* `append_cons_inj`: a text without the separator ends at the separator.
* `Portion.faithful`, `Binding.faithful`, `Recipient.faithful`: the texts in a
  listing are faithful.
-/

namespace Crossnet

/-- A way to write values that hides nothing: different values have different texts, and no text
breaks its line. -/
structure Faithful {α : Type} (text : α → String) : Prop where
  injective : Function.Injective text
  newline_notMem : ∀ a, '\n' ∉ (text a).toList

theorem Faithful.eq {α : Type} {text : α → String} (h : Faithful text) {a b : α}
    (heq : (text a).toList = (text b).toList) : a = b :=
  h.injective (String.toList_inj.mp heq)

/-! ## Separators -/

/-- A text without the separator ends at the separator. -/
theorem append_cons_inj {sep : Char} {u v x y : List Char} (hu : sep ∉ u) (hv : sep ∉ v)
    (h : u ++ sep :: x = v ++ sep :: y) : u = v ∧ x = y := by
  induction u generalizing v with
  | nil =>
    cases v with
    | nil => exact ⟨rfl, (List.cons.inj h).2⟩
    | cons c v =>
      obtain ⟨rfl, -⟩ := List.cons.inj h
      exact absurd List.mem_cons_self hv
  | cons c u ih =>
    cases v with
    | nil =>
      obtain ⟨rfl, -⟩ := List.cons.inj h
      exact absurd List.mem_cons_self hu
    | cons d v =>
      obtain ⟨rfl, htail⟩ := List.cons.inj h
      obtain ⟨rfl, hrest⟩ := ih (fun hmem => hu (List.mem_cons_of_mem _ hmem))
        (fun hmem => hv (List.mem_cons_of_mem _ hmem)) htail
      exact ⟨rfl, hrest⟩

/-! ## Numbers and byte strings -/

theorem toList_number (n : Nat) : (toString n).toList = Nat.toDigits 10 n := by
  rw [Nat.toString_eq_ofList_toDigits, String.toList_ofList]

theorem notMem_number {c : Char} (hc : c.isDigit = false) (n : Nat) : c ∉ (toString n).toList := by
  rw [toList_number]
  intro hmem
  have hdigit := Nat.isDigit_of_mem_toDigits (by decide) (by decide) hmem
  rw [hc] at hdigit
  cases hdigit

theorem faithful_number : Faithful (toString : Nat → String) where
  injective := by
    intro m n h
    have hdigits := congrArg String.toList h
    rw [toList_number, toList_number] at hdigits
    rw [← @Nat.ofDigitChars_ten_toDigits m, hdigits, Nat.ofDigitChars_ten_toDigits]
  newline_notMem := notMem_number (by decide)

/-- A number has a first digit, which is no blank. -/
theorem exists_number_eq_cons (n : Nat) :
    ∃ d rest, (toString n).toList = d :: rest ∧ d ≠ ' ' := by
  have hblank : ' ' ∉ (toString n).toList := notMem_number (by decide) n
  cases h : (toString n).toList with
  | nil =>
    rw [toList_number] at h
    exact absurd h Nat.toDigits_ne_nil
  | cons d rest =>
    refine ⟨d, rest, rfl, ?_⟩
    rintro rfl
    rw [h] at hblank
    exact hblank List.mem_cons_self

/-- A number ends where a character stands that is no digit. -/
theorem number_append_inj {sep : Char} (hsep : sep.isDigit = false) {m n : Nat} {x y : List Char}
    (h : (toString m).toList ++ sep :: x = (toString n).toList ++ sep :: y) : m = n ∧ x = y := by
  obtain ⟨hnumber, hrest⟩ := append_cons_inj (notMem_number hsep m) (notMem_number hsep n) h
  exact ⟨faithful_number.eq hnumber, hrest⟩

theorem Hex.toList_spellMarked (bytes : Bytes) :
    (spellMarked bytes).toList = '0' :: 'x' :: (spell bytes).toList := by
  simp [spellMarked]

theorem Hex.notMem_spellMarked {c : Char} (hc : ¬IsDigit c) (hx : c ≠ 'x') (bytes : Bytes) :
    c ∉ (spellMarked bytes).toList := by
  rw [toList_spellMarked]
  intro hmem
  rcases List.mem_cons.mp hmem with rfl | hmem
  · exact hc (by decide)
  · rcases List.mem_cons.mp hmem with rfl | hmem
    · exact hx rfl
    · exact hc ((spells_spell bytes).isDigit c hmem)

theorem Hex.faithful_spellMarked : Faithful spellMarked where
  injective := by
    intro a b h
    have hlist := congrArg String.toList h
    rw [toList_spellMarked, toList_spellMarked] at hlist
    exact spell_injective (String.toList_inj.mp (List.cons.inj (List.cons.inj hlist).2).2)
  newline_notMem := notMem_spellMarked (by decide) (by decide)

/-! ## Amounts -/

theorem AssetId.eq_of_toNat {a b : AssetId} (h : a.number.toNat = b.number.toNat) : a = b :=
  congrArg AssetId.mk (BitVec.eq_of_toNat_eq h)

theorem Ratio.toList_toString (r : Ratio) :
    (toString r).toList =
      (toString r.numerator.toNat).toList ++ '/' :: (toString r.denominator.toNat).toList := by
  simp [toString, UInt128.text]

theorem Ratio.faithful : Faithful (toString : Ratio → String) where
  injective := by
    intro r s h
    have hlist := congrArg String.toList h
    rw [toList_toString, toList_toString] at hlist
    obtain ⟨hnumerator, hrest⟩ := number_append_inj (by decide) hlist
    have hdenominator := faithful_number.eq hrest
    cases r
    cases s
    rw [mk.injEq]
    exact ⟨BitVec.eq_of_toNat_eq hnumerator, BitVec.eq_of_toNat_eq hdenominator⟩
  newline_notMem r := by
    rw [toList_toString]
    exact List.not_mem_append (faithful_number.newline_notMem _)
      (List.not_mem_cons_of_ne_of_not_mem (by decide) (faithful_number.newline_notMem _))

theorem Selector.toList_toString (s : Selector) :
    (toString s).toList =
      match s with
      | absolute amount => "absolute ".toList ++ (toString amount.toNat).toList
      | ratio share => "ratio ".toList ++ (toString share).toList
      | unit whole fraction =>
        "unit ".toList ++
          ((toString whole.toNat).toList ++ (" + ".toList ++ (toString fraction).toList)) := by
  cases s <;> simp [toString, UInt128.text]

theorem Selector.faithful : Faithful (toString : Selector → String) where
  injective := by
    intro s t h
    have hlist := congrArg String.toList h
    rw [toList_toString, toList_toString] at hlist
    cases s with
    | absolute a =>
      cases t with
      | absolute b =>
        have hamount := faithful_number.eq (List.append_cancel_left hlist)
        rw [BitVec.eq_of_toNat_eq hamount]
      | _ => exact absurd (List.cons.inj hlist).1 (by decide)
    | ratio r =>
      cases t with
      | ratio r' => rw [Ratio.faithful.eq (List.append_cancel_left hlist)]
      | _ => exact absurd (List.cons.inj hlist).1 (by decide)
    | unit w f =>
      cases t with
      | unit w' f' =>
        obtain ⟨hwhole, hrest⟩ := number_append_inj (by decide) (List.append_cancel_left hlist)
        have hfraction := (List.cons.inj (List.cons.inj hrest).2).2
        rw [BitVec.eq_of_toNat_eq hwhole, Ratio.faithful.eq hfraction]
      | _ => exact absurd (List.cons.inj hlist).1 (by decide)
  newline_notMem s := by
    rw [toList_toString]
    cases s with
    | absolute a => exact List.not_mem_append (by decide) (faithful_number.newline_notMem _)
    | ratio r => exact List.not_mem_append (by decide) (Ratio.faithful.newline_notMem r)
    | unit w f =>
      exact List.not_mem_append (by decide) (List.not_mem_append (faithful_number.newline_notMem _)
        (List.not_mem_append (by decide) (Ratio.faithful.newline_notMem f)))

theorem Portion.toList_toString (p : Portion) :
    (toString p).toList =
      (toString p.asset.number.toNat).toList ++
        (" (".toList ++ ((toString p.selector).toList ++ ")".toList)) := by
  simp [toString, UInt128.text]

theorem Portion.faithful : Faithful (toString : Portion → String) where
  injective := by
    intro p q h
    have hlist := congrArg String.toList h
    rw [toList_toString, toList_toString] at hlist
    obtain ⟨hasset, hrest⟩ := number_append_inj (by decide) hlist
    have hselector : (toString p.selector).toList ++ ")".toList =
        (toString q.selector).toList ++ ")".toList := (List.cons.inj hrest).2
    cases p
    cases q
    rw [mk.injEq]
    exact ⟨AssetId.eq_of_toNat hasset, Selector.faithful.eq (List.append_cancel_right hselector)⟩
  newline_notMem p := by
    rw [toList_toString]
    exact List.not_mem_append (faithful_number.newline_notMem _) (List.not_mem_append (by decide)
      (List.not_mem_append (Selector.faithful.newline_notMem p.selector) (by decide)))

/-! ## Bindings -/

theorem BoundValue.toList_toString (v : BoundValue) :
    (toString v).toList =
      match v with
      | assetId asset => "asset-id ".toList ++ (toString asset.number.toNat).toList
      | assetAmount asset share =>
        "asset-amount ".toList ++
          ((toString asset.number.toNat).toList ++ (" x ".toList ++ (toString share).toList))
      | self => "self".toList := by
  cases v <;> simp [toString, UInt128.text]

theorem BoundValue.faithful : Faithful (toString : BoundValue → String) where
  injective := by
    intro v w h
    have hlist := congrArg String.toList h
    rw [toList_toString, toList_toString] at hlist
    -- the words for an asset and for an amount of it agree up to their seventh letter
    have hseventh := congrArg (fun text => text[6]?) hlist
    cases v with
    | assetId a =>
      cases w with
      | assetId b =>
        rw [AssetId.eq_of_toNat (faithful_number.eq (List.append_cancel_left hlist))]
      | assetAmount => exact absurd (Option.some.inj hseventh) (by decide)
      | self => exact absurd (List.cons.inj hlist).1 (by decide)
    | assetAmount a r =>
      cases w with
      | assetId => exact absurd (Option.some.inj hseventh) (by decide)
      | assetAmount b r' =>
        obtain ⟨hasset, hrest⟩ := number_append_inj (by decide) (List.append_cancel_left hlist)
        have hshare := (List.cons.inj (List.cons.inj hrest).2).2
        rw [AssetId.eq_of_toNat hasset, Ratio.faithful.eq hshare]
      | self => exact absurd (List.cons.inj hlist).1 (by decide)
    | self =>
      cases w with
      | self => rfl
      | _ => exact absurd (List.cons.inj hlist).1 (by decide)
  newline_notMem v := by
    rw [toList_toString]
    cases v with
    | assetId a => exact List.not_mem_append (by decide) (faithful_number.newline_notMem _)
    | assetAmount a r =>
      exact List.not_mem_append (by decide) (List.not_mem_append (faithful_number.newline_notMem _)
        (List.not_mem_append (by decide) (Ratio.faithful.newline_notMem r)))
    | self => decide

/-- The text of a binding: where it puts what. -/
def Binding.text (b : Binding) : String :=
  s!"@{b.position} <- {b.value}"

theorem Binding.toList_text (b : Binding) :
    b.text.toList =
      '@' :: ((toString b.position.toNat).toList ++
        (" <- ".toList ++ (toString b.value).toList)) := by
  simp [text, toString]

theorem Binding.faithful : Faithful Binding.text where
  injective := by
    intro b c h
    have hlist := congrArg String.toList h
    rw [toList_text, toList_text] at hlist
    obtain ⟨hposition, hrest⟩ := number_append_inj (by decide) (List.cons.inj hlist).2
    have hvalue := (List.cons.inj (List.cons.inj (List.cons.inj hrest).2).2).2
    cases b
    cases c
    rw [mk.injEq]
    exact ⟨UInt16.toNat_inj.mp hposition, BoundValue.faithful.eq hvalue⟩
  newline_notMem b := by
    rw [toList_text]
    exact List.not_mem_cons_of_ne_of_not_mem (by decide)
      (List.not_mem_append (faithful_number.newline_notMem _)
        (List.not_mem_append (by decide) (BoundValue.faithful.newline_notMem b.value)))

/-! ## Recipients -/

theorem Recipient.toList_toString (r : Recipient) :
    (toString r).toList =
      match r with
      | account address => (Hex.spellMarked address.toList).toList
      | relayer => "relayer".toList
      | self => "self".toList := by
  cases r <;> rfl

theorem Recipient.faithful : Faithful (toString : Recipient → String) where
  injective := by
    intro r s h
    have hlist := congrArg String.toList h
    rw [toList_toString, toList_toString] at hlist
    simp only [Hex.toList_spellMarked] at hlist
    cases r with
    | account a =>
      cases s with
      | account b =>
        have hdigits := (List.cons.inj (List.cons.inj hlist).2).2
        rw [Address.ext (Hex.spell_injective (String.toList_inj.mp hdigits))]
      | _ => exact absurd (List.cons.inj hlist).1 (by decide)
    | relayer =>
      cases s with
      | relayer => rfl
      | _ => exact absurd (List.cons.inj hlist).1 (by decide)
    | self =>
      cases s with
      | self => rfl
      | _ => exact absurd (List.cons.inj hlist).1 (by decide)
  newline_notMem r := by
    rw [toList_toString]
    cases r with
    | account a => exact Hex.faithful_spellMarked.newline_notMem a.toList
    | relayer => decide
    | self => decide

end Crossnet
