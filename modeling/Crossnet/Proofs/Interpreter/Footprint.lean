import Crossnet.Proofs.Interpreter.Effects
import Crossnet.Proofs.Storage.Confined

/-!
# What parts of a program touch

Which keys the parts of a program read and write.  A withdrawal is in two steps:
a `quote` works out the token and the amount from what the interpreter holds, and
then the amount is moved.  The key of the payee is touched only once the debit
has ended well.

* `within_transfer`: a transfer touches the payer's key and then the payee's.
* `withdraw_eq`: **a withdrawal is a quote and a transfer.**
* `run_quote_of_held`, `run_withdraw_of_ne`: what they come to where the holding is
  known.
* `within_quote`, `within_resolvePayload`: amounts and payloads are worked out
  from what the interpreter itself holds.
-/

namespace Crossnet

variable {σ : Type} [Storage σ] {keys : Set Digest}

namespace Ledger

variable {token holder payer payee : Address} {amount : UInt128} {s : σ}

theorem within_readAt {key : Digest} (h : key ∈ keys) : (readAt key).Within keys s := by
  refine Script.within_bind.mpr ⟨Script.within_get?.mpr h, fun raw t _ => ?_⟩
  cases raw with
  | none => trivial
  | some raw =>
    dsimp only
    split
    · trivial
    · trivial

theorem within_credit (h : key token holder ∈ keys) :
    (credit token holder amount).Within keys s := by
  refine Script.within_bind.mpr ⟨within_readAt h, fun held t _ => ?_⟩
  split
  · exact Script.within_put.mpr h
  · trivial

theorem within_debit (h : key token holder ∈ keys) :
    (debit token holder amount).Within keys s := by
  refine Script.within_bind.mpr ⟨within_readAt h, fun held t _ => ?_⟩
  dsimp only
  split
  · trivial
  · exact Script.within_put.mpr h

/-- The payee of a transfer, where the debit ends well so that the credit is tried. -/
def tried (token payer payee : Address) (amount : UInt128) (s : σ) : List Address :=
  (debit token payer amount).after s fun _ _ => [payee]

theorem within_transfer (hpayer : key token payer ∈ keys)
    (hpayee : payee ∈ tried token payer payee amount s → key token payee ∈ keys) :
    (transfer token payer payee amount).Within keys s := by
  refine Script.within_bind.mpr ⟨within_debit hpayer, fun done t hdebit => ?_⟩
  refine within_credit (hpayee ?_)
  rw [tried, Script.after_of_ok hdebit]
  exact List.mem_cons_self

end Ledger

theorem Owners.within_apply {caller interpreter : Address} {call : OwnerCall} {s : σ}
    (h : Owners.key interpreter ∈ keys) :
    (Owners.apply caller interpreter call).Within keys s := by
  have hload : ∀ t : σ, (Owners.load interpreter).Within keys t := by
    intro t
    refine Script.within_bind.mpr ⟨Script.within_get?.mpr h, fun raw u _ => ?_⟩
    cases raw with
    | none => trivial
    | some raw =>
      dsimp only
      split
      · trivial
      · trivial
  unfold Owners.apply
  split
  · trivial
  · exact Script.within_bind.mpr ⟨hload s, fun owners t _ => Script.within_put.mpr h⟩

namespace Interpreter

variable {interp : Interpreter} {env : Environment} {s t : σ}

theorem within_token {asset : AssetId} : (Interpreter.token env asset).Within keys s := by
  unfold Interpreter.token
  split
  · trivial
  · trivial

/-- Reading what the interpreter holds of an asset touches the one entry. -/
theorem within_held {asset : AssetId}
    (h : ∀ token, env.host.assetHandle asset = some token →
      Ledger.key token interp.address ∈ keys) :
    ((interp.liveValues env).held asset).Within keys s := by
  refine Script.within_bind.mpr ⟨within_token, fun token u htoken => ?_⟩
  have hhandle := (run_token_eq_ok.mp htoken).1
  exact Script.within_mapError.mpr (Ledger.within_readAt (h token hhandle))

/-! ## Withdrawals -/

/-- The token and the amount of a withdrawal, where as much is held. -/
def covered (portion : Portion) (token : Address) (held amount : UInt128) :
    Script ExecutionError (Address × UInt128) :=
  if held < amount then throw (.insufficientBalance portion.asset amount held)
  else pure (token, amount)

/-- The token and the amount of a withdrawal, worked out from what the interpreter holds. -/
def quote (interp : Interpreter) (env : Environment) (portion : Portion) :
    Script ExecutionError (Address × UInt128) := do
  let token ← token env portion.asset
  let held ← onLedger (Ledger.balance token interp.address)
  match portion.selector.amount held env.unitScale with
  | .ok amount => covered portion token held amount
  | .error .overflow => covered portion token held UInt128.max
  | .error .zeroDenominator => throw (ExecutionError.program .zeroDenominator)

/-- **A withdrawal is a quote and a transfer.** -/
theorem withdraw_eq (interp : Interpreter) (env : Environment) (payee : Address)
    (portion : Portion) :
    interp.withdraw env payee portion =
      interp.quote env portion >>= fun (token, amount) =>
        onLedger (Ledger.transfer token interp.address payee amount) >>= fun _ =>
          pure amount := by
  unfold withdraw quote
  simp only [bind_assoc]
  refine bind_congr fun token => bind_congr fun held => ?_
  have hcovered : ∀ a : UInt128,
      (if held < a then
        (throw (.insufficientBalance portion.asset a held) : Script ExecutionError Unit) >>=
          fun _ => onLedger (Ledger.transfer token interp.address payee a) >>= fun _ => pure a
      else onLedger (Ledger.transfer token interp.address payee a) >>= fun _ => pure a) =
      covered portion token held a >>= fun (token, amount) =>
        onLedger (Ledger.transfer token interp.address payee amount) >>= fun _ =>
          pure amount := by
    intro a
    unfold covered
    split
    · rfl
    · rfl
  cases portion.selector.amount held env.unitScale with
  | ok a => exact hcovered a
  | error e =>
    cases e with
    | overflow => exact hcovered UInt128.max
    | zeroDenominator => rfl

theorem within_covered {portion : Portion} {token : Address} {held amount : UInt128} :
    (covered portion token held amount).Within keys s := by
  unfold covered
  split
  · trivial
  · trivial

/-- A quote touches what the interpreter holds of the asset. -/
theorem within_quote {portion : Portion}
    (h : ∀ token, env.host.assetHandle portion.asset = some token →
      Ledger.key token interp.address ∈ keys) :
    (interp.quote env portion).Within keys s := by
  refine Script.within_bind.mpr ⟨within_token, fun token u htoken => ?_⟩
  have hkey := h token (run_token_eq_ok.mp htoken).1
  have hread : (onLedger (Ledger.balance token interp.address)).Within keys u :=
    Script.within_mapError.mpr (Ledger.within_readAt hkey)
  refine Script.within_bind.mpr ⟨hread, fun held v _ => ?_⟩
  split
  · exact within_covered
  · exact within_covered
  · trivial

/-- A quote leaves the storage as it is, and is for the token of the asset. -/
theorem run_quote_eq_ok {portion : Portion} {token : Address} {amount : UInt128}
    (h : (interp.quote env portion).run s = .ok (token, amount) t) :
    t = s ∧ env.host.assetHandle portion.asset = some token := by
  obtain ⟨found, u, htoken, hnext⟩ := Script.run_bind_eq_ok.mp h
  obtain ⟨hhandle, rfl⟩ := run_token_eq_ok.mp htoken
  obtain ⟨held, v, hread, hrest⟩ := Script.run_bind_eq_ok.mp hnext
  obtain ⟨rfl, -⟩ := Ledger.run_readAt_eq_ok.mp (Script.run_mapError_eq_ok.mp hread)
  have hcovered : ∀ a : UInt128, (covered portion found held a).run v = .ok (token, amount) t →
      t = v ∧ found = token := by
    intro a ha
    unfold covered at ha
    split at ha
    · cases ha
    · cases ha
      exact ⟨rfl, rfl⟩
  have hdone : t = v ∧ found = token := by
    split at hrest
    · exact hcovered _ hrest
    · exact hcovered _ hrest
    · cases hrest
  obtain ⟨rfl, rfl⟩ := hdone
  exact ⟨rfl, hhandle⟩

/-- A withdrawal ends well where its quote does and what that says is moved. -/
theorem run_withdraw_iff_quote {payee : Address} {portion : Portion} {amount : UInt128} :
    (interp.withdraw env payee portion).run s = .ok amount t ↔
      ∃ token, (interp.quote env portion).run s = .ok (token, amount) s ∧
        (Ledger.transfer token interp.address payee amount).run s = .ok () t := by
  rw [withdraw_eq]
  constructor
  · intro h
    obtain ⟨⟨token, quoted⟩, u, hquote, hnext⟩ := Script.run_bind_eq_ok.mp h
    obtain ⟨rfl, -⟩ := run_quote_eq_ok hquote
    obtain ⟨done, v, hmove, hdone⟩ := Script.run_bind_eq_ok.mp hnext
    cases hdone
    exact ⟨token, hquote, Script.run_mapError_eq_ok.mp hmove⟩
  · rintro ⟨token, hquote, hmove⟩
    refine Script.run_bind_eq_ok.mpr ⟨_, _, hquote, ?_⟩
    exact Script.run_bind_eq_ok.mpr ⟨(), _, Script.run_mapError_eq_ok.mpr hmove, rfl⟩

/-- A quote is for the amount that is selected; an amount above 128 bits is cut. -/
theorem run_quote_of_held {portion : Portion} {token : Address} {held amount : UInt128}
    (hhandle : env.host.assetHandle portion.asset = some token)
    (hheld : Ledger.amountAt? s (Ledger.key token interp.address) = some held)
    (hamount : portion.selector.amount held env.unitScale = .ok amount ∨
      portion.selector.amount held env.unitScale = .error .overflow ∧ amount = UInt128.max) :
    (interp.quote env portion).run s = (covered portion token held amount).run s := by
  have htoken : (Interpreter.token env portion.asset).run s = .ok token s :=
    run_token_eq_ok.mpr ⟨hhandle, rfl⟩
  have hread : (onLedger (Ledger.balance token interp.address)).run s = .ok held s :=
    Script.run_mapError_eq_ok.mpr (Ledger.run_readAt_eq_ok.mpr ⟨rfl, hheld⟩)
  rw [quote, Script.run_bind_of_ok htoken, Script.run_bind_of_ok hread]
  rcases hamount with hamount | ⟨hamount, rfl⟩
  · rw [hamount]
  · rw [hamount]

theorem run_covered_of_le {portion : Portion} {token : Address} {held amount : UInt128}
    (hle : amount ≤ held) (s : σ) :
    (covered portion token held amount).run s = .ok (token, amount) s := by
  rw [covered, if_neg (BitVec.not_lt.mpr hle)]
  rfl

/-- A withdrawal of more than is held is refused, with nothing written. -/
theorem run_withdraw_of_quote_lt {portion : Portion} {token payee : Address}
    {held amount : UInt128}
    (hquote : (interp.quote env portion).run s = (covered portion token held amount).run s)
    (hlt : held < amount) :
    (interp.withdraw env payee portion).run s =
      .error (.insufficientBalance portion.asset amount held) s := by
  rw [withdraw_eq, Script.run_bind, hquote, covered, if_pos hlt]
  rfl

/-- A withdrawal by an interpreter who holds the amount, to a payee under another key. -/
theorem run_withdraw_of_ne [LawfulStorage σ] {portion : Portion} {token payee : Address}
    {held amount had sum : UInt128}
    (hne : Ledger.key token interp.address ≠ Ledger.key token payee)
    (hhandle : env.host.assetHandle portion.asset = some token)
    (hheld : Ledger.amountAt? s (Ledger.key token interp.address) = some held)
    (hamount : portion.selector.amount held env.unitScale = .ok amount) (hle : amount ≤ held)
    (hhad : Ledger.amountAt? s (Ledger.key token payee) = some had)
    (hsum : had.toNat + amount.toNat = sum.toNat) :
    (interp.withdraw env payee portion).run s = .ok amount
      (Ledger.setAmount (Ledger.setAmount s (Ledger.key token interp.address) (held - amount))
        (Ledger.key token payee) sum) := by
  have hquote : (interp.quote env portion).run s = .ok (token, amount) s :=
    (run_quote_of_held hhandle hheld (.inl hamount)).trans (run_covered_of_le hle s)
  have hmove := Ledger.run_transfer_of_ne hne hheld hle hhad hsum
  exact run_withdraw_iff_quote.mpr ⟨token, hquote, hmove⟩

/-! ## Calls -/

/-- A payload is worked out from what the interpreter holds of the assets whose amounts are
bound. -/
theorem within_resolvePayload {payload : Bytes} {bindings : List Binding}
    (h : ∀ b ∈ bindings, ∀ asset share token, b.value = .assetAmount asset share →
      env.host.assetHandle asset = some token → Ledger.key token interp.address ∈ keys) :
    (resolvePayload (interp.liveValues env) payload bindings).Within keys s := by
  have hvalue : ∀ b ∈ bindings, ∀ u : σ,
      (b.value.resolve (interp.liveValues env)).Within keys u := by
    intro b hb u
    cases hkind : b.value with
    | assetId asset => trivial
    | self => trivial
    | assetAmount asset share =>
      have hheld := within_held (s := u) fun token => h b hb asset share token hkind
      refine Script.within_bind.mpr ⟨hheld, fun held v _ => ?_⟩
      split
      · trivial
      · trivial
  unfold resolvePayload
  split
  · trivial
  · exact Script.within_bind.mpr ⟨Script.within_mapM hvalue s, fun _ _ _ => trivial⟩

theorem within_readCall {α : Type} [Wire α] {callee : Address} {calldata : Bytes} :
    (readCall callee calldata : Script ExecutionError α).Within keys s := by
  unfold readCall
  split
  · trivial
  · trivial

end Interpreter

end Crossnet
