import Crossnet.Proofs.Interpreter.Composition
import Crossnet.Proofs.Interpreter.Footprint

/-!
# Programs are local

What a program does is decided by what the relayer, the interpreter, the escrow
and the accounts that it pays hold of the host's tokens, and by the owners of the
interpreter.  Which accounts it pays comes out while it runs, for a payee may
stand in a payload that is filled in with live values.  So `tried` follows the run
and lists the accounts that are credited or would be; the `Scope` of a run is the
entries of all these.  Contracts could do anything, so there are none here.

* `within_steps`, `within_run`: **a run stays within its scope.**
* `execute_local`: **storages that agree on the scope of a program cannot be told
  apart by it**, and it changes nothing outside.
-/

namespace Crossnet

/-- The token of an asset, or one that can be called. -/
def Host.Knows (host : Host) (token : Address) : Prop :=
  (∃ asset, host.assetHandle asset = some token) ∨ host.isToken token = true

namespace Interpreter

/-! ## Whom a run credits, or tries to -/

section Tried

variable {σ : Type} [Storage σ]

/-- The payee of portions that are withdrawn in a row, once for each credit that is tried. -/
def triedByPayments (interp : Interpreter) (env : Environment) (payee : Address) :
    List Portion → σ → List Address
  | [], _ => []
  | p :: rest, s =>
    ((interp.quote env p).after s fun (token, amount) t =>
      Ledger.tried token interp.address payee amount t) ++
        (interp.withdraw env payee p).after s fun _ t =>
          triedByPayments interp env payee rest t

/-- The accounts that an instruction credits or tries to credit. -/
def triedByStep (interp : Interpreter) (env : Environment) (s : σ) : Instruction → List Address
  | .transfer recipient portions =>
    interp.triedByPayments env (interp.payee env recipient) portions s
  | .call payload bindings =>
    match interp.tokenCall? env s (.call payload bindings) with
    | some (token, .transfer payee amount) =>
      if env.host.isToken token then Ledger.tried token interp.address payee amount s else []
    | none => []
  | .spawn _ _ _ _ portions => interp.triedByPayments env env.escrow portions s

/-- The accounts that instructions in a row credit or try to credit. -/
def triedBySteps (interp : Interpreter) (env : Environment) :
    List Instruction → σ → List Address
  | [], _ => []
  | i :: rest, s =>
    interp.triedByStep env s i ++
      (interp.step env i).after s fun _ t => triedBySteps interp env rest t

/-- The accounts that a program credits or tries to credit, besides the interpreter to which what
comes in is credited. -/
def tried (interp : Interpreter) (env : Environment) (program : Program)
    (incoming : List (AssetId × UInt128)) (s : σ) : List Address :=
  (interp.receive env incoming).after s fun _ t => interp.triedBySteps env program.instructions t

theorem eq_payee_of_triedByPayments {interp : Interpreter} {env : Environment} {payee : Address}
    {portions : List Portion} {s : σ} {account : Address}
    (h : account ∈ interp.triedByPayments env payee portions s) : account = payee := by
  induction portions generalizing s with
  | nil => cases h
  | cons p rest ih =>
    rcases List.mem_append.mp h with hfirst | hlater
    · obtain ⟨⟨token, amount⟩, t, -, htried⟩ := Script.mem_after hfirst
      obtain ⟨done, u, -, hmem⟩ := Script.mem_after htried
      exact List.mem_singleton.mp hmem
    · obtain ⟨amount, t, -, hrest⟩ := Script.mem_after hlater
      exact ih hrest

end Tried

/-! ## The scope of a run -/

/-- The entries that a run can touch which credits or tries to credit the accounts. -/
inductive Scope (interp : Interpreter) (env : Environment) (accounts : List Address) :
    Identity → Prop
  | owners : Scope interp env accounts (.owners interp.address)
  | relayer {token : Address} (h : env.host.Knows token) :
      Scope interp env accounts (.balance token env.relayer)
  | self {token : Address} (h : env.host.Knows token) :
      Scope interp env accounts (.balance token interp.address)
  | escrow {token : Address} (h : env.host.Knows token) :
      Scope interp env accounts (.balance token env.escrow)
  | account {token account : Address} (h : env.host.Knows token) (hmem : account ∈ accounts) :
      Scope interp env accounts (.balance token account)

variable {interp : Interpreter} {env : Environment} {xs ys : List Address} {i : Identity}

theorem Scope.isEntry (h : interp.Scope env xs i) : i.IsEntry := by
  cases h <;> trivial

theorem Scope.mono (h : interp.Scope env xs i) (hsub : xs ⊆ ys) : interp.Scope env ys i := by
  cases h with
  | owners => exact .owners
  | relayer h => exact .relayer h
  | self h => exact .self h
  | escrow h => exact .escrow h
  | account h hmem => exact .account h (hsub hmem)

/-! ## Runs stay within their scope -/

variable {σ : Type} [Storage σ] {s : σ} {keys : Set Digest}

/-- All keys of a scope are among the keys. -/
def Covers (interp : Interpreter) (env : Environment) (keys : Set Digest)
    (accounts : List Address) : Prop :=
  ∀ i, interp.Scope env accounts i → i.digest ∈ keys

theorem Covers.mono (h : interp.Covers env keys ys) (hsub : xs ⊆ ys) :
    interp.Covers env keys xs :=
  fun i hi => h i (hi.mono hsub)

theorem within_payments {payee : Address} {portions : List Portion}
    (h : interp.Covers env keys (interp.triedByPayments env payee portions s)) :
    (portions.mapM (interp.withdraw env payee)).Within keys s := by
  induction portions generalizing s with
  | nil => trivial
  | cons p rest ih =>
    have hself : ∀ token, env.host.assetHandle p.asset = some token →
        Ledger.key token interp.address ∈ keys :=
      fun token hhandle => h _ (.self (.inl ⟨_, hhandle⟩))
    have hwithdraw : (interp.withdraw env payee p).Within keys s := by
      rw [withdraw_eq]
      refine Script.within_bind.mpr ⟨within_quote hself, fun (token, amount) u hquote => ?_⟩
      obtain ⟨rfl, hhandle⟩ := run_quote_eq_ok hquote
      have hmove : (Ledger.transfer token interp.address payee amount).Within keys u := by
        refine Ledger.within_transfer (hself token hhandle) fun hpayee => ?_
        refine h _ (.account (.inl ⟨_, hhandle⟩) (List.mem_append_left _ ?_))
        rw [Script.after_of_ok hquote]
        exact hpayee
      exact Script.within_bind.mpr ⟨Script.within_mapError.mpr hmove, fun _ _ _ => trivial⟩
    rw [List.mapM_cons]
    refine Script.within_bind.mpr ⟨hwithdraw, fun amount u hp => ?_⟩
    have hrest : (rest.mapM (interp.withdraw env payee)).Within keys u := by
      refine ih (h.mono fun a ha => List.mem_append_right _ ?_)
      rw [Script.after_of_ok hp]
      exact ha
    exact Script.within_bind.mpr ⟨hrest, fun _ _ _ => trivial⟩

section NoContracts

variable (hcontract : ∀ address, env.host.contract address = none)

include hcontract

theorem within_call {payload : Bytes} {bindings : List Binding}
    (h : interp.Covers env keys (interp.triedByStep env s (.call payload bindings))) :
    (interp.call env payload bindings).Within keys s := by
  have hresolve : (resolvePayload (interp.liveValues env) payload bindings).Within keys s :=
    within_resolvePayload fun _ _ asset _ token _ hhandle => h _ (.self (.inl ⟨asset, hhandle⟩))
  refine Script.within_bind.mpr ⟨hresolve, fun resolved u hrun => ?_⟩
  obtain ⟨rfl, -⟩ := run_resolvePayload_eq_ok (fun _ _ _ h => run_held_reads h) hrun
  cases hfront : Address.ofFront? resolved with
  | none => trivial
  | some callee =>
    dsimp only
    -- The callee comes out of the payload, so the keys are known only after it is filled in.
    by_cases hself : callee = interp.address
    · rw [if_pos hself]
      split
      · trivial
      · have hchange : ∀ change : OwnerCall,
            (Owners.apply interp.address interp.address change).Within keys u :=
          fun change => Owners.within_apply (h _ .owners)
        refine Script.within_bind.mpr ⟨within_readCall, fun change v hread => ?_⟩
        obtain ⟨-, rfl⟩ := run_readCall_eq_ok.mp hread
        exact Script.within_bind.mpr ⟨hchange change, fun _ _ _ => trivial⟩
    · rw [if_neg hself]
      cases htoken : env.host.isToken callee with
      | true =>
        rw [if_pos rfl]
        refine Script.within_bind.mpr ⟨within_readCall, fun (.transfer payee amount) v hread => ?_⟩
        obtain ⟨hdecode, rfl⟩ := run_readCall_eq_ok.mp hread
        have hcall : interp.tokenCall? env v (.call payload bindings) =
            some (callee, .transfer payee amount) := by
          simp only [tokenCall?, hrun, hfront, hdecode, if_neg hself, Except.toOption,
            Option.map_some]
        have hmove : (Ledger.transfer callee interp.address payee amount).Within keys v := by
          refine Ledger.within_transfer (h _ (.self (.inr htoken))) fun hpayee => ?_
          refine h _ (.account (.inr htoken) ?_)
          simp only [triedByStep, hcall, htoken, if_true]
          exact hpayee
        exact Script.within_bind.mpr ⟨Script.within_mapError.mpr hmove, fun _ _ _ => trivial⟩
      | false =>
        rw [if_neg Bool.false_ne_true, hcontract]
        trivial

theorem within_step {i : Instruction} (h : interp.Covers env keys (interp.triedByStep env s i)) :
    (interp.step env i).Within keys s := by
  cases i with
  | transfer recipient portions =>
    exact Script.within_bind.mpr ⟨within_payments h, fun _ _ _ => trivial⟩
  | call payload bindings =>
    exact Script.within_bind.mpr ⟨within_call hcontract h, fun _ _ _ => trivial⟩
  | spawn network salt version program portions =>
    exact Script.within_bind.mpr ⟨within_payments h, fun _ _ _ => trivial⟩

/-- **Instructions stay within their scope.** -/
theorem within_steps {instructions : List Instruction} {outcome : Outcome}
    (h : interp.Covers env keys (interp.triedBySteps env instructions s)) :
    (interp.steps env instructions outcome).Within keys s := by
  induction instructions generalizing s outcome with
  | nil => trivial
  | cons i rest ih =>
    have hstep : (interp.step env i).Within keys s :=
      within_step hcontract (h.mono fun a ha => List.mem_append_left _ ha)
    rw [steps_cons]
    refine Script.within_bind.mpr ⟨hstep, fun added u hrun => ?_⟩
    refine ih (h.mono fun a ha => List.mem_append_right _ ?_)
    rw [Script.after_of_ok hrun]
    exact ha

end NoContracts

theorem within_receive {incoming : List (AssetId × UInt128)} (h : interp.Covers env keys xs) :
    (interp.receive env incoming).Within keys s := by
  induction incoming generalizing s with
  | nil => trivial
  | cons entry rest ih =>
    obtain ⟨asset, amount⟩ := entry
    rw [receive_cons]
    refine Script.within_bind.mpr ⟨Script.within_bind.mpr ⟨within_token, ?_⟩, fun _ _ _ => ih⟩
    intro token u htoken
    have hknows : env.host.Knows token := .inl ⟨asset, (run_token_eq_ok.mp htoken).1⟩
    have hmove : (Ledger.transfer token env.relayer interp.address amount).Within keys u :=
      Ledger.within_transfer (h _ (.relayer hknows)) fun _ => h _ (.self hknows)
    exact Script.within_mapError.mpr hmove

/-- **A run stays within its scope.** -/
theorem within_run (hcontract : ∀ address, env.host.contract address = none) {program : Program}
    {incoming : List (AssetId × UInt128)}
    (h : interp.Covers env keys (interp.tried env program incoming s)) :
    (interp.run env program.instructions incoming).Within keys s := by
  refine Script.within_bind.mpr ⟨within_receive h, fun done u hreceive => ?_⟩
  refine within_steps hcontract (h.mono fun a ha => ?_)
  rw [tried, Script.after_of_ok hreceive]
  exact ha

/-! ## Two storages -/

/-- **Storages that agree on the scope of a program cannot be told apart by it**, and it changes
nothing outside.  Let there be no contracts, and let two storages have the same under the keys of
the scope: what the relayer, the interpreter, the escrow and the accounts that the run on the first
storage credits or tries to credit hold of the host's tokens, and the interpreter's owners.  Then
the program fails on both alike and changes neither, or it has the same outcome on both and carries
out the same writes, all under keys of the scope.  So every other key keeps its value, and so does
every other entry, unless the hash takes it to the digest of one in the scope. -/
theorem execute_local {σ τ : Type} [Storage σ] [LawfulStorage σ] [Storage τ] [LawfulStorage τ]
    {interp : Interpreter} {env : Environment} {program : Program}
    {incoming : List (AssetId × UInt128)} {s : σ} {t : τ}
    (hcontract : ∀ address, env.host.contract address = none)
    (hagree : ∀ i, interp.Scope env (interp.tried env program incoming s) i →
      Storage.get? s i.digest = Storage.get? t i.digest) :
    (∃ outcome writes,
      interp.execute env program incoming s = .ok outcome (Storage.putAll s writes) ∧
      interp.execute env program incoming t = .ok outcome (Storage.putAll t writes) ∧
      (∀ w ∈ writes, ∃ i, interp.Scope env (interp.tried env program incoming s) i ∧
        i.digest = w.1) ∧
      (∀ key, (∀ i, interp.Scope env (interp.tried env program incoming s) i → i.digest ≠ key) →
        Storage.get? (Storage.putAll s writes) key = Storage.get? s key ∧
          Storage.get? (Storage.putAll t writes) key = Storage.get? t key) ∧
      ∀ i : Identity, i.IsEntry → ¬interp.Scope env (interp.tried env program incoming s) i →
        (∀ j, interp.Scope env (interp.tried env program incoming s) j →
          sha3 j.preimage = sha3 i.preimage → j.preimage = i.preimage) →
        Storage.get? (Storage.putAll s writes) i.digest = Storage.get? s i.digest ∧
          Storage.get? (Storage.putAll t writes) i.digest = Storage.get? t i.digest) ∨
      ∃ e, interp.execute env program incoming s = .error e s ∧
        interp.execute env program incoming t = .error e t := by
  let scope := interp.Scope env (interp.tried env program incoming s)
  let keys : Set Digest := fun key => ∃ i, scope i ∧ i.digest = key
  have hcovers : interp.Covers env keys (interp.tried env program incoming s) :=
    fun i hi => ⟨i, hi, rfl⟩
  have hsame : Storage.AgreeOn keys s t := by
    rintro key ⟨i, hi, rfl⟩
    exact hagree i hi
  have hwithin := within_run hcontract hcovers
  rcases Script.atomically_of_within hwithin hsame with ⟨outcome, writes, hs, ht, hwrites⟩ | herror
  · have hother : ∀ key, (∀ i, scope i → i.digest ≠ key) →
        Storage.get? (Storage.putAll s writes) key = Storage.get? s key ∧
          Storage.get? (Storage.putAll t writes) key = Storage.get? t key := by
      intro key hkey
      have hnot : key ∉ writes.map Prod.fst := by
        intro hmem
        obtain ⟨w, hw, rfl⟩ := List.mem_map.mp hmem
        obtain ⟨i, hi, hdigest⟩ := hwrites w hw
        exact hkey i hi hdigest
      exact ⟨Storage.get?_putAll_of_notMem hnot s, Storage.get?_putAll_of_notMem hnot t⟩
    refine .inl ⟨outcome, writes, hs, ht, hwrites, hother, ?_⟩
    -- An entry outside has a key of its own, as far as the hash keeps it from those inside.
    intro i hentry hout hfree
    refine hother i.digest fun j hj hdigest => ?_
    have heq : j = i := Identity.preimage_inj hj.isEntry hentry (hfree j hj hdigest)
    rw [heq] at hj
    exact hout hj
  · exact .inr herror

/-- An address of twenty equal bytes. -/
def resident (n : UInt8) : Address := ⟨.replicate 20 n⟩

/-- An interpreter that is delivered its errands by the first resident. -/
def courier : Interpreter := ⟨⟨⟨1⟩, .zero⟩, resident 2⟩

/-- A place with one asset, whose token can be called. -/
def village : Environment where
  network := ⟨1⟩
  relayer := resident 1
  escrow := resident 3
  unitScale := 1
  host := ⟨fun _ => some .zero, fun address => address = .zero, fun _ => none⟩

/-- A program that pays two fifths of what the interpreter holds to the fourth resident. -/
def errand : Program := ⟨[], [.transfer (.account (resident 4)) [⟨⟨0⟩, .ratio ⟨2, 5⟩⟩]]⟩

/-- A store in which the relayer has five. -/
def purse : Store := Ledger.setAmount Store.empty (Ledger.key .zero village.relayer) 5

/-- The entries that the errand can touch. -/
def errandEntries : List Identity :=
  [.owners courier.address, .balance .zero village.relayer, .balance .zero courier.address,
    .balance .zero village.escrow, .balance .zero (resident 4)]

theorem nodup_digest_errandEntries :
    ((errandEntries ++ [Identity.balance .zero (resident 5)]).map Identity.digest).Nodup :=
  Identity.nodup_digest (by decide +kernel)

theorem mem_errandEntries_of_scope {i : Identity}
    (h : courier.Scope village (courier.tried village errand [(⟨0⟩, 5)] purse) i) :
    i ∈ errandEntries := by
  have hzero : ∀ token, village.host.Knows token → token = .zero := by
    intro token hknows
    rcases hknows with ⟨asset, hhandle⟩ | hcalled
    · exact (Option.some.inj hhandle).symm
    · exact of_decide_eq_true hcalled
  cases h with
  | owners => exact List.mem_cons_self
  | relayer h =>
    rw [hzero _ h]
    simp [errandEntries]
  | self h =>
    rw [hzero _ h]
    simp [errandEntries]
  | escrow h =>
    rw [hzero _ h]
    simp [errandEntries]
  | account h hmem =>
    obtain ⟨done, t, -, hsteps⟩ := Script.mem_after hmem
    rcases List.mem_append.mp hsteps with hfirst | hlater
    · rw [hzero _ h, eq_payee_of_triedByPayments hfirst]
      simp [errandEntries, payee]
    · obtain ⟨outcome, u, -, hnone⟩ := Script.mem_after hlater
      exact absurd hnone List.not_mem_nil

/-- The entries have keys of their own. -/
theorem errand_keys :
    (Ledger.key .zero village.relayer ≠ Ledger.key .zero courier.address ∧
      Ledger.key .zero village.relayer ≠ Ledger.key .zero village.escrow ∧
      Ledger.key .zero village.relayer ≠ Ledger.key .zero (resident 4)) ∧
    Ledger.key .zero courier.address ≠ Ledger.key .zero village.escrow ∧
      Ledger.key .zero courier.address ≠ Ledger.key .zero (resident 4) := by
  have hkeys : [Owners.key courier.address, Ledger.key .zero village.relayer,
      Ledger.key .zero courier.address, Ledger.key .zero village.escrow,
      Ledger.key .zero (resident 4), Ledger.key .zero (resident 5)].Nodup :=
    nodup_digest_errandEntries
  simp only [List.nodup_cons, List.mem_cons, not_or] at hkeys
  obtain ⟨-, ⟨hcourier, hescrow, hfriend, -⟩, ⟨hescrow', hfriend', -⟩, -⟩ := hkeys
  exact ⟨⟨hcourier, hescrow, hfriend⟩, hescrow', hfriend'⟩

theorem amountAt?_purse {key : Digest} (h : Ledger.key .zero village.relayer ≠ key) :
    Ledger.amountAt? purse key = some 0 := by
  rw [purse, Ledger.amountAt?_setAmount, if_neg h, Ledger.amountAt?_empty]

/-- The relayer's five are moved to the courier. -/
def loaded : Store :=
  Ledger.setAmount (Ledger.setAmount purse (Ledger.key .zero village.relayer) 0)
    (Ledger.key .zero courier.address) 5

theorem run_receive_loaded :
    (courier.receive village [(⟨0⟩, 5)]).run purse = .ok () loaded := by
  obtain ⟨⟨hcourier, -, -⟩, -⟩ := errand_keys
  have hrelayer : Ledger.amountAt? purse (Ledger.key .zero village.relayer) = some 5 := by
    rw [purse, Ledger.amountAt?_setAmount, if_pos rfl]
  have hmove := Ledger.run_transfer_of_ne hcourier hrelayer (BitVec.le_refl 5)
    (amountAt?_purse hcourier) (Nat.zero_add _)
  refine Script.run_bind_eq_ok.mpr ⟨(), loaded, ?_, rfl⟩
  exact Script.run_bind_eq_ok.mpr ⟨.zero, purse, rfl, Script.run_mapError_eq_ok.mpr hmove⟩

theorem amountAt?_loaded_courier :
    Ledger.amountAt? loaded (Ledger.key .zero courier.address) = some 5 := by
  rw [loaded, Ledger.amountAt?_setAmount, if_pos rfl]

theorem amountAt?_loaded {key : Digest} (hrelayer : Ledger.key .zero village.relayer ≠ key)
    (hcourier : Ledger.key .zero courier.address ≠ key) :
    Ledger.amountAt? loaded key = some 0 := by
  rw [loaded, Ledger.amountAt?_setAmount, if_neg hcourier, Ledger.amountAt?_setAmount,
    if_neg hrelayer, amountAt?_purse hrelayer]

/-- The courier receives five and pays two. -/
theorem run_errand : ∃ t : Store,
    (courier.run village errand.instructions [(⟨0⟩, 5)]).run purse = .ok .empty t := by
  obtain ⟨⟨-, -, hfriend⟩, -, hfriend'⟩ := errand_keys
  have hhandle : village.host.assetHandle (⟨⟨0⟩, .ratio ⟨2, 5⟩⟩ : Portion).asset = some .zero := rfl
  let paid : Store := Ledger.setAmount
    (Ledger.setAmount loaded (Ledger.key .zero courier.address) 3) (Ledger.key .zero (resident 4)) 2
  have hpaid : (courier.withdraw village (resident 4) ⟨⟨0⟩, .ratio ⟨2, 5⟩⟩).run loaded =
      .ok 2 paid :=
    run_withdraw_of_ne hfriend' hhandle amountAt?_loaded_courier rfl (by decide)
      (amountAt?_loaded hfriend hfriend') rfl
  have hstep : (courier.step village (.transfer (.account (resident 4))
      [⟨⟨0⟩, .ratio ⟨2, 5⟩⟩])).run loaded = .ok .empty paid := by
    refine Script.run_bind_eq_ok.mpr ⟨[2], paid, ?_, rfl⟩
    rw [List.mapM_cons]
    exact Script.run_bind_eq_ok.mpr ⟨2, paid, hpaid, rfl⟩
  refine ⟨paid, Script.run_bind_eq_ok.mpr ⟨(), loaded, run_receive_loaded, ?_⟩⟩
  rw [errand, steps_cons]
  exact Script.run_bind_eq_ok.mpr ⟨_, paid, hstep, rfl⟩

/-- The errand is the same, and does not touch it, where the fifth resident has an entry. -/
theorem execute_local_errand :
    let stranger := Storage.put purse (Ledger.key .zero (resident 5)) (some [1])
    (∀ i, courier.Scope village (courier.tried village errand [(⟨0⟩, 5)] purse) i →
      Storage.get? purse i.digest = Storage.get? stranger i.digest) ∧
    ∃ writes,
      courier.execute village errand [(⟨0⟩, 5)] purse = .ok .empty (Storage.putAll purse writes) ∧
      courier.execute village errand [(⟨0⟩, 5)] stranger =
        .ok .empty (Storage.putAll stranger writes) ∧
      Storage.get? (Storage.putAll stranger writes) (Ledger.key .zero (resident 5)) =
        some [1] := by
  intro stranger
  have hother : ∀ i, courier.Scope village (courier.tried village errand [(⟨0⟩, 5)] purse) i →
      i.digest ≠ Ledger.key .zero (resident 5) := by
    intro i hi
    have hnodup := nodup_digest_errandEntries
    rw [List.map_append, List.nodup_append] at hnodup
    exact hnodup.2.2 _ (List.mem_map_of_mem (mem_errandEntries_of_scope hi)) _
      (List.mem_singleton.mpr rfl)
  have hagree : ∀ i, courier.Scope village (courier.tried village errand [(⟨0⟩, 5)] purse) i →
      Storage.get? purse i.digest = Storage.get? stranger i.digest := by
    intro i hi
    rw [LawfulStorage.get?_put, if_neg (Ne.symm (hother i hi))]
  obtain ⟨t, hrun⟩ := run_errand
  obtain ⟨after, hwhole, -⟩ := Script.atomically_of_run_ok (fun _ => rfl) hrun
  refine ⟨hagree, ?_⟩
  rcases execute_local (fun _ => rfl) hagree with
    ⟨outcome, writes, hs, ht, -, hkept, -⟩ | ⟨e, hs, -⟩
  · obtain rfl : outcome = .empty := by
      cases hs.symm.trans hwhole
      rfl
    refine ⟨writes, hs, ht, ?_⟩
    rw [(hkept _ hother).2, LawfulStorage.get?_put, if_pos rfl]
  · cases hs.symm.trans hwhole

end Interpreter

end Crossnet
