import Crossnet.Proofs.Interpreter.Agreement
import Crossnet.Proofs.Program.Acceptance
import Crossnet.Proofs.Router.Ownership

/-!
# Deliveries that commute

Two delivered programs for different interpreters share the bridge, the escrow
and whomever they pay.  What the one leaves there can make the other fail, but not
do something else: a program that ends well is decided by what its own interpreter
holds.  So where neither concerns the balances of the other's interpreter, and
both orders end well, each delivery has the same outcome and the same effects in
both orders, and effects commute.

* `Delivery.leads_of_run`: a delivery does its effects.
* `Delivery.run_agree`: **a delivery goes the same way before and after the
  other.**
* `deliveries_commute`: **deliveries for different interpreters commute.**
-/

namespace Crossnet.Router

open Effect (Leads)
open Storage (AgreeOn)

/-- A program that a bridge delivers. -/
structure Delivery where
  caller : Address
  origin : Origin
  program : Bytes
  assets : List AssetId
  amounts : List UInt128

namespace Delivery

/-- Delivers the program. -/
def run (d : Delivery) : RouterM Outcome :=
  runProgram d.caller d.origin d.program d.assets d.amounts

/-- The effects of the delivery, if it ends well. -/
def effects (d : Delivery) (r : Router) : List Effect :=
  Call.effects r (.runProgram d.caller d.origin d.program d.assets d.amounts)

/-- The entries that its amounts and payloads are worked out from. -/
def consulted (d : Delivery) (r : Router) : List Identity :=
  match Program.accept d.program with
  | .ok program =>
    (Interpreter.ofOrigin d.origin).consulted (r.environment d.caller) program.instructions
  | .error _ => []

/-- The entries that it uses. -/
def uses (d : Delivery) (r : Router) : List Identity :=
  (d.effects r).flatMap Effect.identities ++ d.consulted r

/-- The delivery neither credits nor debits a balance of the address. -/
def Spares (d : Delivery) (r : Router) (address : Address) : Prop :=
  ∀ token, .balance token address ∉ (d.effects r).flatMap Effect.identities

variable {d other : Delivery} {r u t t' : Router} {x y : Outcome}

/-! ## A delivery that ends well -/

/-- The parts of a delivery that ends well: its opening, its instructions, and their effects. -/
theorem parts_of_run (h : d.run r = .ok x t) :
    ∃ program s, Program.accept d.program = .ok program ∧
      (r.opening d.caller d.origin (d.assets.zip d.amounts)).run r.store = .ok () s ∧
      ((Interpreter.ofOrigin d.origin).steps (r.environment d.caller) program.instructions
        .empty).run s = .ok x t.store ∧
      t = r.delivered d.origin program x t.store ∧
      d.effects r = r.foundEffects d.origin ++
        (Interpreter.ofOrigin d.origin).receiveEffects (r.environment d.caller)
          (d.assets.zip d.amounts) ++
        (Interpreter.ofOrigin d.origin).stepsEffects (r.environment d.caller)
          program.instructions s := by
  obtain ⟨-, -, program, haccept, -, store, hrun, rfl⟩ := runProgram_eq_ok.mp h
  rw [programScript_eq] at hrun
  obtain ⟨⟨⟩, s, hopening, hsteps⟩ := Script.run_bind_eq_ok.mp hrun
  refine ⟨program, s, haccept, hopening, hsteps, rfl, ?_⟩
  rw [effects, Call.effects, afterOpening, haccept]
  dsimp only
  rw [Script.after_of_ok hopening]

/-- **A delivery does its effects**, where no contract is registered. -/
theorem leads_of_run (hcontracts : r.registry.contracts = []) (h : d.run r = .ok x t) :
    Leads (d.effects r) r.store t.store := by
  obtain ⟨program, s, -, hopening, hsteps, -, heffects⟩ := parts_of_run h
  rw [heffects]
  refine Effect.leads_append.mpr ⟨s, leads_opening hopening, ?_⟩
  exact Interpreter.leads_steps (contract?_eq_none hcontracts) hsteps

/-- What a delivery consults is what its interpreter holds. -/
theorem eq_balance_of_consulted {i : Identity} (h : i ∈ d.consulted r) :
    ∃ token, i = .balance token d.origin.interpreterAddress := by
  unfold consulted at h
  split at h
  · exact Interpreter.eq_balance_of_consulted h
  · cases h

theorem isEntry_of_mem_uses {i : Identity} (h : i ∈ d.uses r) : i.IsEntry := by
  rcases List.mem_append.mp h with h | h
  · exact Effect.isEntry_of_mem_flatMap h
  · obtain ⟨token, rfl⟩ := eq_balance_of_consulted h
    trivial

/-- The owners that a delivery sets or changes are those of its interpreter. -/
theorem eq_of_owners_mem {interpreter : Address}
    (h : .owners interpreter ∈ (d.effects r).flatMap Effect.identities) :
    interpreter = d.origin.interpreterAddress := by
  obtain ⟨e, he, hi⟩ := List.mem_flatMap.mp h
  rcases mem_delivery he with rfl | ⟨asset, amount, token, -, -, rfl⟩ |
    ⟨token, payee, amount, rfl⟩ | ⟨call, rfl⟩
  · cases List.mem_singleton.mp hi
    rfl
  · rcases List.mem_pair.mp hi with heq | heq <;> cases heq
  · rcases List.mem_pair.mp hi with heq | heq <;> cases heq
  · cases List.mem_singleton.mp hi
    rfl

/-! ## The same delivery on two routers -/

/-- To the delivery, the routers differ in their stores alone. -/
structure Beside (d : Delivery) (r u : Router) : Prop where
  config : u.config = r.config
  registry : u.registry = r.registry
  interpreter : u.hasInterpreter d.origin = r.hasInterpreter d.origin

/-- A delivery for another origin leaves such a router. -/
theorem beside_of_run (horigin : other.origin ≠ d.origin) (h : other.run r = .ok x u) :
    d.Beside r u := by
  obtain ⟨program, s, -, -, -, hu, -⟩ := parts_of_run h
  refine ⟨by rw [hu]; rfl, by rw [hu]; rfl, ?_⟩
  have hinterpreters : u.interpreters =
      if r.hasInterpreter other.origin then r.interpreters else other.origin :: r.interpreters := by
    rw [hu]
    rfl
  rw [hasInterpreter_of_interpreters hinterpreters, decide_eq_false horigin, Bool.or_false]

theorem Beside.environment (h : d.Beside r u) :
    u.environment d.caller = r.environment d.caller := by
  unfold Router.environment
  rw [h.config, h.registry]

/-- **A delivery that ends well on both routers goes the same way**, where the entries agree that
its amounts and payloads are worked out from. -/
theorem run_agree (hcontracts : r.registry.contracts = []) (hbeside : d.Beside r u)
    (hagree : ∀ i ∈ d.consulted r, Storage.get? r.store i.digest = Storage.get? u.store i.digest)
    (hr : d.run r = .ok x t) (hu : d.run u = .ok y t') :
    x = y ∧ d.effects r = d.effects u := by
  obtain ⟨program, s, haccept, hopening, hsteps, -, heffects⟩ := parts_of_run hr
  obtain ⟨program', s', haccept', hopening', hsteps', -, heffects'⟩ := parts_of_run hu
  obtain rfl : program' = program := Except.ok.inj (haccept'.symm.trans haccept)
  have hfound : u.foundEffects d.origin = r.foundEffects d.origin := by
    unfold foundEffects
    rw [hbeside.interpreter]
  have hleads := leads_opening hopening
  have hleads' := leads_opening hopening'
  rw [hfound, hbeside.environment] at hleads' heffects'
  rw [hbeside.environment] at hsteps'
  have hcontract : ∀ address, (r.environment d.caller).host.contract address = none :=
    contract?_eq_none hcontracts
  -- The openings have the same effects, so the stores agree on these keys after them as well.
  let keys : Set Digest := fun key => ∃ i ∈ d.consulted r, i.digest = key
  have hbefore : AgreeOn keys r.store u.store := by
    rintro key ⟨i, hi, rfl⟩
    exact hagree i hi
  have hkeys : ∀ i ∈ (Interpreter.ofOrigin d.origin).consulted (r.environment d.caller)
      program'.instructions, i.digest ∈ keys := by
    intro i hi
    refine ⟨i, ?_, rfl⟩
    rw [consulted, haccept]
    exact hi
  obtain ⟨houtcome, hlater⟩ := Interpreter.steps_agree hcontract hkeys
    (Effect.agreeOn_of_leads hleads hleads' hbefore) hsteps hsteps'
  rw [heffects, heffects', hlater]
  exact ⟨houtcome, rfl⟩

end Delivery

/-! ## Two deliveries -/

variable {r rA rB rAB rBA : Router} {A B : Delivery} {a a' b b' : Outcome}

/-- What a delivery consults is as it was after another one that spares its interpreter. -/
theorem get?_consulted (hcontracts : r.registry.contracts = [])
    (hspares : B.Spares r A.origin.interpreterAddress)
    (hsha : CollisionFree (A.uses r ++ B.uses r)) (hrun : B.run r = .ok b rB) :
    ∀ i ∈ A.consulted r, Storage.get? r.store i.digest = Storage.get? rB.store i.digest := by
  intro i hi
  have hentries : ∀ {j}, j ∈ A.uses r ++ B.uses r → j.IsEntry := by
    intro j hj
    rcases List.mem_append.mp hj with hj | hj
    · exact Delivery.isEntry_of_mem_uses hj
    · exact Delivery.isEntry_of_mem_uses hj
  have halone := hsha.alone_of_mem hentries
    (List.mem_append_left _ (List.mem_append_right ((A.effects r).flatMap Effect.identities) hi))
  refine (Effect.get?_of_leads_of_ne (Delivery.leads_of_run hcontracts hrun) ?_).symm
  intro j hj hdigest
  obtain rfl := halone j (List.mem_append_right _ (List.mem_append_left _ hj)) hdigest
  obtain ⟨token, rfl⟩ := Delivery.eq_balance_of_consulted hi
  exact hspares token hj

/-- **Deliveries for different interpreters commute.**  Let no contract be registered, and let two
deliveries be for different interpreters, such that neither credits or debits a balance of the
other's interpreter.  If they end well in either order, each has the same outcome in both orders,
and the stores are the same in the end.  They may share the bridge, the escrow and whom they pay;
the hash must not take two entries that they use to one key. -/
theorem deliveries_commute (hcontracts : r.registry.contracts = [])
    (haddress : A.origin.interpreterAddress ≠ B.origin.interpreterAddress)
    (hA : A.Spares r B.origin.interpreterAddress) (hB : B.Spares r A.origin.interpreterAddress)
    (hsha : CollisionFree (A.uses r ++ B.uses r))
    (hrunA : A.run r = .ok a rA) (hrunAB : B.run rA = .ok b' rAB)
    (hrunB : B.run r = .ok b rB) (hrunBA : A.run rB = .ok a' rBA) :
    a = a' ∧ b = b' ∧ rAB.store = rBA.store := by
  have horigin : A.origin ≠ B.origin := fun heq => haddress (congrArg _ heq)
  have hswap : CollisionFree (B.uses r ++ A.uses r) :=
    hsha.mono (List.append_subset.mpr ⟨List.subset_append_right _ _, List.subset_append_left _ _⟩)
  have heffects : CollisionFree
      ((A.effects r).flatMap Effect.identities ++ (B.effects r).flatMap Effect.identities) :=
    hsha.mono (List.append_subset.mpr
      ⟨List.subset_append_of_subset_left _ (List.subset_append_left _ _),
        List.subset_append_of_subset_right _ (List.subset_append_left _ _)⟩)
  have hbesideA : A.Beside r rB := Delivery.beside_of_run horigin.symm hrunB
  have hbesideB : B.Beside r rA := Delivery.beside_of_run horigin hrunA
  obtain ⟨ha, hsameA⟩ := Delivery.run_agree hcontracts hbesideA
    (get?_consulted hcontracts hB hsha hrunB) hrunA hrunBA
  obtain ⟨hb, hsameB⟩ := Delivery.run_agree hcontracts hbesideB
    (get?_consulted hcontracts hA hswap hrunA) hrunB hrunAB
  have hcontractsA : rA.registry.contracts = [] := by rw [hbesideB.registry, hcontracts]
  have hcontractsB : rB.registry.contracts = [] := by rw [hbesideA.registry, hcontracts]
  have hfirst : Leads (A.effects r ++ B.effects r) r.store rAB.store := by
    refine Effect.leads_append.mpr ⟨_, Delivery.leads_of_run hcontracts hrunA, ?_⟩
    rw [hsameB]
    exact Delivery.leads_of_run hcontractsA hrunAB
  have hsecond : Leads (B.effects r ++ A.effects r) r.store rBA.store := by
    refine Effect.leads_append.mpr ⟨_, Delivery.leads_of_run hcontracts hrunB, ?_⟩
    rw [hsameA]
    exact Delivery.leads_of_run hcontractsB hrunBA
  refine ⟨ha, hb, (Effect.leads_comm hfirst hsecond heffects ?_).eq⟩
  intro interpreter hownersA hownersB
  have hA := Delivery.eq_of_owners_mem hownersA
  have hB := Delivery.eq_of_owners_mem hownersB
  exact haddress (hA.symm.trans hB)

/-! ## Two deposits of one bridge -/

/-- A delivery that brings an amount along and does nothing with it. -/
def deposit (origin : Origin) (amount : UInt128) : Delivery :=
  ⟨.zero, origin, (Program.mk [] []).toWire, [⟨1⟩], [amount]⟩

section Deposit

variable {r : Router} {origin : Origin} {amount held : UInt128}

/-- A deposit for a new interpreter sets its first owner and moves the amount there. -/
theorem effects_deposit (htoken : r.registry.assetHandle? ⟨1⟩ = some .zero)
    (hnew : r.hasInterpreter origin = false) :
    (deposit origin amount).effects r =
      [.found origin.interpreterAddress origin.account,
        .move .zero .zero origin.interpreterAddress amount] := by
  have hfound : r.foundEffects origin = [.found origin.interpreterAddress origin.account] := by
    rw [foundEffects, hnew]
    rfl
  have hreceive : (Interpreter.ofOrigin origin).receiveEffects (r.environment .zero)
      [(⟨1⟩, amount)] = [.move .zero .zero origin.interpreterAddress amount] := by
    have hhandle : (r.environment .zero).host.assetHandle ⟨1⟩ = some .zero := htoken
    simp only [Interpreter.receiveEffects, List.filterMap_cons, hhandle, Option.map_some,
      List.filterMap_nil]
    rfl
  have hafter : r.afterOpening .zero origin (Program.mk [] []).toWire [(⟨1⟩, amount)]
      Interpreter.stepsEffects = [] := by
    rw [afterOpening, Program.accept_nothing]
    dsimp only
    unfold Script.after
    split
    · rfl
    · rfl
  show r.foundEffects origin ++
    (Interpreter.ofOrigin origin).receiveEffects (r.environment .zero) [(⟨1⟩, amount)] ++
      r.afterOpening .zero origin (Program.mk [] []).toWire [(⟨1⟩, amount)] _ = _
  rw [hfound, hreceive, hafter]
  rfl

theorem uses_deposit (htoken : r.registry.assetHandle? ⟨1⟩ = some .zero)
    (hnew : r.hasInterpreter origin = false) :
    (deposit origin amount).uses r =
      [.owners origin.interpreterAddress, .balance .zero .zero,
        .balance .zero origin.interpreterAddress] := by
  have hconsulted : (deposit origin amount).consulted r = [] := by
    unfold Delivery.consulted deposit
    rw [Program.accept_nothing]
    rfl
  rw [Delivery.uses, hconsulted, effects_deposit htoken hnew]
  rfl

theorem spares_deposit (htoken : r.registry.assetHandle? ⟨1⟩ = some .zero)
    (hnew : r.hasInterpreter origin = false) {address : Address} (hbridge : address ≠ .zero)
    (hother : address ≠ origin.interpreterAddress) :
    (deposit origin amount).Spares r address := by
  intro token hmem
  rw [effects_deposit htoken hnew] at hmem
  rcases List.mem_cons.mp hmem with heq | hmem
  · cases heq
  · rcases List.mem_pair.mp hmem with heq | heq
    · exact hbridge (Identity.balance.inj heq).2
    · exact hother (Identity.balance.inj heq).2

/-- The store after a deposit for a new interpreter, which leaves the bridge an amount. -/
def deposited (s : Store) (origin : Origin) (left amount : UInt128) : Store :=
  let founded := Owners.setOwners s (Owners.key origin.interpreterAddress)
    (.ofList [origin.account])
  Ledger.setAmount (Ledger.setAmount founded (Ledger.key .zero .zero) left)
    (Ledger.key .zero origin.interpreterAddress) amount

theorem amountAt?_deposited {key : Digest} (hne : Owners.key origin.interpreterAddress ≠ key)
    (s : Store) (left amount : UInt128) :
    Ledger.amountAt? (deposited s origin left amount) key =
      if Ledger.key .zero origin.interpreterAddress = key then some amount
      else if Ledger.key .zero .zero = key then some left else Ledger.amountAt? s key := by
  rw [deposited, Ledger.amountAt?_setAmount, Ledger.amountAt?_setAmount, Owners.setOwners,
    Ledger.amountAt?_put_of_ne _ hne]

/-- A deposit ends well where the bridge holds the amount and the new interpreter holds nothing. -/
theorem run_deposit (hbridge : r.registry.bridge? origin.network = some .zero)
    (htoken : r.registry.assetHandle? ⟨1⟩ = some .zero) (hnew : r.hasInterpreter origin = false)
    (hkeys : [Ledger.key .zero .zero, Owners.key origin.interpreterAddress,
      Ledger.key .zero origin.interpreterAddress].Nodup)
    (hpayer : Ledger.amountAt? r.store (Ledger.key .zero .zero) = some held) (hle : amount ≤ held)
    (hpayee : Ledger.amountAt? r.store (Ledger.key .zero origin.interpreterAddress) = some 0) :
    (deposit origin amount).run r = .ok .empty (r.delivered origin ⟨[], []⟩ .empty
      (deposited r.store origin (held - amount) amount)) := by
  have hpayers := (List.nodup_cons.mp hkeys).1
  have howners := (List.nodup_cons.mp (List.nodup_cons.mp hkeys).2).1
  rw [List.mem_pair, not_or] at hpayers
  rw [List.mem_singleton] at howners
  let founded := Owners.setOwners r.store (Owners.key origin.interpreterAddress)
    (.ofList [origin.account])
  have hmove : (Interpreter.onLedger
      (Ledger.transfer .zero .zero origin.interpreterAddress amount)).run founded =
        .ok () (deposited r.store origin (held - amount) amount) := by
    have hheld : Ledger.amountAt? founded (Ledger.key .zero .zero) = some held :=
      (Ledger.amountAt?_put_of_ne _ (Ne.symm hpayers.1) _).trans hpayer
    have hnothing : Ledger.amountAt? founded (Ledger.key .zero origin.interpreterAddress) =
        some 0 := (Ledger.amountAt?_put_of_ne _ howners _).trans hpayee
    exact Script.run_mapError_eq_ok.mpr
      (Ledger.run_transfer_of_ne hpayers.2 hheld hle hnothing (Nat.zero_add _))
  have hhandle : (Interpreter.token (r.environment .zero) ⟨1⟩).run founded = .ok .zero founded :=
    Interpreter.run_token_eq_ok.mpr ⟨htoken, rfl⟩
  have hopening : (r.opening .zero origin [(⟨1⟩, amount)]).run r.store =
      .ok () (deposited r.store origin (held - amount) amount) := by
    unfold opening
    rw [hnew]
    refine Script.run_bind_eq_ok.mpr ⟨(), founded, rfl, ?_⟩
    refine Script.run_bind_eq_ok.mpr ⟨(), _, ?_, rfl⟩
    exact Script.run_bind_eq_ok.mpr ⟨.zero, founded, hhandle, hmove⟩
  have hassets : ∀ asset ∈ [AssetId.mk 1], (r.registry.assetHandle? asset).isSome := by
    intro asset hasset
    rw [List.mem_singleton.mp hasset, htoken]
    rfl
  refine runProgram_eq_ok.mpr ⟨hbridge, rfl, ⟨[], []⟩, Program.accept_nothing, hassets, _, ?_, rfl⟩
  rw [programScript_eq]
  exact Script.run_bind_eq_ok.mpr ⟨(), _, hopening, rfl⟩

end Deposit

/-- A router whose bridge of network `1` holds five. -/
def stocked : Router :=
  (replay bridged [.registerAsset .zero .zero ⟨1⟩, .mint .zero ⟨1⟩ .zero 5]).2

/-- An origin on network `1`. -/
def depositor (account : UInt8) : Origin := ⟨⟨1⟩, ⟨FixedBytes.replicate 20 account⟩⟩

/-- The entries that deposits for two origins use. -/
def depositEntries (first second : Origin) : List Identity :=
  [.balance .zero .zero, .owners first.interpreterAddress, .balance .zero first.interpreterAddress,
    .owners second.interpreterAddress, .balance .zero second.interpreterAddress]

theorem nodup_digest_depositEntries :
    ((depositEntries (depositor 1) (depositor 2)).map Identity.digest).Nodup := by
  refine Identity.nodup_digest ?_
  simp only [depositEntries, List.map_cons, List.map_nil, Identity.preimage, Identity.body,
    Origin.interpreterAddress, Identity.toList_ofDigest_digest]
  decide +kernel

theorem amountAt?_stocked (key : Digest) :
    Ledger.amountAt? stocked.store key =
      if Ledger.key .zero .zero = key then some 5 else some 0 := by
  have hstore : stocked.store = Ledger.setAmount Store.empty (Ledger.key .zero .zero) 5 := rfl
  rw [hstore, Ledger.amountAt?_setAmount, Ledger.amountAt?_empty]

/-- Two deposits, one after the other, end well. -/
theorem run_deposits {first second : Origin} {x y : UInt128} (hfirst : first.network = ⟨1⟩)
    (hsecond : second.network = ⟨1⟩) (hne : first ≠ second)
    (hkeys : [Ledger.key .zero .zero, Owners.key first.interpreterAddress,
      Ledger.key .zero first.interpreterAddress, Owners.key second.interpreterAddress,
      Ledger.key .zero second.interpreterAddress].Nodup)
    (hx : x ≤ 5) (hy : y ≤ 5 - x) :
    ∃ t u, (deposit first x).run stocked = .ok .empty t ∧
      (deposit second y).run t = .ok .empty u := by
  have hbridge : ∀ {origin : Origin}, origin.network = ⟨1⟩ →
      stocked.registry.bridge? origin.network = some .zero := by
    intro origin hnetwork
    rw [hnetwork]
    rfl
  have hnew : (stocked.delivered first ⟨[], []⟩ .empty
      (deposited stocked.store first (5 - x) x)).hasInterpreter second = false := by
    have hinterpreters : (stocked.delivered first ⟨[], []⟩ .empty
        (deposited stocked.store first (5 - x) x)).interpreters = [first] := rfl
    rw [hasInterpreter, hinterpreters]
    simp [hne.symm]
  have hfirstKeys := hkeys.sublist (List.prefix_append [_, _, _] [_, _]).sublist
  have hsecondKeys := hkeys.sublist ((List.sublist_append_right [_, _] [_, _]).cons_cons _)
  obtain ⟨⟨hfound, hpayee, -, hlast, -⟩, ⟨-, -, hother, -⟩, ⟨-, hpayees, -⟩, -⟩ : _ := by
    simpa only [List.nodup_cons, List.mem_cons, not_or] using hkeys
  have hheld : Ledger.amountAt? stocked.store (Ledger.key .zero .zero) = some 5 := by
    rw [amountAt?_stocked, if_pos rfl]
  have hnothing : Ledger.amountAt? stocked.store
      (Ledger.key .zero first.interpreterAddress) = some 0 := by
    rw [amountAt?_stocked, if_neg hpayee]
  have hleft : Ledger.amountAt? (deposited stocked.store first (5 - x) x)
      (Ledger.key .zero .zero) = some (5 - x) := by
    rw [amountAt?_deposited (Ne.symm hfound), if_neg (Ne.symm hpayee), if_pos rfl]
  have hstill : Ledger.amountAt? (deposited stocked.store first (5 - x) x)
      (Ledger.key .zero second.interpreterAddress) = some 0 := by
    rw [amountAt?_deposited hother, if_neg hpayees, if_neg hlast, amountAt?_stocked, if_neg hlast]
  exact ⟨_, _, run_deposit (hbridge hfirst) rfl rfl hfirstKeys hheld hx hnothing,
    run_deposit (hbridge hsecond) rfl hnew hsecondKeys hleft hy hstill⟩

/-- Two deposits that take all that the bridge holds, in either order. -/
theorem deliveries_commute_deposits :
    ∃ rA rAB rB rBA, (deposit (depositor 1) 2).run stocked = .ok .empty rA ∧
      (deposit (depositor 2) 3).run rA = .ok .empty rAB ∧
      (deposit (depositor 2) 3).run stocked = .ok .empty rB ∧
      (deposit (depositor 1) 2).run rB = .ok .empty rBA ∧ rAB.store = rBA.store := by
  have hkeys : [Ledger.key .zero .zero, Owners.key (depositor 1).interpreterAddress,
      Ledger.key .zero (depositor 1).interpreterAddress,
      Owners.key (depositor 2).interpreterAddress,
      Ledger.key .zero (depositor 2).interpreterAddress].Nodup := nodup_digest_depositEntries
  have hswapped := ((@List.perm_append_comm _ [_, _] [_, _]).cons _).nodup hkeys
  have hne : depositor 1 ≠ depositor 2 := by decide
  obtain ⟨rA, rAB, hrunA, hrunAB⟩ :=
    run_deposits rfl rfl hne hkeys (show (2 : UInt128) ≤ 5 by decide)
      (show (3 : UInt128) ≤ 5 - 2 by decide)
  obtain ⟨rB, rBA, hrunB, hrunBA⟩ :=
    run_deposits rfl rfl hne.symm hswapped (show (3 : UInt128) ≤ 5 by decide)
      (show (2 : UInt128) ≤ 5 - 3 by decide)
  obtain ⟨⟨-, hfirst, -, hsecond, -⟩, -, ⟨-, hpayees, -⟩, -⟩ : _ := by
    simpa only [List.nodup_cons, List.mem_cons, not_or] using hkeys
  have haddress : (depositor 1).interpreterAddress ≠ (depositor 2).interpreterAddress :=
    fun h => hpayees (congrArg (Ledger.key .zero) h)
  have hspares₁ : (deposit (depositor 1) 2).Spares stocked (depositor 2).interpreterAddress :=
    spares_deposit rfl rfl (fun h => hsecond (congrArg (Ledger.key .zero) h.symm)) haddress.symm
  have hspares₂ : (deposit (depositor 2) 3).Spares stocked (depositor 1).interpreterAddress :=
    spares_deposit rfl rfl (fun h => hfirst (congrArg (Ledger.key .zero) h.symm)) haddress
  have hsha : CollisionFree
      ((deposit (depositor 1) 2).uses stocked ++ (deposit (depositor 2) 3).uses stocked) := by
    refine (collisionFree_of_nodup nodup_digest_depositEntries).mono ?_
    rw [uses_deposit rfl rfl, uses_deposit rfl rfl]
    simp [depositEntries]
  have hcommute := deliveries_commute (A := deposit (depositor 1) 2) (B := deposit (depositor 2) 3)
    rfl haddress hspares₁ hspares₂ hsha hrunA hrunAB hrunB hrunBA
  exact ⟨rA, rAB, rB, rBA, hrunA, hrunAB, hrunB, hrunBA, hcommute.2.2⟩

end Crossnet.Router
