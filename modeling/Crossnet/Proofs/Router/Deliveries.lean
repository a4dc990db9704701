import Crossnet.Proofs.Interpreter.Execution
import Crossnet.Proofs.Router.Effects

/-!
# Deliveries that are known to end

Where it is known what the instructions of a delivered program come to, it is known
what the delivery does: its answer, its effects and the router after it.  A program
whose script fails leaves nothing at all.

* `Arrives`: a delivered program that ends well, part by part.
* `Arrives.answer_eq`, `after_eq`, `effects_eq`: **what the delivery comes to.**
* `Camp.arrives`, `Camp.isOk_eq_false`: where the holders are known, a program
  arrives if its instructions end well, and fails if they fail.
* `effects_expedition`: a run in which one program brings assets along and adds an
  owner, one pays and spawns, and one fails half done.
-/

namespace Crossnet.Router

variable {r : Router} {caller : Address} {origin : Origin} {bytes : Bytes} {assets : List AssetId}
  {amounts : List UInt128} {program : Program} {outcome : Outcome} {es : List Effect} {s t : Store}

/-! ## What comes before the instructions -/

theorem run_opening (r : Router) (caller : Address) (origin : Origin)
    (incoming : List (AssetId × UInt128)) :
    (r.opening caller origin incoming).run r.store =
      ((Interpreter.ofOrigin origin).receive (r.environment caller) incoming).run
        (r.created origin).store := by
  unfold opening created
  cases r.hasInterpreter origin with
  | true => rfl
  | false => rfl

/-! ## The first owners -/

theorem size_founder_lt (origin : Origin) :
    (Std.ExtTreeSet.ofList [origin.account] : AddressSet).size < 2 ^ 64 := by
  have hone : (Std.ExtTreeSet.ofList [origin.account] : AddressSet).size ≤ 1 :=
    Std.ExtTreeSet.size_ofList_le
  omega

theorem size_joined_lt (origin : Origin) (address : Address) :
    ((OwnerCall.add [address]).change (.ofList [origin.account])).size < 2 ^ 64 := by
  have hone : (Std.ExtTreeSet.ofList [origin.account] : AddressSet).size ≤ 1 :=
    Std.ExtTreeSet.size_ofList_le
  have htwo : ((OwnerCall.add [address]).change (.ofList [origin.account])).size ≤
      (Std.ExtTreeSet.ofList [origin.account] : AddressSet).size + 1 :=
    Std.ExtTreeSet.size_insert_le
  omega

/-- The owners once the interpreter is created, where it was not. -/
def ownersFound (r : Router) (origin : Origin) (owners : AddressSet) : AddressSet :=
  if r.hasInterpreter origin then owners else .ofList [origin.account]

/-! ## Programs that end well -/

/-- The delivered program is let in, and it ends well with these effects of its instructions. -/
structure Arrives (r : Router) (caller : Address) (origin : Origin) (program : Program)
    (assets : List AssetId) (amounts : List UInt128) (outcome : Outcome) (es : List Effect)
    (t : Store) : Prop where
  bridge : r.registry.bridge? origin.network = some caller
  lengths : assets.length = amounts.length
  accepted : Program.accept program.toWire = .ok program
  known : ∀ asset ∈ assets, (r.registry.assetHandle? asset).isSome
  goes : ∃ s : Store,
    ((Interpreter.ofOrigin origin).receive (r.environment caller) (assets.zip amounts)).run
      (r.created origin).store = .ok () s ∧
    (Interpreter.ofOrigin origin).Goes (r.environment caller) program.instructions s outcome es t

namespace Arrives

variable (h : Arrives r caller origin program assets amounts outcome es t)

include h

theorem runProgram_eq : runProgram caller origin program.toWire assets amounts r =
    .ok outcome (r.delivered origin program outcome t) := by
  obtain ⟨s, hreceive, hgoes⟩ := h.goes
  refine runProgram_eq_ok.mpr ⟨h.bridge, h.lengths, program, h.accepted, h.known, t, ?_, rfl⟩
  rw [programScript_eq]
  exact Script.run_bind_eq_ok.mpr ⟨(), s, (run_opening r _ _ _).trans hreceive, hgoes.run⟩

theorem perform_eq : (Call.runProgram caller origin program.toWire assets amounts).perform r =
    .ok (.outcome outcome) (r.delivered origin program outcome t) :=
  bind_pure_eq_ok.mpr ⟨outcome, h.runProgram_eq, rfl⟩

theorem answer_eq : Moment.answer ⟨r, .runProgram caller origin program.toWire assets amounts⟩ =
    .ok (.outcome outcome) := by
  unfold Moment.answer Call.result
  rw [h.perform_eq]

theorem after_eq : Moment.after ⟨r, .runProgram caller origin program.toWire assets amounts⟩ =
    r.delivered origin program outcome t := by
  unfold Moment.after Call.result
  rw [h.perform_eq]

/-- **The effects of the delivery**: the first owner of a new interpreter, what comes along, and
what the instructions do. -/
theorem effects_eq : Moment.effects ⟨r, .runProgram caller origin program.toWire assets amounts⟩ =
    r.foundEffects origin ++
      (Interpreter.ofOrigin origin).receiveEffects (r.environment caller) (assets.zip amounts) ++
      es := by
  obtain ⟨s, hreceive, hgoes⟩ := h.goes
  rw [Moment.effects_of_isOk (by rw [h.answer_eq]; rfl), Call.effects, afterOpening, h.accepted]
  dsimp only
  rw [Script.after_of_ok ((run_opening r _ _ _).trans hreceive), hgoes.effects_eq]

end Arrives

/-! ## Programs that fail -/

/-- A delivered program whose script fails is refused. -/
theorem isOk_of_run_error {e : ExecutionError} (haccept : Program.accept bytes = .ok program)
    (hrun : (programScript (.ofOrigin origin) (r.environment caller) (!r.hasInterpreter origin)
      program (assets.zip amounts)).run r.store = .error e s) :
    (Moment.answer ⟨r, .runProgram caller origin bytes assets amounts⟩).isOk = false := by
  refine Bool.eq_false_iff.mpr fun hok => ?_
  obtain ⟨answer, hperforms⟩ := Moment.performs_of_isOk _ hok
  generalize Moment.after _ = u at hperforms
  -- Had the call ended well, so had its script.
  cases hperforms with
  | runProgram _ _ haccept' _ hrun' =>
    rw [haccept] at haccept'
    cases haccept'
    rw [hrun] at hrun'
    cases hrun'

/-! ## Deliveries among holders that are known -/

section Camp

open Company (moved)

variable {ι : Type} {C : Company ι} {bridge : ι} {asset : AssetId} {amount : UInt128}
  {held left : ι → UInt128} {owners changed : AddressSet}

/-- The router of holders that are known: the bridge that delivers for the origin of the
interpreter, the asset whose token they hold, and what they have of it. -/
structure Camp (r : Router) (C : Company ι) (origin : Origin) (bridge : ι) (asset : AssetId)
    (held : ι → UInt128) (owners : AddressSet) : Prop where
  self_eq : C.holder C.self = origin.interpreterAddress
  bridge_eq : r.registry.bridge? origin.network = some (C.holder bridge)
  token_eq : r.registry.assetHandle? asset = some C.token
  stock : C.Stock r.store held owners

namespace Camp

variable (h : Camp r C origin bridge asset held owners)

include h

theorem assetHandle_eq (caller : Address) :
    (r.environment caller).host.assetHandle asset = some C.token :=
  h.token_eq

theorem address_eq : (Interpreter.ofOrigin origin).address = C.holder C.self :=
  h.self_eq.symm

theorem stock_created :
    C.Stock (r.created origin).store held (r.ownersFound origin owners) := by
  unfold created ownersFound
  -- A new interpreter writes its owners' entry, which is none of the holders'.
  cases r.hasInterpreter origin with
  | true => exact h.stock
  | false =>
    have hfound := h.stock.setOwners (size_founder_lt origin)
    rw [h.self_eq] at hfound
    exact hfound

/-- What comes along is one payment. -/
theorem receiveEffects_eq : (Interpreter.ofOrigin origin).receiveEffects
    (r.environment (C.holder bridge)) [(asset, amount)] =
      [.move C.token (C.holder bridge) (C.holder C.self) amount] := by
  rw [h.self_eq]
  simp only [Interpreter.receiveEffects, List.filterMap_cons, h.assetHandle_eq, Option.map_some,
    List.filterMap_nil]
  rfl

/-- The effects of a program that arrives. -/
theorem effects_eq (harrives : Arrives r (C.holder bridge) origin program [asset] [amount] outcome
    es t) :
    Moment.effects ⟨r, .runProgram (C.holder bridge) origin program.toWire [asset] [amount]⟩ =
      r.foundEffects origin ++ .move C.token (C.holder bridge) (C.holder C.self) amount :: es := by
  rw [harrives.effects_eq, List.zip_cons_cons, List.zip_nil_left, h.receiveEffects_eq,
    List.append_assoc]
  rfl

variable [DecidableEq ι]

/-- The interpreter receives what the bridge has. -/
theorem receives (hbridge : bridge ≠ C.self) (hle : amount ≤ held bridge)
    (hroom : (held C.self).toNat + amount.toNat < 2 ^ 128) :
    ∃ s, ((Interpreter.ofOrigin origin).receive (r.environment (C.holder bridge))
        [(asset, amount)]).run (r.created origin).store = .ok () s ∧
      C.Stock s (moved bridge C.self amount held) (r.ownersFound origin owners) := by
  obtain ⟨s, hmove, hstock⟩ := h.stock_created.transfer hbridge hle hroom
  rw [h.self_eq] at hmove
  exact ⟨s, Interpreter.run_receive_singleton h.token_eq hmove, hstock⟩

/-- **A program arrives if its instructions end well** where it was paid for. -/
theorem arrives (hbridge : bridge ≠ C.self)
    (haccept : Program.accept program.toWire = .ok program) (hle : amount ≤ held bridge)
    (hroom : (held C.self).toNat + amount.toNat < 2 ^ 128)
    (hgoes : ∀ s : Store,
      C.Stock s (moved bridge C.self amount held) (r.ownersFound origin owners) →
        ∃ t, (Interpreter.ofOrigin origin).Goes (r.environment (C.holder bridge))
          program.instructions s outcome es t ∧ C.Stock t left changed) :
    ∃ t, Arrives r (C.holder bridge) origin program [asset] [amount] outcome es t ∧
      Camp (Moment.after ⟨r, .runProgram (C.holder bridge) origin program.toWire [asset] [amount]⟩)
        C origin bridge asset left changed := by
  obtain ⟨s, hreceive, hpaid⟩ := h.receives hbridge hle hroom
  obtain ⟨t, hends, hstock⟩ := hgoes s hpaid
  have hknown : ∀ a ∈ [asset], (r.registry.assetHandle? a).isSome := by
    intro a ha
    rw [List.mem_singleton.mp ha, h.token_eq]
    rfl
  have harrives : Arrives r (C.holder bridge) origin program [asset] [amount] outcome es t :=
    ⟨h.bridge_eq, rfl, haccept, hknown, s, hreceive, hends⟩
  refine ⟨t, harrives, ?_⟩
  rw [harrives.after_eq]
  exact ⟨h.self_eq, h.bridge_eq, h.token_eq, hstock⟩

/-- **A program fails if its instructions fail** where it was paid for. -/
theorem isOk_eq_false (hbridge : bridge ≠ C.self)
    (haccept : Program.accept program.toWire = .ok program) (hle : amount ≤ held bridge)
    (hroom : (held C.self).toNat + amount.toNat < 2 ^ 128)
    (hfails : ∀ s : Store,
      C.Stock s (moved bridge C.self amount held) (r.ownersFound origin owners) →
        ∃ e t, ((Interpreter.ofOrigin origin).steps (r.environment (C.holder bridge))
          program.instructions .empty).run s = .error e t) :
    (Moment.answer ⟨r, .runProgram (C.holder bridge) origin program.toWire [asset]
      [amount]⟩).isOk = false := by
  obtain ⟨s, hreceive, hpaid⟩ := h.receives hbridge hle hroom
  obtain ⟨e, t, hsteps⟩ := hfails s hpaid
  refine isOk_of_run_error haccept (e := e) (s := t) ?_
  rw [programScript_eq, List.zip_cons_cons, List.zip_nil_left]
  rw [Script.run_bind_of_ok ((run_opening r _ _ _).trans hreceive)]
  exact hsteps

end Camp

end Camp

/-! ## An expedition -/

/-- The origin that the expedition is for. -/
def explorer : Origin := ⟨⟨1⟩, ⟨.replicate 20 2⟩⟩

/-- Those who hold something on the expedition: the bridge, the interpreter, someone who is paid,
and the escrow. -/
inductive Party
  | carrier
  | explorer
  | guide
  | escrow
deriving DecidableEq

namespace Party

def address : Party → Address
  | carrier => ⟨.replicate 20 1⟩
  | explorer => Router.explorer.interpreterAddress
  | guide => ⟨.replicate 20 3⟩
  | escrow => fresh.config.network.escrowAddress

def all : List Party := [carrier, explorer, guide, escrow]

theorem mem_all (p : Party) : p ∈ all := by
  cases p <;> simp [all]

/-- An amount for each. -/
def shares (first second third fourth : UInt128) : Party → UInt128
  | carrier => first
  | explorer => second
  | guide => third
  | escrow => fourth

end Party

/-- The entries of the expedition. -/
def expeditionEntries : List Identity :=
  .owners explorer.interpreterAddress :: Party.all.map fun p => .balance .zero p.address

theorem nodup_digest_expeditionEntries : (expeditionEntries.map Identity.digest).Nodup := by
  refine Identity.nodup_digest ?_
  simp only [expeditionEntries, Party.all, Party.address, List.map_cons, List.map_nil,
    Identity.preimage, Identity.body, Origin.interpreterAddress, NetworkId.escrowAddress,
    Identity.toList_ofDigest_digest]
  decide +kernel

theorem nodup_expeditionKeys : (Owners.key explorer.interpreterAddress ::
    Party.all.map fun p => Ledger.key .zero p.address).Nodup := by
  have hnodup := nodup_digest_expeditionEntries
  rw [expeditionEntries, List.map_cons, List.map_map] at hnodup
  exact hnodup

/-- The parties of the expedition. -/
def company : Company Party where
  token := .zero
  holder := Party.address
  self := .explorer
  holders_apart p q hkey :=
    List.inj_on_of_nodup_map nodup_expeditionKeys.of_cons p.mem_all q.mem_all hkey
  owners_apart p hkey :=
    nodup_expeditionKeys.notMem (List.mem_map.mpr ⟨p, p.mem_all, hkey.symm⟩)

open Company (moved)
open Party (shares)

/-- What happens before the expedition: the carrier gets ten. -/
def outset : List Call :=
  [.registerBridge .zero Party.carrier.address ⟨1⟩, .registerAsset .zero .zero ⟨1⟩,
    .mint .zero ⟨1⟩ Party.carrier.address 10]

/-- The router that the expedition starts from. -/
def outpost : Router := (replay fresh outset).2

/-- A program for the explorer, which the carrier delivers along with an amount. -/
def dispatch (program : Program) (amount : UInt128) : Call :=
  .runProgram Party.carrier.address explorer program.toWire [⟨1⟩] [amount]

/-- The program that makes the guide an owner. -/
def outfitting : Program :=
  ⟨[], [Interpreter.toSelf (Wire.encode (OwnerCall.add [Party.guide.address]))]⟩

/-- The program that pays the guide and sends three to another network. -/
def venture : Program :=
  ⟨[], [.transfer (.account Party.guide.address) [⟨⟨1⟩, .absolute 2⟩],
    .spawn ⟨2⟩ [] 0 ⟨[], []⟩ [⟨⟨1⟩, .absolute 3⟩]]⟩

/-- The program that pays the guide more than there is. -/
def overdraft : Program :=
  ⟨[], [.transfer (.account Party.guide.address) [⟨⟨1⟩, .absolute 9⟩]]⟩

/-- What is sent to the other network. -/
def cargo : SpawnRecord :=
  ⟨explorer, ⟨2⟩, [], 0, (Program.mk [] []).toWire, [⟨1⟩], [3]⟩

/-- The owners once the guide is one. -/
def guides : AddressSet :=
  (OwnerCall.add [Party.guide.address]).change (.ofList [explorer.account])

theorem accept_outfitting : Program.accept outfitting.toWire = .ok outfitting :=
  Interpreter.accept_toSelf (by decide)

theorem accept_venture : Program.accept venture.toWire = .ok venture := by
  refine Program.accept_eq_ok_iff.mpr ⟨?_, rfl, by decide, ?_⟩
  · simp [venture, Program.Fits, Instruction.FitsAll, Instruction.Fits]
  · simp [venture, Program.WellFormed, Instruction.WellFormedAll, Instruction.WellFormed,
      Selector.Proper]

theorem accept_overdraft : Program.accept overdraft.toWire = .ok overdraft := by
  refine Program.accept_eq_ok_iff.mpr ⟨?_, rfl, by decide, ?_⟩
  · simp [overdraft, Program.Fits, Instruction.FitsAll, Instruction.Fits]
  · simp [overdraft, Program.WellFormed, Instruction.WellFormedAll, Instruction.WellFormed,
      Selector.Proper]

theorem camp_outpost : Camp outpost company explorer .carrier ⟨1⟩ (shares 10 0 0 0) ∅ where
  self_eq := rfl
  bridge_eq := rfl
  token_eq := rfl
  stock := by
    have hstore : outpost.store =
        Ledger.setAmount Store.empty (Ledger.key company.token (company.holder .carrier)) 10 := rfl
    have hten : Function.update (fun _ => 0) Party.carrier 10 = shares 10 0 0 0 := by
      funext p
      cases p <;> rfl
    rw [hstore, ← hten]
    exact company.stock_empty.setAmount .carrier 10

theorem moved_eq {payer payee : Party} {amount : UInt128} {before after : Party → UInt128}
    (h : ∀ p ∈ Party.all, moved payer payee amount before p = after p) :
    moved payer payee amount before = after :=
  funext fun p => h p p.mem_all

/-- The router once the guide is an owner. -/
def ready : Router := Moment.after ⟨outpost, dispatch outfitting 6⟩

theorem arrives_outfitting :
    ∃ t, Arrives outpost Party.carrier.address explorer outfitting [⟨1⟩] [6] (.answered [])
        [.manage explorer.interpreterAddress (.add [Party.guide.address])] t ∧
      Camp ready company explorer .carrier ⟨1⟩ (shares 4 6 0 0) guides := by
  refine camp_outpost.arrives (by decide) accept_outfitting (by decide) (by decide) ?_
  intro s hstock
  have hbrought : moved .carrier company.self 6 (shares 10 0 0 0) = shares 4 6 0 0 :=
    moved_eq (by decide)
  rw [hbrought] at hstock
  have hdecode : (Wire.decode (Wire.encode (OwnerCall.add [Party.guide.address])) :
      Except DecodeError _) = .ok (OwnerCall.add [Party.guide.address]) := rfl
  obtain ⟨t, hadd, hadded⟩ := hstock.does_toSelf camp_outpost.address_eq
    (outpost.environment Party.carrier.address) hdecode (size_joined_lt explorer _)
  exact ⟨t, .cons hadd (.nil _ _ _), hadded⟩

theorem ready_eq : ∃ t, ready = outpost.delivered explorer outfitting (.answered []) t := by
  obtain ⟨t, harrives, -⟩ := arrives_outfitting
  exact ⟨t, harrives.after_eq⟩

theorem camp_ready :
    Camp ready company explorer .carrier ⟨1⟩ (shares 4 6 0 0) guides := by
  obtain ⟨t, -, hcamp⟩ := arrives_outfitting
  exact hcamp

/-- Where the expedition goes on, the interpreter is there. -/
theorem foundEffects_ready : ready.foundEffects explorer = [] := by
  obtain ⟨t, heq⟩ := ready_eq
  rw [heq]
  rfl

theorem ownersFound_ready : ready.ownersFound explorer guides = guides := by
  obtain ⟨t, heq⟩ := ready_eq
  rw [heq]
  rfl

/-- The router once the venture is over. -/
def gone : Router := Moment.after ⟨ready, dispatch venture 1⟩

theorem arrives_venture :
    ∃ t, Arrives ready Party.carrier.address explorer venture [⟨1⟩] [1] ⟨[cargo], []⟩
        [.move .zero explorer.interpreterAddress Party.guide.address 2,
          .move .zero explorer.interpreterAddress Party.escrow.address 3] t ∧
      Camp gone company explorer .carrier ⟨1⟩ (shares 3 2 2 3) guides := by
  refine camp_ready.arrives (by decide) accept_venture (by decide) (by decide) ?_
  intro s hstock
  have hbrought : moved .carrier company.self 1 (shares 4 6 0 0) = shares 3 7 0 0 :=
    moved_eq (by decide)
  have hguided : moved company.self .guide 2 (shares 3 7 0 0) = shares 3 5 2 0 :=
    moved_eq (by decide)
  have hshipped : moved company.self .escrow 3 (shares 3 5 2 0) = shares 3 2 2 3 :=
    moved_eq (by decide)
  rw [hbrought, ownersFound_ready] at hstock
  have hself := camp_ready.address_eq
  have hhandle := camp_ready.assetHandle_eq Party.carrier.address
  have hguide : (Interpreter.ofOrigin explorer).payee (ready.environment Party.carrier.address)
      (.account Party.guide.address) = company.holder .guide := rfl
  have hescrow : (ready.environment Party.carrier.address).escrow = Party.escrow.address := by
    obtain ⟨t, heq⟩ := ready_eq
    rw [heq]
    rfl
  obtain ⟨u, htransfer, hpaid⟩ := hstock.does_transfer hself ⟨⟨1⟩, .absolute 2⟩ .guide hhandle rfl
    (by decide) (by decide) (by decide) hguide
  rw [hguided] at hpaid
  obtain ⟨t, hspawn, hsent⟩ := hpaid.does_spawn hself ⟨⟨1⟩, .absolute 3⟩ .escrow hhandle rfl
    (by decide) (by decide) (by decide) hescrow ⟨2⟩ [] 0 ⟨[], []⟩
  rw [hshipped] at hsent
  exact ⟨t, .cons htransfer (.cons hspawn (.nil _ _ _)), hsent⟩

theorem gone_eq : ∃ t, gone = ready.delivered explorer venture ⟨[cargo], []⟩ t := by
  obtain ⟨t, harrives, -⟩ := arrives_venture
  exact ⟨t, harrives.after_eq⟩

theorem camp_gone : Camp gone company explorer .carrier ⟨1⟩ (shares 3 2 2 3) guides := by
  obtain ⟨t, -, hcamp⟩ := arrives_venture
  exact hcamp

/-- The overdraft is refused when the carrier has paid for it already. -/
theorem isOk_overdraft : (Moment.answer ⟨gone, dispatch overdraft 1⟩).isOk = false := by
  refine camp_gone.isOk_eq_false (by decide) accept_overdraft (by decide) (by decide) ?_
  intro s hstock
  have hbrought : moved .carrier company.self 1 (shares 3 2 2 3) = shares 2 3 2 3 :=
    moved_eq (by decide)
  rw [hbrought] at hstock
  have hrefused := hstock.withdraw_of_lt ⟨⟨1⟩, .absolute 9⟩ camp_gone.address_eq
    (camp_gone.assetHandle_eq Party.carrier.address) rfl (by decide) Party.guide.address
  exact ⟨_, s, Interpreter.run_steps_of_refused hrefused⟩

/-- The expedition: two programs that end well and one that does not. -/
def expedition : List Call :=
  outset ++ [dispatch outfitting 6, dispatch venture 1, dispatch overdraft 1]

theorem history_expedition : history fresh expedition =
    history fresh outset ++ [⟨outpost, dispatch outfitting 6⟩, ⟨ready, dispatch venture 1⟩,
      ⟨gone, dispatch overdraft 1⟩] :=
  history_append _ _ _

theorem replay_expedition : (replay fresh expedition).2 = gone := by
  have hready : Moment.after ⟨(replay fresh outset).2, dispatch outfitting 6⟩ = ready := rfl
  have hgone : Moment.after ⟨ready, dispatch venture 1⟩ = gone := rfl
  rw [expedition, replay_append, replay_cons, hready, replay_cons, hgone, replay_cons,
    Moment.after_of_not_isOk isOk_overdraft, replay_nil]

theorem effects_outset : (history fresh outset).flatMap Moment.effects =
    [.credit .zero Party.carrier.address 10] := rfl

/-- **The effects of the expedition.** -/
theorem effects_expedition : (history fresh expedition).flatMap Moment.effects =
    [.credit .zero Party.carrier.address 10,
      .found explorer.interpreterAddress explorer.account,
      .move .zero Party.carrier.address explorer.interpreterAddress 6,
      .manage explorer.interpreterAddress (.add [Party.guide.address]),
      .move .zero Party.carrier.address explorer.interpreterAddress 1,
      .move .zero explorer.interpreterAddress Party.guide.address 2,
      .move .zero explorer.interpreterAddress Party.escrow.address 3] := by
  obtain ⟨t, houtfitting, -⟩ := arrives_outfitting
  obtain ⟨u, hventure, -⟩ := arrives_venture
  have hfirst : Moment.effects ⟨outpost, dispatch outfitting 6⟩ = _ :=
    camp_outpost.effects_eq houtfitting
  have hsecond : Moment.effects ⟨ready, dispatch venture 1⟩ = _ := camp_ready.effects_eq hventure
  rw [history_expedition, List.flatMap_append, effects_outset, List.flatMap_cons, List.flatMap_cons,
    List.flatMap_cons, List.flatMap_nil, hfirst, hsecond, foundEffects_ready,
    Moment.effects_of_not_isOk isOk_overdraft]
  rfl

theorem used_expedition_subset : used fresh expedition ⊆ expeditionEntries := by
  have howners : [.owners explorer.interpreterAddress] ⊆ expeditionEntries :=
    List.cons_subset.mpr ⟨List.mem_cons_self, List.nil_subset _⟩
  have hbalance : ∀ p : Party, .balance .zero p.address ∈ expeditionEntries :=
    fun p => List.mem_cons_of_mem _ (List.mem_map_of_mem p.mem_all)
  have hmove : ∀ (payer payee : Party) amount,
      (Effect.move .zero payer.address payee.address amount).identities ⊆ expeditionEntries :=
    fun payer payee _ => List.cons_subset.mpr
      ⟨hbalance payer, List.cons_subset.mpr ⟨hbalance payee, List.nil_subset _⟩⟩
  intro i hi
  rw [used, effects_expedition] at hi
  obtain ⟨e, he, hi⟩ := List.mem_flatMap.mp hi
  simp only [List.mem_cons, List.not_mem_nil, or_false] at he
  rcases he with rfl | rfl | rfl | rfl | rfl | rfl | rfl
  · exact List.mem_singleton.mp hi ▸ hbalance .carrier
  · exact howners hi
  · exact hmove .carrier .explorer 6 hi
  · exact howners hi
  · exact hmove .carrier .explorer 1 hi
  · exact hmove .explorer .guide 2 hi
  · exact hmove .explorer .escrow 3 hi

/-- Nothing that the expedition uses collides. -/
theorem collisionFree_expedition {more : List Identity} (h : more ⊆ expeditionEntries) :
    CollisionFree (used fresh expedition ++ more) :=
  (collisionFree_of_nodup nodup_digest_expeditionEntries).mono
    (List.append_subset.mpr ⟨used_expedition_subset, h⟩)

theorem registry_ready : ready.registry = outpost.registry := by
  obtain ⟨t, hready⟩ := ready_eq
  rw [hready, registry_delivered]

theorem registry_gone : gone.registry = outpost.registry := by
  obtain ⟨t, hgone⟩ := gone_eq
  rw [hgone, registry_delivered, registry_ready]

theorem contracts_expedition : (replay fresh expedition).2.registry.contracts = [] := by
  rw [replay_expedition, registry_gone]
  rfl

theorem assetHandle?_expedition :
    (replay fresh expedition).2.registry.assetHandle? ⟨1⟩ = some .zero := by
  rw [replay_expedition]
  exact camp_gone.token_eq

theorem interpreters_expedition : (replay fresh expedition).2.interpreters = [explorer] := by
  obtain ⟨t, hready⟩ := ready_eq
  obtain ⟨u, hgone⟩ := gone_eq
  rw [replay_expedition, hgone, hready]
  rfl

end Crossnet.Router
