import Mathlib.Algebra.Order.BigOperators.Group.List
import Mathlib.Algebra.Order.Group.Nat
import Mathlib.Data.List.Perm.Subperm
import Crossnet.Proofs.Interpreter.Escrow
import Crossnet.Proofs.Relayer.AtMostOnce
import Crossnet.Proofs.Router.Deliveries

/-!
# Deliveries are covered by emissions

A relayer that is only handed records which routers emitted delivers no more than
these hold.  What it relays on its own account it was left by a delivery, so all
that it relays was emitted before; and no record is delivered twice, since no key
is.  So the deliveries of a run can be found among its emissions, each in a place
of its own.

* `Sourced`: every record that is relayed was emitted before.
* `Drains.sourced`: a run over a channel relays what the channel holds and what
  deliveries leave.
* `delivered_le_emitted`: **what a network is delivered of an asset is at most
  what was emitted for it.**
-/

namespace Crossnet

/-! ## Sums over records -/

/-- How much of an asset the records for a network hold. -/
def SpawnRecord.total (asset : AssetId) (network : NetworkId) (records : List SpawnRecord) : Nat :=
  ((records.filter fun record => record.target = network).map (amountOf asset)).sum

/-- Records without repetition hold at most what any list of them does. -/
theorem SpawnRecord.total_le_of_subset {xs ys : List SpawnRecord} (hnodup : xs.Nodup)
    (hsub : xs ⊆ ys) (asset : AssetId) (network : NetworkId) :
    total asset network xs ≤ total asset network ys := by
  have hfilter := (hnodup.subperm hsub).filter fun record => record.target = network
  obtain ⟨zs, hperm, hsublist⟩ := hfilter
  unfold total
  rw [← (hperm.map (amountOf asset)).sum_eq]
  exact (hsublist.map (amountOf asset)).sum_le_sum fun _ _ => Nat.zero_le _

namespace Mesh

variable {m last : Mesh} {known queue channel : List SpawnRecord} {tried : List Attempt}
  {xs ys : List Step} {task : Task} {tasks : List Task}

/-! ## Where records come from -/

/-- Every record that the steps relay is a known one, or was emitted by the steps before. -/
inductive Sourced : (known : List SpawnRecord) → Mesh → List Step → Prop
  | nil {known : List SpawnRecord} {m : Mesh} : Sourced known m []
  | cons {known : List SpawnRecord} {m : Mesh} {step : Step} {rest : List Step}
      (hrelayed : ∀ record, step = .relay record → record ∈ known)
      (hrest : Sourced (known ++ Moment.emissions ⟨m, step⟩) (m.after step) rest) :
      Sourced known m (step :: rest)

/-- Every record that the tasks hand to the relayer is a known one, or was emitted by the tasks
before. -/
inductive Handed : (known : List SpawnRecord) → Mesh → List Task → Prop
  | nil {known : List SpawnRecord} {m : Mesh} : Handed known m []
  | cons {known : List SpawnRecord} {m : Mesh} {task : Task} {rest : List Task}
      (hrecords : task.records ⊆ known)
      (hrest : Handed (known ++ emissions m (task.steps m)) (task.after m) rest) :
      Handed known m (task :: rest)

theorem Handed.call {place : Nat} {call : Router.Call}
    (hrest : Handed (known ++ emissions m [.call place call]) (m.after (.call place call)) tasks) :
    Handed known m (.step (.call place call) :: tasks) :=
  .cons (List.nil_subset _) hrest

theorem steps_step (m : Mesh) (step : Step) (tasks : List Task) :
    steps m (.step step :: tasks) = step :: steps (m.after step) tasks := rfl

theorem steps_drain (m : Mesh) (channel : List SpawnRecord) :
    steps m [.drain channel] = (drain channel m).attempts.map fun a => .relay a.record :=
  List.append_nil _

theorem Sourced.append (hxs : Sourced known m xs)
    (hys : Sourced (known ++ emissions m xs) (replay m xs) ys) : Sourced known m (xs ++ ys) := by
  induction hxs with
  | nil =>
    rw [emissions, history, List.flatMap_nil, List.append_nil] at hys
    exact hys
  | cons hrelayed _ ih =>
    rw [emissions_cons, ← List.append_assoc] at hys
    exact .cons hrelayed (ih hys)

theorem Sourced.of_append (h : Sourced known m (xs ++ ys)) : Sourced known m xs := by
  induction xs generalizing known m with
  | nil => exact .nil
  | cons step rest ih =>
    cases h with
    | cons hrelayed hrest => exact .cons hrelayed (ih hrest)

/-- **A run over a channel relays what the channel holds and what deliveries leave.** -/
theorem Drains.sourced (h : Drains queue channel m tried last) (hqueue : queue ⊆ known)
    (hchannel : channel ⊆ known) : Sourced known m (tried.map fun a => .relay a.record) := by
  induction h generalizing known with
  | closed => exact .nil
  | receive _ ih =>
    obtain ⟨hrecord, hrest⟩ := List.cons_subset.mp hchannel
    exact ih (List.cons_subset.mpr ⟨hrecord, List.nil_subset _⟩) hrest
  | @relay record queue channel m last tried _ ih =>
    obtain ⟨hrecord, hrest⟩ := List.cons_subset.mp hqueue
    rw [List.map_cons, attempt_record]
    refine .cons ?_ (ih ?_ ?_)
    · rintro other heq
      cases heq
      exact hrecord
    · exact List.append_subset.mpr
        ⟨List.subset_append_of_subset_left _ hrest, List.subset_append_right _ _⟩
    · exact List.subset_append_of_subset_left _ hchannel

theorem Task.sourced_steps (h : task.records ⊆ known) : Sourced known m (task.steps m) := by
  cases task with
  | drain channel => exact (drains_drain channel m).sourced (List.nil_subset _) h
  | step step =>
    refine .cons ?_ .nil
    rintro record rfl
    exact h List.mem_cons_self

/-- Where every record that is handed over was emitted before, so was every record that is
relayed. -/
theorem Handed.sourced (h : Handed known m tasks) : Sourced known m (steps m tasks) := by
  induction h with
  | nil => exact .nil
  | @cons known m task rest hrecords _ ih =>
    refine (task.sourced_steps hrecords).append ?_
    rw [task.replay_steps]
    exact ih

/-! ## Deliveries among emissions -/

theorem Sourced.deliveries_subset (h : Sourced known m xs) :
    deliveries m xs ⊆ known ++ emissions m xs := by
  induction h with
  | nil => exact List.nil_subset _
  | @cons known m step rest hrelayed _ ih =>
    rw [deliveries_cons, emissions_cons, ← List.append_assoc]
    refine List.append_subset.mpr ⟨?_, ih⟩
    intro record hrecord
    rw [Option.mem_toList] at hrecord
    exact List.mem_append_left _
      (List.mem_append_left _ (hrelayed _ (Moment.step_of_delivery hrecord).1))

/-- **What a network is delivered of an asset is at most what was emitted for it**, at every point
of a run in which every record that is handed to the relayer was emitted before, however often and
in whatever order they are handed over. -/
theorem delivered_le_emitted (hhanded : Handed [] m tasks) (hfront : xs <+: steps m tasks)
    (asset : AssetId) (network : NetworkId) :
    SpawnRecord.total asset network (deliveries m xs) ≤
      SpawnRecord.total asset network (emissions m xs) := by
  obtain ⟨ys, hsteps⟩ := hfront
  have hsourced := hhanded.sourced
  rw [← hsteps] at hsourced
  exact SpawnRecord.total_le_of_subset (nodup_deliveries m xs).of_map
    hsourced.of_append.deliveries_subset asset network

open Router (dispatch outfitting venture cargo outpost ready gone)

/-- Two routers that the carrier is the bridge of, one of them for the network of the cargo. -/
def caravan : Mesh :=
  ⟨(Relayer.ofBridge Router.Party.carrier.address).connect ⟨2⟩ 1, [outpost, outpost]⟩

/-- The mesh when the record is there. -/
def loaded : Mesh := ⟨caravan.relayer, [gone, outpost]⟩

section Head

variable (relayer : Relayer) (r : Router) (rest : List Router) (call : Router.Call)

theorem after_call_head : after ⟨relayer, r :: rest⟩ (.call 0 call) =
    ⟨relayer, Router.Moment.after ⟨r, call⟩ :: rest⟩ := rfl

theorem emissions_call_head : Moment.emissions ⟨⟨relayer, r :: rest⟩, .call 0 call⟩ =
    Router.Moment.spawns ⟨r, call⟩ := rfl

end Head

theorem after_outfitting : caravan.after (.call 0 (dispatch outfitting 6)) =
    ⟨caravan.relayer, [ready, outpost]⟩ := by
  have hready : Router.Moment.after ⟨outpost, dispatch outfitting 6⟩ = ready := rfl
  rw [caravan, after_call_head, hready]

theorem after_venture :
    after ⟨caravan.relayer, [ready, outpost]⟩ (.call 0 (dispatch venture 1)) = loaded := by
  have hgone : Router.Moment.after ⟨ready, dispatch venture 1⟩ = gone := rfl
  rw [after_call_head, hgone, loaded]

theorem emissions_venture :
    emissions (caravan.after (.call 0 (dispatch outfitting 6))) [.call 0 (dispatch venture 1)] =
      [cargo] := by
  obtain ⟨t, hventure, -⟩ := Router.arrives_venture
  have hcargo : Router.Moment.spawns ⟨ready, dispatch venture 1⟩ = [cargo] :=
    Router.Moment.spawns_of_ok hventure.answer_eq
  rw [after_outfitting, emissions_cons, emissions_call_head, hcargo]
  rfl

/-- The cargo arrives on the second router. -/
theorem runProgram_cargo :
    ∃ t, Router.runProgram Router.Party.carrier.address cargo.origin cargo.program cargo.assets
      cargo.amounts outpost = .ok .empty t := by
  obtain ⟨t, harrives, -⟩ := Router.camp_outpost.arrives (by decide) Program.accept_nothing
    (show (3 : UInt128) ≤ 10 by decide) (by decide) fun s h => ⟨s, .nil _ _ _, h⟩
  exact ⟨_, harrives.runProgram_eq⟩

/-- The first attempt delivers the cargo, and another one does nothing. -/
theorem attempts_cargo : ∃ unloaded : Mesh,
    loaded.attempt cargo = (⟨cargo, loaded, .ok (some .empty)⟩, unloaded) ∧
      unloaded.attempt cargo = (⟨cargo, unloaded, .ok none⟩, unloaded) := by
  obtain ⟨t, hrun⟩ := runProgram_cargo
  have hnew : loaded.relayer.isDelivered cargo = false := by
    simp [Relayer.isDelivered, loaded, caravan, Relayer.connect, Relayer.ofBridge]
  have hrouter : loaded.router? cargo.target = some (1, outpost) := rfl
  refine ⟨_, attempt_of_runProgram hnew hrouter hrun, attempt_of_isDelivered ?_⟩
  exact Relayer.isDelivered_note.mpr (.inr rfl)

/-- The expedition on the first router, whose record is handed over twice. -/
def freight : List Task :=
  [.step (.call 0 (dispatch outfitting 6)), .step (.call 0 (dispatch venture 1)),
    .drain [cargo, cargo]]

theorem handed_freight : Handed [] caravan freight := by
  refine .call (.call (.cons ?_ .nil))
  rw [emissions_venture]
  have hcargo : ∀ known : List SpawnRecord, cargo ∈ known ++ [cargo] :=
    fun known => List.mem_append_right known List.mem_cons_self
  exact List.cons_subset.mpr ⟨hcargo _, List.cons_subset.mpr ⟨hcargo _, List.nil_subset _⟩⟩

theorem steps_freight : steps caravan freight =
    [.call 0 (dispatch outfitting 6), .call 0 (dispatch venture 1), .relay cargo,
      .relay cargo] := by
  obtain ⟨unloaded, hfirst, hsecond⟩ := attempts_cargo
  have hdrains : Drains [] [cargo, cargo] loaded
      [(loaded.attempt cargo).1, (unloaded.attempt cargo).1] unloaded := by
    refine .receive (.relay ?_)
    rw [hfirst]
    refine .receive (.relay ?_)
    rw [hsecond]
    exact .closed _
  have hattempts := (drains_drain [cargo, cargo] loaded).unique hdrains
  rw [freight, steps_step, after_outfitting, steps_step, after_venture, steps_drain, hattempts.1,
    List.map_cons, List.map_cons, attempt_record, attempt_record, List.map_nil]

theorem deliveries_freight : deliveries caravan (steps caravan freight) = [cargo] := by
  obtain ⟨unloaded, hfirst, hsecond⟩ := attempts_cargo
  have hcall : ∀ (m : Mesh) (call : Router.Call),
      (Moment.mk m (.call 0 call)).delivery? = none := fun _ _ => rfl
  rw [steps_freight, deliveries_cons, hcall, after_outfitting, deliveries_cons, hcall,
    after_venture, deliveries_relay, hfirst, deliveries_relay, hsecond]
  rfl

/-- The record of three is handed over twice and delivered once, so three were emitted. -/
theorem delivered_le_emitted_freight :
    Handed [] caravan freight ∧ deliveries caravan (steps caravan freight) = [cargo] ∧
      3 ≤ SpawnRecord.total ⟨1⟩ ⟨2⟩ (emissions caravan (steps caravan freight)) := by
  have hle := delivered_le_emitted handed_freight List.prefix_rfl ⟨1⟩ ⟨2⟩
  rw [deliveries_freight] at hle
  exact ⟨handed_freight, deliveries_freight, hle⟩

end Mesh

end Crossnet
