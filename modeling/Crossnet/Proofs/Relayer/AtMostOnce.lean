import Crossnet.Proofs.Relayer.Moments

/-!
# Deliveries are made at most once

A record is delivered only while its key is not noted, and the note stays.  So no
two deliveries of a run have the same key, whatever is relayed, connected and
called in between.  A delivery that fails leaves no note, and can be tried again.

* `nodup_deliveries`: **no key is delivered twice.**
* `delivered_at_most_once`: what a relayer says of a record is what its
  deliveries were.
-/

namespace Crossnet

namespace Mesh

variable {m n : Mesh} {record : SpawnRecord} {xs : List Step}

/-! ## Single records -/

theorem relay_eq_none_iff :
    relay record m = .ok none m ↔ m.relayer.isDelivered record = true := by
  have hcases := relays m record
  generalize relay record m = result at hcases
  cases hcases with
  | duplicate hdelivered => exact ⟨fun _ => hdelivered, fun _ => rfl⟩
  | unconnected hnew =>
    rw [hnew]
    exact ⟨nofun, nofun⟩
  | delivered hnew =>
    rw [hnew]
    exact ⟨nofun, nofun⟩
  | refused hnew =>
    rw [hnew]
    exact ⟨nofun, nofun⟩

/-- A record whose delivery fails was not delivered, and the failure changes nothing. -/
theorem isDelivered_of_relay_error {e : RouterError} (h : relay record m = .error e n) :
    n = m ∧ n.relayer.isDelivered record = false := by
  obtain rfl := safe_relay h
  refine ⟨rfl, Bool.eq_false_iff.mpr fun hdelivered => ?_⟩
  rw [relay_eq_none_iff.mpr hdelivered] at h
  cases h

/-! ## Runs -/

/-- What a run delivers was not delivered before it. -/
theorem isDelivered_of_mem_deliveries (h : record ∈ deliveries m xs) :
    m.relayer.isDelivered record = false := by
  induction xs generalizing m with
  | nil => cases h
  | cons step rest ih =>
    rw [deliveries_cons, List.mem_append, Option.mem_toList] at h
    rcases h with hfirst | hlater
    · exact (Moment.step_of_delivery hfirst).2
    · refine Bool.eq_false_iff.mpr fun hdelivered => ?_
      have hafter := (isDelivered_after ⟨m, step⟩ record).mpr (.inl hdelivered)
      exact absurd ((ih hlater).symm.trans hafter) Bool.false_ne_true

/-- **No key is delivered twice.** -/
theorem nodup_deliveries (m : Mesh) (xs : List Step) :
    ((deliveries m xs).map SpawnRecord.deliveryKey).Nodup := by
  induction xs generalizing m with
  | nil => exact List.nodup_nil
  | cons step rest ih =>
    rw [deliveries_cons]
    cases hfirst : (Moment.mk m step).delivery? with
    | none => exact ih _
    | some record =>
      refine List.nodup_cons.mpr ⟨fun hkey => ?_, ih _⟩
      obtain ⟨other, hother, heq⟩ := List.mem_map.mp hkey
      have hnoted := (isDelivered_after ⟨m, step⟩ other).mpr (.inr ⟨record, hfirst, heq.symm⟩)
      exact absurd ((isDelivered_of_mem_deliveries hother).symm.trans hnoted) Bool.false_ne_true

/-- **Deliveries are made at most once.**  In every run of a new relayer, however router calls,
connections and relayed records follow each other, no two deliveries have the same key; a record
is taken for delivered exactly when one with its key was, and from then on relaying it does nothing;
and a delivery that fails leaves everything as it was, so that the record can be relayed again.  A
run of the relayer over a channel is such a run of relayed records. -/
theorem delivered_at_most_once {bridge : Address} (hm : m.relayer = .ofBridge bridge)
    (xs : List Step) :
    ((deliveries m xs).map SpawnRecord.deliveryKey).Nodup ∧
      (∀ record, (replay m xs).relayer.isDelivered record = true ↔
        ∃ earlier ∈ deliveries m xs, earlier.deliveryKey = record.deliveryKey) ∧
      (∀ earlier ∈ deliveries m xs, ∀ record, earlier.deliveryKey = record.deliveryKey →
        ∀ ys, relay record (replay m (xs ++ ys)) = .ok none (replay m (xs ++ ys))) ∧
      (∀ record e n, relay record (replay m xs) = .error e n →
        n = replay m xs ∧ n.relayer.isDelivered record = false) ∧
      ∀ channel n, replay n ((Task.drain channel).steps n) = (drain channel n).mesh ∧
        attempts n ((Task.drain channel).steps n) = (drain channel n).attempts := by
  have hdelivered : ∀ xs record, (replay m xs).relayer.isDelivered record = true ↔
      ∃ earlier ∈ deliveries m xs, earlier.deliveryKey = record.deliveryKey := by
    intro xs record
    have hnone : m.relayer.isDelivered record = false := by
      rw [hm]
      simp [Relayer.isDelivered, Relayer.ofBridge]
    rw [isDelivered_replay, hnone]
    exact ⟨fun h => h.resolve_left Bool.false_ne_true, .inr⟩
  refine ⟨nodup_deliveries m xs, hdelivered xs, ?_, ?_, ?_⟩
  · intro earlier hearlier record hkey ys
    refine relay_eq_none_iff.mpr ((hdelivered _ record).mpr ⟨earlier, ?_, hkey⟩)
    rw [deliveries_append]
    exact List.mem_append_left _ hearlier
  · exact fun record e n h => isDelivered_of_relay_error h
  · exact fun channel n => (drains_drain channel n).replay_eq

/-- A new relayer, and two routers that know it as the bridge of network `1`. -/
def twins : Mesh := ⟨.ofBridge .zero, [.bridged, .bridged]⟩

/-- The record of `Router.sender` arrives wherever a router is connected for its target. -/
theorem relay_sent {place : Nat} (hbridge : m.relayer.bridge = .zero)
    (hnew : m.relayer.isDelivered Router.sent = false)
    (hrouter : m.router? ⟨5⟩ = some (place, .bridged)) :
    ∃ n, relay Router.sent m = .ok (some .empty) n := by
  have haccept : Program.accept Router.sent.program = .ok ⟨[], []⟩ :=
    (Program.accept_of_spawned Router.accept_sender List.mem_cons_self rfl).1
  have hrun : ∃ t, Router.runProgram .zero Router.sent.origin Router.sent.program
      Router.sent.assets Router.sent.amounts .bridged = .ok .empty t := by
    refine ⟨_, Router.runProgram_eq_ok.mpr ⟨rfl, rfl, ⟨[], []⟩, haccept, ?_, _, rfl, rfl⟩⟩
    exact fun asset hasset => absurd hasset List.not_mem_nil
  obtain ⟨t, hrun⟩ := hrun
  rw [← hbridge] at hrun
  exact ⟨_, relay_of_runProgram hnew hrouter hrun⟩

theorem mem_deliveries_of_relay {outcome : Outcome}
    (h : relay record m = .ok (some outcome) n) :
    record ∈ deliveries m (.relay record :: xs) := by
  rw [deliveries_relay, attempt, h]
  exact List.mem_cons_self

/-- A record that arrives, and one that no router is connected for. -/
theorem delivered_at_most_once_twins :
    Router.sent ∈ deliveries twins [.connect ⟨5⟩ 1, .relay Router.sent] ∧
      relay Router.sent (replay twins [.connect ⟨5⟩ 1, .relay Router.sent]) =
        .ok none (replay twins [.connect ⟨5⟩ 1, .relay Router.sent]) ∧
      ∃ n, relay .headless (replay twins [.connect ⟨5⟩ 1]) = .error (.unknownNetwork ⟨0⟩) n ∧
        n = replay twins [.connect ⟨5⟩ 1] := by
  have hnew : ∀ record, (replay twins [.connect ⟨5⟩ 1]).relayer.isDelivered record = false := by
    intro record
    simp [Relayer.isDelivered, replay, after, Relayer.connect, twins, Relayer.ofBridge]
  have hrouter : (replay twins [.connect ⟨5⟩ 1]).router? ⟨5⟩ = some (1, .bridged) := rfl
  obtain ⟨n, hrelay⟩ := relay_sent rfl (hnew _) hrouter
  have hsent : Router.sent ∈ deliveries twins [.connect ⟨5⟩ 1, .relay Router.sent] := by
    rw [deliveries_cons]
    exact mem_deliveries_of_relay hrelay
  have hheadless : ∃ n, relay .headless (replay twins [.connect ⟨5⟩ 1]) =
      .error (.unknownNetwork ⟨0⟩) n := by
    unfold relay
    rw [hnew]
    exact ⟨_, rfl⟩
  obtain ⟨n, hheadless⟩ := hheadless
  have hrelayer : twins.relayer = .ofBridge .zero := rfl
  have hduplicate := (delivered_at_most_once hrelayer _).2.2.1 _ hsent _ rfl []
  have hfailed := (delivered_at_most_once hrelayer _).2.2.2.1 _ _ _ hheadless
  exact ⟨hsent, hduplicate, n, hheadless, hfailed.1⟩

end Mesh

end Crossnet
