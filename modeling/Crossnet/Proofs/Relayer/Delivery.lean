import Crossnet.Proofs.Interpreter.Spawns
import Crossnet.Proofs.Relayer.Failures

/-!
# Spawns can be delivered

Whatever a router leaves for a relayer is fit to be delivered: as many amounts
as assets, and bytes that are accepted as a program.  So what can still go wrong
lies at the destination: nothing is connected for the network, the relayer is
not the bridge, an asset has no token there, or the program fails when it runs.
What a delivery spawns is fit again, and so are all deliveries of a run of the
relayer that starts with such records.

* `Mesh.cause_of_relay`: **a fit record fails for a cause at its destination.**
* `Mesh.fit_drain`: all attempts of a run of the relayer are for fit records.
* `Router.spawns_deliverable`: **the records of a program are its spawns, and fit
  to be delivered.**
-/

namespace Crossnet

/-! ## Fit records -/

/-- As many amounts as assets, and bytes that are accepted as a program. -/
structure SpawnRecord.Fit (record : SpawnRecord) : Prop where
  lengths : record.assets.length = record.amounts.length
  accepted : ∃ program, Program.accept record.program = .ok program

/-- The record is the one that an instruction of the program leaves, and its bytes are accepted as
the program of that instruction. -/
structure Instruction.Delivers (origin : Origin) (program : Program) (i : Instruction)
    (record : SpawnRecord) : Prop where
  sends : i.Sends origin record
  lengths : record.assets.length = record.amounts.length
  accepted : ∃ sub, i.spawned? = some sub ∧ Program.accept record.program = .ok sub ∧
    sub.depth < program.depth

theorem Instruction.Delivers.fit {origin : Origin} {program : Program} {i : Instruction}
    {record : SpawnRecord} (h : i.Delivers origin program record) : record.Fit := by
  obtain ⟨sub, -, haccept, -⟩ := h.accepted
  exact ⟨h.lengths, sub, haccept⟩

theorem Instruction.Delivers.fit_of_forall₂ {origin : Origin} {program : Program}
    {instructions : List Instruction} {records : List SpawnRecord}
    (h : List.Forall₂ (Delivers origin program) instructions records) :
    ∀ record ∈ records, record.Fit := by
  induction h with
  | nil => exact fun record hrecord => absurd hrecord List.not_mem_nil
  | cons hfirst _ ih => exact List.forall_mem_cons.mpr ⟨hfirst.fit, ih⟩

theorem Instruction.Sends.delivers {origin : Origin} {program : Program} {bytes : Bytes}
    {i : Instruction} {record : SpawnRecord} (h : i.Sends origin record)
    (haccept : Program.accept bytes = .ok program) (hi : i ∈ program.instructions) :
    i.Delivers origin program record := by
  obtain ⟨sub, hsub, hbytes⟩ := h.program
  obtain ⟨haccepted, hdepth⟩ := Program.accept_of_spawned haccept hi hsub
  refine ⟨h, h.lengths, sub, hsub, ?_, hdepth⟩
  rw [hbytes]
  exact haccepted

namespace Router

variable {r t : Router} {caller : Address} {origin : Origin} {bytes : Bytes}
  {assets : List AssetId} {amounts : List UInt128} {outcome : Outcome}

/-- The records of a program that was run, spawn by spawn. -/
theorem delivers_of_runProgram
    (h : runProgram caller origin bytes assets amounts r = .ok outcome t) :
    ∃ program, Program.accept bytes = .ok program ∧
      List.Forall₂ (Instruction.Delivers origin program)
        (program.instructions.filter Instruction.isSpawn) outcome.spawns := by
  obtain ⟨-, -, program, haccept, -, store, hrun, -⟩ := runProgram_eq_ok.mp h
  refine ⟨program, haccept, ?_⟩
  have hsends : List.Forall₂ (Instruction.Sends origin)
      (program.instructions.filter Instruction.isSpawn) outcome.spawns := by
    unfold programScript at hrun
    cases hnew : !r.hasInterpreter origin with
    | false =>
      rw [hnew] at hrun
      exact Interpreter.sends_of_run hrun
    | true =>
      rw [hnew] at hrun
      obtain ⟨⟨⟩, u, -, hmain⟩ := Script.run_bind_eq_ok.mp hrun
      exact Interpreter.sends_of_run hmain
  have hmem : ∀ i ∈ program.instructions.filter Instruction.isSpawn, i ∈ program.instructions :=
    fun i hi => List.mem_of_mem_filter hi
  refine ((List.forall₂_and_left _ _).mpr ⟨hmem, hsends⟩).imp ?_
  rintro i record ⟨hi, hsend⟩
  exact hsend.delivers haccept hi

theorem fit_of_runProgram
    (h : runProgram caller origin bytes assets amounts r = .ok outcome t) :
    ∀ record ∈ outcome.spawns, record.Fit := by
  obtain ⟨program, -, hall⟩ := delivers_of_runProgram h
  exact Instruction.Delivers.fit_of_forall₂ hall

end Router

/-! ## Deliveries of fit records -/

namespace Mesh

variable {m n : Mesh} {record : SpawnRecord}

/-- What can stand in the way of a fit record. -/
inductive Blocks (m : Mesh) (record : SpawnRecord) : RouterError → Prop
  | unknownNetwork : Blocks m record (.unknownNetwork record.target)
  | unauthorized : Blocks m record (.unauthorized m.relayer.bridge .deliverPrograms)
  | unknownAsset {asset : AssetId} (hasset : asset ∈ record.assets) :
      Blocks m record (.unknownAsset asset)
  | execution (cause : ExecutionError) : Blocks m record (.execution cause)

/-- **A fit record fails for a cause at its destination.** -/
theorem cause_of_relay {e : RouterError} (hfit : record.Fit) (h : relay record m = .error e n) :
    m.Blocks record e := by
  obtain ⟨program, haccept⟩ := hfit.accepted
  have hcases := relays m record
  rw [h] at hcases
  cases hcases with
  | unconnected => exact .unknownNetwork
  | refused _ _ hrun =>
    cases (Router.refuses_of_runProgram hrun).2 with
    | unauthorized => exact .unauthorized
    | mismatchedAssets _ hlength => exact absurd hfit.lengths hlength
    | program _ _ hrefused =>
      rw [haccept] at hrefused
      cases hrefused
    | unknownAsset _ _ _ hfind => exact .unknownAsset (List.mem_of_find?_eq_some hfind)
    | execution => exact .execution _

theorem fit_of_relay {outcome : Outcome} (h : relay record m = .ok (some outcome) n) :
    ∀ record ∈ outcome.spawns, record.Fit := by
  have hcases := relays m record
  rw [h] at hcases
  cases hcases with
  | delivered _ _ hrun => exact Router.fit_of_runProgram hrun

/-! ## Runs of the relayer -/

/-- The attempt is for a fit record, and fails for a cause at its destination if at all. -/
structure Attempt.Fit (a : Attempt) : Prop where
  record : a.record.Fit
  blocked : ∀ e, a.answer = .error e → a.before.Blocks a.record e

/-- An attempt for a fit record is a fit one, and so is all that it leaves to relay. -/
theorem fit_attempt (m : Mesh) (hfit : record.Fit) :
    (m.attempt record).1.Fit ∧ ∀ later ∈ (m.attempt record).1.followUps, later.Fit := by
  unfold attempt
  cases hrelay : relay record m with
  | error e after =>
    refine ⟨⟨hfit, ?_⟩, fun later hlater => absurd hlater List.not_mem_nil⟩
    intro cause hcause
    cases hcause
    exact cause_of_relay hfit hrelay
  | ok answer after =>
    refine ⟨⟨hfit, fun e he => ?_⟩, ?_⟩
    · cases he
    · cases answer with
      | none => exact fun later hlater => absurd hlater List.not_mem_nil
      | some outcome => exact fit_of_relay hrelay

theorem fit_relayQueue (limit : Nat) (m : Mesh) {queue : List SpawnRecord}
    (hqueue : ∀ record ∈ queue, record.Fit) :
    (∀ a ∈ (relayQueue limit queue m).attempts, a.Fit) ∧
      ∀ record ∈ (relayQueue limit queue m).queue, record.Fit := by
  induction limit generalizing queue m with
  | zero => exact ⟨fun a ha => absurd ha List.not_mem_nil, hqueue⟩
  | succ limit ih =>
    cases queue with
    | nil => exact ⟨fun a ha => absurd ha List.not_mem_nil, hqueue⟩
    | cons record rest =>
      obtain ⟨hrecord, hrest⟩ := List.forall_mem_cons.mp hqueue
      obtain ⟨hattempt, hfollowUps⟩ := fit_attempt m hrecord
      have hnext := ih (m.attempt record).2 (List.forall_mem_append.mpr ⟨hrest, hfollowUps⟩)
      exact ⟨List.forall_mem_cons.mpr ⟨hattempt, hnext.1⟩, hnext.2⟩

/-- **All attempts of a run of the relayer are for fit records**, if those that it starts with
are. -/
theorem fit_drain (m : Mesh) {records : List SpawnRecord}
    (hrecords : ∀ record ∈ records, record.Fit) :
    (∀ a ∈ (drain records m).attempts, a.Fit) ∧
      ∀ record ∈ (drain records m).queue, record.Fit := by
  induction records generalizing m with
  | nil => exact ⟨fun a ha => absurd ha List.not_mem_nil, hrecords⟩
  | cons record rest ih =>
    obtain ⟨hrecord, hrest⟩ := List.forall_mem_cons.mp hrecords
    have hfirst := fit_relayQueue (weight record) m (List.forall_mem_singleton.mpr hrecord)
    have hlater := ih (relayQueue (weight record) [record] m).mesh hrest
    exact ⟨List.forall_mem_append.mpr ⟨hfirst.1, hlater.1⟩,
      List.forall_mem_append.mpr ⟨hfirst.2, hlater.2⟩⟩

end Mesh

/-! ## What a router leaves for relayers -/

namespace Router

/-- **The records of a program are its spawns, and fit to be delivered.**  Spawn by spawn, a record
has as many amounts as assets, and its bytes are accepted as the program of the spawn, which is
nested less deep than the whole.  So a relayer that fails to deliver a record does so because the
network is not connected, it is not the bridge, an asset has no token there, or the program fails
when it runs. -/
theorem spawns_deliverable {r t : Router} {caller : Address} {origin : Origin} {bytes : Bytes}
    {assets : List AssetId} {amounts : List UInt128} {outcome : Outcome}
    (h : runProgram caller origin bytes assets amounts r = .ok outcome t) :
    (∃ program, Program.accept bytes = .ok program ∧
      List.Forall₂ (Instruction.Delivers origin program)
        (program.instructions.filter Instruction.isSpawn) outcome.spawns) ∧
      ∀ record ∈ outcome.spawns, ∀ (m n : Mesh) (e : RouterError),
        Mesh.relay record m = .error e n → m.Blocks record e := by
  refine ⟨delivers_of_runProgram h, ?_⟩
  intro record hrecord m n e hrelay
  exact Mesh.cause_of_relay (fit_of_runProgram h record hrecord) hrelay

/-- A program that spawns an empty one. -/
def sender : Program := ⟨[], [.spawn ⟨5⟩ [1] 0 ⟨[], []⟩ []]⟩

theorem accept_sender : Program.accept sender.toWire = .ok sender := by
  refine Program.accept_eq_ok_iff.mpr ⟨?_, rfl, by decide, ?_⟩
  · simp [sender, Program.Fits, Instruction.FitsAll, Instruction.Fits]
  · simp [sender, Program.WellFormed, Instruction.WellFormedAll, Instruction.WellFormed]

/-- The record of the spawn, which no router is connected for. -/
def sent : SpawnRecord := ⟨⟨⟨1⟩, .zero⟩, ⟨5⟩, [1], 0, (Program.mk [] []).toWire, [], []⟩

theorem runProgram_sender :
    ∃ t, runProgram .zero ⟨⟨1⟩, .zero⟩ sender.toWire [] [] bridged = .ok ⟨[sent], []⟩ t := by
  refine ⟨_, runProgram_eq_ok.mpr ⟨rfl, rfl, sender, accept_sender, ?_, _, rfl, rfl⟩⟩
  exact fun asset hasset => absurd hasset List.not_mem_nil

theorem spawns_deliverable_sender :
    ∃ t, runProgram .zero ⟨⟨1⟩, .zero⟩ sender.toWire [] [] bridged = .ok ⟨[sent], []⟩ t ∧
      (∃ program, Program.accept sender.toWire = .ok program ∧
        List.Forall₂ (Instruction.Delivers ⟨⟨1⟩, .zero⟩ program)
          (program.instructions.filter Instruction.isSpawn) [sent]) ∧
      Mesh.bridged.Blocks sent (.unknownNetwork ⟨5⟩) := by
  obtain ⟨t, hrun⟩ := runProgram_sender
  obtain ⟨hrecords, hblocks⟩ := spawns_deliverable hrun
  have hrelay : ∃ n, Mesh.relay sent .bridged = .error (.unknownNetwork ⟨5⟩) n := by
    unfold Mesh.relay
    rw [Mesh.isDelivered_bridged]
    exact ⟨_, rfl⟩
  obtain ⟨n, hrelay⟩ := hrelay
  exact ⟨t, hrun, hrecords, hblocks sent List.mem_cons_self .bridged n _ hrelay⟩

end Router

end Crossnet
