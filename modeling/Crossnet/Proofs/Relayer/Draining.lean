import Mathlib.Algebra.GroupWithZero.Nat
import Crossnet.Proofs.Relayer.Delivery

/-!
# A channel is drained

A delivery puts what it spawns behind the records that wait, so the queue can
grow while it is worked off.  What shrinks is the number of spawns in it: the
records that a delivery leaves are the spawns of its program, and their programs
are the ones inside it.  `Drains` is the loop without a bound on the attempts,
and `drain`, which has one, never reaches it.

* `Instruction.sum_load_of_delivers`: the records of spawns hold what is in the
  spawns.
* `Mesh.sum_load_followUps_lt`: **what a delivery leaves is less than what it
  delivered.**
* `Mesh.drain_ends`: **a relayer drains every channel**, and there are no more
  attempts than spawns and records.
-/

namespace Crossnet

/-! ## Spawns inside a record -/

/-- One more than the number of spawns in the record's program, at all levels; one, where the bytes
are not accepted as a program. -/
def SpawnRecord.load (record : SpawnRecord) : Nat :=
  match Program.accept record.program with
  | .ok program => program.spawnCount + 1
  | .error _ => 1

theorem SpawnRecord.load_of_accept {record : SpawnRecord} {program : Program}
    (h : Program.accept record.program = .ok program) : record.load = program.spawnCount + 1 := by
  unfold load
  rw [h]

theorem SpawnRecord.load_pos (record : SpawnRecord) : 0 < record.load := by
  unfold load
  split
  · exact Nat.succ_pos _
  · exact Nat.one_pos

theorem Program.spawnCount_eq (p : Program) :
    p.spawnCount = Instruction.spawnCountAll p.instructions := by
  cases p
  rfl

namespace Instruction

theorem spawnCount_of_spawned {i : Instruction} {sub : Program} (h : i.spawned? = some sub) :
    i.spawnCount = sub.spawnCount + 1 := by
  cases i with
  | spawn =>
    cases h
    rfl
  | transfer => cases h
  | call => cases h

/-- Only spawns hold spawns. -/
theorem spawnCountAll_eq (instructions : List Instruction) :
    spawnCountAll instructions = ((instructions.filter isSpawn).map spawnCount).sum := by
  induction instructions with
  | nil => rfl
  | cons i rest ih =>
    rw [spawnCountAll, ih]
    cases i with
    | spawn => rfl
    | transfer => exact Nat.zero_add _
    | call => exact Nat.zero_add _

/-- The records of spawns hold what is in the spawns. -/
theorem sum_load_of_delivers {origin : Origin} {program : Program}
    {instructions : List Instruction} {records : List SpawnRecord}
    (h : List.Forall₂ (Delivers origin program) instructions records) :
    (records.map SpawnRecord.load).sum = (instructions.map spawnCount).sum := by
  induction h with
  | nil => rfl
  | cons hfirst _ ih =>
    obtain ⟨sub, hsub, haccept, -⟩ := hfirst.accepted
    rw [List.map_cons, List.map_cons, List.sum_cons, List.sum_cons, ih,
      SpawnRecord.load_of_accept haccept, spawnCount_of_spawned hsub]

end Instruction

theorem Router.sum_load_of_runProgram {r t : Router} {caller : Address} {origin : Origin}
    {bytes : Bytes} {assets : List AssetId} {amounts : List UInt128} {outcome : Outcome}
    (h : runProgram caller origin bytes assets amounts r = .ok outcome t) :
    ∃ program, Program.accept bytes = .ok program ∧
      (outcome.spawns.map SpawnRecord.load).sum = program.spawnCount := by
  obtain ⟨program, haccept, hrecords⟩ := delivers_of_runProgram h
  refine ⟨program, haccept, ?_⟩
  rw [Instruction.sum_load_of_delivers hrecords, ← Instruction.spawnCountAll_eq,
    program.spawnCount_eq]

namespace Mesh

/-- **What a delivery leaves is less than what it delivered**, counted in spawns. -/
theorem sum_load_followUps_lt (m : Mesh) (record : SpawnRecord) :
    ((m.attempt record).1.followUps.map SpawnRecord.load).sum < record.load := by
  rcases attempt_cases m record with ⟨-, hnone, -⟩ | ⟨_, _, _, outcome, -, hrun, hattempt⟩
  · rw [hnone]
    exact record.load_pos
  · obtain ⟨program, haccept, hsum⟩ := Router.sum_load_of_runProgram hrun
    have hfollowUps : (m.attempt record).1.followUps = outcome.spawns := by
      rw [hattempt]
      rfl
    rw [hfollowUps, hsum, SpawnRecord.load_of_accept haccept]
    exact Nat.lt_succ_self _

theorem load_le_weight (record : SpawnRecord) : record.load ≤ weight record := by
  unfold SpawnRecord.load weight Program.accept
  cases Program.ofWire record.program with
  | error => exact Nat.le_refl _
  | ok program =>
    dsimp only
    cases program.validate with
    | error => exact Nat.le_add_left _ _
    | ok => exact Nat.le_refl _

/-! ## The loop without a bound -/

/-- What a relayer does with a queue, and with a channel that is closed behind its records.  The
first record of the queue is relayed, and what it leaves goes to the end of the queue; when the
queue is empty the next record of the channel is received. -/
inductive Drains : (queue channel : List SpawnRecord) → Mesh → List Attempt → Mesh → Prop
  | closed (m : Mesh) : Drains [] [] m [] m
  | receive {record : SpawnRecord} {channel : List SpawnRecord} {m last : Mesh}
      {attempts : List Attempt} (h : Drains [record] channel m attempts last) :
      Drains [] (record :: channel) m attempts last
  | relay {record : SpawnRecord} {queue channel : List SpawnRecord} {m last : Mesh}
      {attempts : List Attempt}
      (h : Drains (queue ++ (m.attempt record).1.followUps) channel (m.attempt record).2
        attempts last) :
      Drains (record :: queue) channel m ((m.attempt record).1 :: attempts) last

variable {m last last' : Mesh} {queue channel : List SpawnRecord}
  {attempts attempts' later : List Attempt}

theorem Drains.unique (h : Drains queue channel m attempts last)
    (h' : Drains queue channel m attempts' last') : attempts = attempts' ∧ last = last' := by
  induction h generalizing attempts' last' with
  | closed =>
    cases h'
    exact ⟨rfl, rfl⟩
  | receive _ ih =>
    cases h' with
    | receive h' => exact ih h'
  | relay _ ih =>
    cases h' with
    | relay h' =>
      obtain ⟨rfl, rfl⟩ := ih h'
      exact ⟨rfl, rfl⟩

/-! ## The bound is never reached -/

/-- With as many attempts as there are spawns and records in it, a queue is worked off. -/
theorem relayQueue_of_sum_load_le {limit : Nat} (m : Mesh)
    (hlimit : (queue.map SpawnRecord.load).sum ≤ limit) :
    (relayQueue limit queue m).queue = [] ∧
      (relayQueue limit queue m).attempts.length ≤ (queue.map SpawnRecord.load).sum := by
  induction limit generalizing queue m with
  | zero =>
    cases queue with
    | nil => exact ⟨rfl, Nat.le_refl _⟩
    | cons record rest =>
      have hpos := record.load_pos
      rw [List.map_cons, List.sum_cons] at hlimit
      omega
  | succ limit ih =>
    cases queue with
    | nil => exact ⟨rfl, Nat.le_refl _⟩
    | cons record rest =>
      have hlt := sum_load_followUps_lt m record
      rw [List.map_cons, List.sum_cons] at hlimit ⊢
      have hsum : ((rest ++ (m.attempt record).1.followUps).map SpawnRecord.load).sum =
          (rest.map SpawnRecord.load).sum +
            ((m.attempt record).1.followUps.map SpawnRecord.load).sum := by
        rw [List.map_append, List.sum_append]
      obtain ⟨hempty, hlength⟩ := ih (m.attempt record).2 (hsum.trans_le (by omega))
      refine ⟨hempty, ?_⟩
      rw [relayQueue, List.length_cons]
      omega

/-- A queue that was worked off within the bound was worked off as without it. -/
theorem drains_relayQueue {limit : Nat} (hempty : (relayQueue limit queue m).queue = [])
    (hlater : Drains [] channel (relayQueue limit queue m).mesh later last) :
    Drains queue channel m ((relayQueue limit queue m).attempts ++ later) last := by
  induction limit generalizing queue m with
  | zero =>
    obtain rfl : queue = [] := hempty
    exact hlater
  | succ limit ih =>
    cases queue with
    | nil => exact hlater
    | cons record rest => exact .relay (ih hempty hlater)

theorem relayQueue_weight (m : Mesh) (record : SpawnRecord) :
    (relayQueue (weight record) [record] m).queue = [] ∧
      (relayQueue (weight record) [record] m).attempts.length ≤ record.load := by
  have hlimit : ([record].map SpawnRecord.load).sum ≤ weight record := load_le_weight record
  exact relayQueue_of_sum_load_le m hlimit

theorem drains_drain (channel : List SpawnRecord) (m : Mesh) :
    Drains [] channel m (drain channel m).attempts (drain channel m).mesh := by
  induction channel generalizing m with
  | nil => exact .closed m
  | cons record rest ih => exact .receive (drains_relayQueue (relayQueue_weight m record).1 (ih _))

theorem drain_of_sum_load (channel : List SpawnRecord) (m : Mesh) :
    (drain channel m).queue = [] ∧
      (drain channel m).attempts.length ≤ (channel.map SpawnRecord.load).sum := by
  induction channel generalizing m with
  | nil => exact ⟨rfl, Nat.le_refl _⟩
  | cons record rest ih =>
    obtain ⟨hfirst, hfirstLength⟩ := relayQueue_weight m record
    obtain ⟨hrest, hrestLength⟩ := ih (relayQueue (weight record) [record] m).mesh
    refine ⟨List.append_eq_nil_iff.mpr ⟨hfirst, hrest⟩, ?_⟩
    show ((relayQueue (weight record) [record] m).attempts ++ (drain rest _).attempts).length ≤ _
    rw [List.length_append, List.map_cons, List.sum_cons]
    exact Nat.add_le_add hfirstLength hrestLength

/-- **A relayer drains every channel**, whatever the routers hold.  The loop without a bound on the
attempts comes to an end in one way, which is that of `drain`; nothing is left in the queue, and
there are at most as many attempts as records in the channel and spawns at all levels of their
programs. -/
theorem drain_ends (channel : List SpawnRecord) (m : Mesh) :
    (∀ attempts last, Drains [] channel m attempts last ↔
        attempts = (drain channel m).attempts ∧ last = (drain channel m).mesh) ∧
      (drain channel m).queue = [] ∧
      (drain channel m).attempts.length ≤ (channel.map SpawnRecord.load).sum := by
  refine ⟨fun attempts last => ⟨?_, ?_⟩, drain_of_sum_load channel m⟩
  · intro h
    exact h.unique (drains_drain channel m)
  · rintro ⟨rfl, rfl⟩
    exact drains_drain channel m

end Mesh

end Crossnet
