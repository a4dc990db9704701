import Crossnet.Proofs.Relayer.Moments

/-!
# What a run of the relayer adds up to

A run over a channel tries every record of the channel once, and every record
that a delivery of the run leaves.  Each try is counted in one of three ways, and
the deliveries are the ones that note a key, each a key that was not noted.  A
channel can be cut in two: nothing is left in the queue between records, so the
second part is drained as by a run of its own.

* `Drains.length_attempts`: **every record is tried once.**
* `Drains.notes`: what a run notes is what it delivers.
* `drain_append`: **two channels in a row are one channel.**
* `run_adds_up`: the three counts of a run.
-/

namespace Crossnet.Mesh

/-! ## Counts -/

namespace Stats

instance : Add Stats where
  add a b := ⟨a.delivered + b.delivered, a.duplicates + b.duplicates, a.failed + b.failed⟩

/-- Each attempt ends in one of the three ways. -/
theorem sum_ofAttempts (attempts : List Attempt) :
    (ofAttempts attempts).delivered + (ofAttempts attempts).duplicates +
      (ofAttempts attempts).failed = attempts.length := by
  induction attempts with
  | nil => rfl
  | cons a rest ih =>
    simp only [ofAttempts] at ih
    simp only [ofAttempts, List.countP_cons, List.length_cons]
    cases a.answer with
    | error e =>
      simp only [reduceIte, Bool.false_eq_true]
      omega
    | ok answer =>
      cases answer with
      | none =>
        simp only [reduceIte, Bool.false_eq_true]
        omega
      | some outcome =>
        simp only [reduceIte, Bool.false_eq_true]
        omega

theorem ofAttempts_append (xs ys : List Attempt) :
    ofAttempts (xs ++ ys) = ofAttempts xs + ofAttempts ys := by
  simp only [ofAttempts, List.countP_append]
  rfl

/-- The deliveries are counted. -/
theorem delivered_ofAttempts (attempts : List Attempt) :
    (ofAttempts attempts).delivered = (attempts.filterMap Attempt.delivery?).length := by
  rw [List.length_filterMap_eq_countP]
  refine List.countP_congr fun a _ => ?_
  unfold Attempt.delivery?
  cases a.answer with
  | error e => simp
  | ok answer => cases answer <;> simp

end Stats

/-! ## Runs -/

variable {m last : Mesh} {queue channel : List SpawnRecord} {attempts : List Attempt}

/-- **Every record is tried once**: those that wait, those of the channel and those that deliveries
leave. -/
theorem Drains.length_attempts (h : Drains queue channel m attempts last) :
    attempts.length =
      queue.length + channel.length + (attempts.flatMap Attempt.followUps).length := by
  induction h with
  | closed => rfl
  | receive _ ih =>
    rw [ih, List.length_singleton, List.length_nil, List.length_cons]
    omega
  | relay _ ih =>
    rw [List.length_append] at ih
    rw [List.length_cons, ih, List.flatMap_cons, List.length_append, List.length_cons]
    omega

/-- The keys that are noted in the end are the ones that were noted before and those of the
deliveries, and none of these was noted before. -/
structure Notes (m : Mesh) (records : List SpawnRecord) (last : Mesh) : Prop where
  mem_iff : ∀ key, key ∈ last.relayer.delivered ↔
    key ∈ m.relayer.delivered ∨ key ∈ records.map SpawnRecord.deliveryKey
  size_eq : last.relayer.delivered.size = m.relayer.delivered.size + records.length

theorem Notes.refl (m : Mesh) : Notes m [] m where
  mem_iff _ := by simp
  size_eq := rfl

theorem Notes.append {middle : Mesh} {xs ys : List SpawnRecord} (hxs : Notes m xs middle)
    (hys : Notes middle ys last) : Notes m (xs ++ ys) last where
  mem_iff key := by
    rw [hys.mem_iff, hxs.mem_iff, List.map_append, List.mem_append, or_assoc]
  size_eq := by
    rw [hys.size_eq, hxs.size_eq, List.length_append, Nat.add_assoc]

/-- An attempt notes what it delivers. -/
theorem notes_attempt (m : Mesh) (record : SpawnRecord) :
    Notes m (m.attempt record).1.delivery?.toList (m.attempt record).2 := by
  rcases attempt_cases m record with ⟨hnone, -, hafter⟩ | ⟨_, _, _, _, hnew, -, hattempt⟩
  · rw [hnone, hafter]
    exact .refl m
  · rw [hattempt]
    constructor
    · intro key
      show key ∈ m.relayer.delivered.insert record.deliveryKey ↔ _
      rw [Std.ExtTreeSet.mem_insert, Std.LawfulEqCmp.compare_eq_iff_eq]
      simp [Attempt.delivery?, or_comm, eq_comm]
    · show (m.relayer.delivered.insert record.deliveryKey).size = _
      have hcontains : m.relayer.delivered.contains record.deliveryKey = false := hnew
      rw [Std.ExtTreeSet.size_insert, hcontains]
      rfl

/-- **What a run notes is what it delivers.** -/
theorem Drains.notes (h : Drains queue channel m attempts last) :
    Notes m (attempts.filterMap Attempt.delivery?) last := by
  induction h with
  | closed m => exact .refl m
  | receive _ ih => exact ih
  | @relay record _ _ m _ _ _ ih =>
    have hboth := (notes_attempt m record).append ih
    rw [List.filterMap_cons]
    cases hfirst : (m.attempt record).1.delivery? with
    | none =>
      rw [hfirst] at hboth
      exact hboth
    | some delivered =>
      rw [hfirst] at hboth
      exact hboth

/-- **Two channels in a row are one channel.** -/
theorem drain_append (xs ys : List SpawnRecord) (m : Mesh) :
    (drain (xs ++ ys) m).attempts = (drain xs m).attempts ++ (drain ys (drain xs m).mesh).attempts ∧
      (drain (xs ++ ys) m).mesh = (drain ys (drain xs m).mesh).mesh := by
  induction xs generalizing m with
  | nil => exact ⟨rfl, rfl⟩
  | cons record rest ih =>
    obtain ⟨hattempts, hmesh⟩ := ih (relayQueue (weight record) [record] m).mesh
    refine ⟨?_, hmesh⟩
    show (relayQueue (weight record) [record] m).attempts ++ (drain (rest ++ ys) _).attempts = _
    rw [hattempts, ← List.append_assoc]
    rfl

/-- **The counts of a run add up.**  The deliveries, the duplicates and the failures are together as
many as the records of the channel and the records that the deliveries of the run answered.  There
are as many deliveries as there are more keys noted after the run than before it, and these are the
keys of the delivered records.  A run over two channels in a row leaves what a run over the second
leaves after a run over the first, and its counts are the sums of theirs. -/
theorem run_adds_up (xs ys : List SpawnRecord) (m : Mesh) :
    let run := drain xs m
    let stats := Stats.ofAttempts run.attempts
    stats.delivered + stats.duplicates + stats.failed =
        xs.length + (run.attempts.flatMap Attempt.followUps).length ∧
      run.mesh.relayer.delivered.size = m.relayer.delivered.size + stats.delivered ∧
      (∀ key, key ∈ run.mesh.relayer.delivered ↔
        key ∈ m.relayer.delivered ∨
          key ∈ (run.attempts.filterMap Attempt.delivery?).map SpawnRecord.deliveryKey) ∧
      (drain (xs ++ ys) m).mesh = (drain ys run.mesh).mesh ∧
      Stats.ofAttempts (drain (xs ++ ys) m).attempts =
        stats + Stats.ofAttempts (drain ys run.mesh).attempts := by
  intro run stats
  have hdrains := drains_drain xs m
  obtain ⟨hattempts, hmesh⟩ := drain_append xs ys m
  have hlength : run.attempts.length = _ := hdrains.length_attempts
  refine ⟨?_, ?_, hdrains.notes.mem_iff, hmesh, ?_⟩
  · rw [Stats.sum_ofAttempts, hlength, List.length_nil, Nat.zero_add]
  · rw [hdrains.notes.size_eq, Stats.delivered_ofAttempts]
  · rw [hattempts, Stats.ofAttempts_append]

end Crossnet.Mesh
