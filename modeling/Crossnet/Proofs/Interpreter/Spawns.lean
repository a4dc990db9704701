import Crossnet.Proofs.Interpreter.Stages
import Crossnet.Proofs.Program.Acceptance

/-!
# What spawns send

A run leaves one record for each of its spawns, in instruction order.  A record
holds the program of its spawn in the enveloped form and an amount for each
portion.  Where the program that runs was accepted, so is each program that it
sends: a sub-program has the checks of the whole behind it, and one level of
nesting less.

* `Instruction.Sends`: the record that a spawn leaves.
* `Interpreter.sends_of_run`: **a run leaves the records of its spawns, in order.**
* `Program.accept_of_spawned`: **what an accepted program spawns is accepted.**
-/

namespace Crossnet

/-! ## Spawns and their records -/

namespace Instruction

/-- The record that a spawn leaves for an origin: the data of the spawn, the enveloped form of its
program, and an amount for each portion. -/
inductive Sends (origin : Origin) : Instruction → SpawnRecord → Prop
  | spawn {network : NetworkId} {salt : Bytes} {version : UInt32} {program : Program}
      {portions : List Portion} {amounts : List UInt128}
      (hlength : amounts.length = portions.length) :
      Sends origin (.spawn network salt version program portions)
        { origin := origin
          target := network
          salt := salt
          version := version
          program := program.toWire
          assets := portions.map Portion.asset
          amounts := amounts }

theorem Sends.lengths {origin : Origin} {i : Instruction} {record : SpawnRecord}
    (h : i.Sends origin record) : record.assets.length = record.amounts.length := by
  cases h with
  | spawn hlength =>
    dsimp only
    rw [List.length_map, hlength]

theorem Sends.program {origin : Origin} {i : Instruction} {record : SpawnRecord}
    (h : i.Sends origin record) :
    ∃ program, i.spawned? = some program ∧ record.program = program.toWire := by
  cases h with
  | spawn => exact ⟨_, rfl, rfl⟩

end Instruction

/-! ## The records of a run -/

theorem Stage.Dispatches.sends {σ : Type} [Storage σ] {interp : Interpreter} {env : Environment}
    {stage : Stage σ} {record : SpawnRecord} (h : stage.Dispatches interp env record) :
    stage.instruction.Sends interp.origin record := by
  cases h with
  | spawn htaken => exact .spawn htaken.length_eq

/-- **A run leaves the records of its spawns, in order.** -/
theorem Interpreter.sends_of_run {σ : Type} [Storage σ] {s t : σ} {interp : Interpreter}
    {env : Environment} {instructions : List Instruction}
    {incoming : List (AssetId × UInt128)} {outcome : Outcome}
    (h : (interp.run env instructions incoming).run s = .ok outcome t) :
    List.Forall₂ (Instruction.Sends interp.origin) (instructions.filter Instruction.isSpawn)
      outcome.spawns := by
  obtain ⟨hinstructions, parts, hparts, hspawns, -⟩ := adds_of_run h
  rw [← hinstructions, hspawns, List.filter_map, List.forall₂_map_left_iff]
  exact (forall₂_of_adds Stage.Adds.dispatches hparts).imp fun _ _ => Stage.Dispatches.sends

/-! ## Programs inside programs -/

theorem Instruction.depth_of_spawned {i : Instruction} {sub : Program}
    (h : i.spawned? = some sub) : sub.depth < i.depth := by
  cases i with
  | spawn network salt version program portions =>
    cases h
    exact Nat.lt_succ_self _
  | transfer => cases h
  | call => cases h

theorem Program.depth_lt_of_spawned {p sub : Program} {i : Instruction} (hi : i ∈ p.instructions)
    (h : i.spawned? = some sub) : sub.depth < p.depth := by
  have hle : i.depth ≤ p.depth := Instruction.depthAll_le_iff.mp p.depth_eq.ge i hi
  exact (Instruction.depth_of_spawned h).trans_le hle

/-- **What an accepted program spawns is accepted**, and nested less deep. -/
theorem Program.accept_of_spawned {bytes : Bytes} {p sub : Program} {i : Instruction}
    (haccept : accept bytes = .ok p) (hi : i ∈ p.instructions) (h : i.spawned? = some sub) :
    accept sub.toWire = .ok sub ∧ sub.depth < p.depth := by
  have hdepth := depth_lt_of_spawned hi h
  obtain ⟨hfits, -, hle, hwf⟩ := accept_eq_ok_iff.mp haccept
  have hfitsi : i.Fits := (p.fits_iff.mp hfits).2.2 i hi
  have hwfi : i.WellFormed := p.wellFormed_iff.mp hwf i hi
  cases i with
  | spawn network salt version program portions =>
    cases h
    exact ⟨accept_eq_ok_iff.mpr ⟨hfitsi.2.1, rfl, by omega, hwfi.2⟩, hdepth⟩
  | transfer => cases h
  | call => cases h

end Crossnet
