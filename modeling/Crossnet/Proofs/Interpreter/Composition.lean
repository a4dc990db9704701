import Crossnet.Interpreter
import Crossnet.Proofs.Storage.Transparent

/-!
# Programs in a row

A program may be cut anywhere: what runs it as a whole may as well run its front
part, carry the writes out, and run the rest on what is there then.  The outcome
of a script of instructions does not depend on the outcome that it starts with,
and the second part reads the same whether the writes of the first one are still
in the overlay or carried out below it.

* `steps_eq_map`: instructions add to any outcome what they add to the empty one.
* `run_append`: the script of two lists of instructions is the two scripts in a
  row.
* `agree_execute_append`: no read can tell the whole from the two parts in turn,
  on any storage.
* `execute_append`: **on a store a program and its two parts end alike.**
-/

namespace Crossnet

/-! ## Outcomes -/

namespace Outcome

theorem empty_append (a : Outcome) : empty ++ a = a := rfl

theorem append_empty (a : Outcome) : a ++ empty = a := by
  show Outcome.mk (a.spawns ++ []) (a.outputs ++ []) = a
  rw [List.append_nil, List.append_nil]

theorem append_assoc (a b c : Outcome) : a ++ b ++ c = a ++ (b ++ c) := by
  show Outcome.mk (a.spawns ++ b.spawns ++ c.spawns) (a.outputs ++ b.outputs ++ c.outputs) =
    Outcome.mk (a.spawns ++ (b.spawns ++ c.spawns)) (a.outputs ++ (b.outputs ++ c.outputs))
  rw [List.append_assoc, List.append_assoc]

theorem eq_append_iff {a b c : Outcome} :
    a = b ++ c ↔ a.spawns = b.spawns ++ c.spawns ∧ a.outputs = b.outputs ++ c.outputs := by
  constructor
  · rintro rfl
    exact ⟨rfl, rfl⟩
  · rintro ⟨hspawns, houtputs⟩
    obtain ⟨spawns, outputs⟩ := a
    cases hspawns
    cases houtputs
    rfl

end Outcome

namespace Interpreter

variable {interp : Interpreter} {env : Environment}

/-! ## Scripts of instructions -/

theorem steps_cons (i : Instruction) (rest : List Instruction) (outcome : Outcome) :
    interp.steps env (i :: rest) outcome =
      interp.step env i >>= fun added => interp.steps env rest (outcome ++ added) := by
  rw [steps, List.foldlM_cons, bind_map_left]
  rfl

/-- **Instructions add to any outcome what they add to the empty one.** -/
theorem steps_eq_map (instructions : List Instruction) (outcome : Outcome) :
    interp.steps env instructions outcome =
      (outcome ++ ·) <$> interp.steps env instructions .empty := by
  induction instructions generalizing outcome with
  | nil =>
    show pure outcome = pure (outcome ++ Outcome.empty)
    rw [Outcome.append_empty]
  | cons i rest ih =>
    rw [steps_cons, steps_cons, map_bind]
    refine bind_congr fun added => ?_
    rw [ih (outcome ++ added), Outcome.empty_append, ih added, Functor.map_map]
    refine congrArg (· <$> interp.steps env rest .empty) (funext fun later => ?_)
    exact Outcome.append_assoc outcome added later

/-- The script of two lists of instructions is the two scripts in a row; the assets come in before
the first. -/
theorem run_append (xs ys : List Instruction) (incoming : List (AssetId × UInt128)) :
    interp.run env (xs ++ ys) incoming =
      interp.run env xs incoming >>= fun first => (first ++ ·) <$> interp.run env ys [] := by
  have hnone : interp.run env ys [] = interp.steps env ys .empty := rfl
  unfold run at hnone ⊢
  rw [hnone, bind_assoc, steps_append]
  refine bind_congr fun _ => ?_
  refine bind_congr fun first => ?_
  exact steps_eq_map ys first

end Interpreter

/-! ## Programs in turn -/

theorem Script.atomically_map {ε α β σ : Type} [Storage σ] (f : α → β) (script : Script ε α)
    (s : σ) :
    (f <$> script).atomically s =
      match script.atomically s with
      | .ok a t => .ok (f a) t
      | .error e t => .error e t := by
  unfold atomically
  rw [← bind_pure_comp, run_bind]
  cases script.run (Overlay.fresh s) with
  | ok a t => rfl
  | error e t => rfl

namespace Interpreter

variable {interp : Interpreter} {env : Environment} {tag tag₁ tag₂ : Bytes}
  {xs ys : List Instruction} {incoming : List (AssetId × UInt128)}

/-- Executes a program and then, on what it left, one that brings no assets. -/
def executeInTurn {σ : Type} [Storage σ] (interp : Interpreter) (env : Environment)
    (first second : Program) (incoming : List (AssetId × UInt128)) :
    EStateM ExecutionError σ Outcome :=
  (interp.run env first.instructions incoming).inTurn fun outcome =>
    (outcome ++ ·) <$> interp.run env second.instructions []

/-- **No read can tell a program from its two parts in turn.** -/
theorem agree_execute_append {σ : Type} [Storage σ] [LawfulStorage σ] (s : σ) :
    Script.Agree (interp.execute env ⟨tag, xs ++ ys⟩ incoming s)
      (interp.executeInTurn env ⟨tag₁, xs⟩ ⟨tag₂, ys⟩ incoming s) := by
  unfold execute executeInTurn
  dsimp only
  rw [run_append]
  exact Script.atomically_bind _ _ s

section InTurn

variable {σ : Type} [Storage σ] {first second : Program} {s : σ}

theorem executeInTurn_eq (s : σ) :
    interp.executeInTurn env first second incoming s =
      match interp.execute env first incoming s with
      | .ok outcome u =>
        match interp.execute env second [] u with
        | .ok added t => .ok (outcome ++ added) t
        | .error e _ => .error e s
      | .error e _ => .error e s := by
  unfold executeInTurn Script.inTurn execute
  cases (interp.run env first.instructions incoming).atomically s with
  | error e u => rfl
  | ok outcome u =>
    dsimp only
    rw [Script.atomically_map]
    cases (interp.run env second.instructions []).atomically u with
    | ok added t => rfl
    | error e t => rfl

theorem executeInTurn_eq_ok {outcome : Outcome} {t : σ} :
    interp.executeInTurn env first second incoming s = .ok outcome t ↔
      ∃ before added u, interp.execute env first incoming s = .ok before u ∧
        interp.execute env second [] u = .ok added t ∧ outcome = before ++ added := by
  rw [executeInTurn_eq]
  cases interp.execute env first incoming s with
  | error e u => simp
  | ok before u =>
    dsimp only
    cases hsecond : interp.execute env second [] u with
    | error e v => simp [hsecond]
    | ok added v => simp [hsecond, and_comm, eq_comm]

theorem executeInTurn_eq_error {e : ExecutionError} {t : σ} :
    interp.executeInTurn env first second incoming s = .error e t ↔
      t = s ∧ (interp.execute env first incoming s = .error e s ∨
        ∃ before u, interp.execute env first incoming s = .ok before u ∧
          interp.execute env second [] u = .error e u) := by
  rw [executeInTurn_eq]
  cases hfirst : interp.execute env first incoming s with
  | error d u =>
    obtain rfl := Script.atomically_error hfirst
    simp [eq_comm, and_comm]
  | ok before u =>
    dsimp only
    cases hsecond : interp.execute env second [] u with
    | ok added v => simp [hsecond]
    | error d v =>
      obtain rfl := Script.atomically_error hsecond
      simp [hsecond, eq_comm, and_comm]

end InTurn

/-- **A program and its two parts end alike**, whatever the tags.  The program ends well exactly
when the front part does and the rest does on what the front part left; it leaves what the rest
leaves, with the spawns and outputs of both in order.  Where it fails, the part that fails first
has the same cause, and the store is as it was. -/
theorem execute_append (s : Store) :
    (∀ outcome t, interp.execute env ⟨tag, xs ++ ys⟩ incoming s = .ok outcome t ↔
      ∃ first second u, interp.execute env ⟨tag₁, xs⟩ incoming s = .ok first u ∧
        interp.execute env ⟨tag₂, ys⟩ [] u = .ok second t ∧
        outcome.spawns = first.spawns ++ second.spawns ∧
        outcome.outputs = first.outputs ++ second.outputs) ∧
      ∀ e t, interp.execute env ⟨tag, xs ++ ys⟩ incoming s = .error e t ↔
        t = s ∧ (interp.execute env ⟨tag₁, xs⟩ incoming s = .error e s ∨
          ∃ first u, interp.execute env ⟨tag₁, xs⟩ incoming s = .ok first u ∧
            interp.execute env ⟨tag₂, ys⟩ [] u = .error e u) := by
  have hwhole : interp.execute env ⟨tag, xs ++ ys⟩ incoming s =
      interp.executeInTurn env ⟨tag₁, xs⟩ ⟨tag₂, ys⟩ incoming s := (agree_execute_append s).eq
  rw [hwhole]
  refine ⟨fun outcome t => ?_, fun e t => executeInTurn_eq_error⟩
  rw [executeInTurn_eq_ok]
  simp only [Outcome.eq_append_iff]

end Interpreter

end Crossnet
