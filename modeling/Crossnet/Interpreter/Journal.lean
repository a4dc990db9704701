import Crossnet.Interpreter
import Crossnet.Log

/-!
# The journal of a program

What is logged while a program runs: each instruction before its step, and each
spawn after it.  The journal ends with the instruction that fails.
-/

namespace Crossnet.Interpreter

variable {σ : Type} [Storage σ]

/-- What is logged after an instruction. -/
def spawnLines (interp : Interpreter) (env : Environment) : Instruction → List Log.Line
  | .spawn network .. =>
    [.debug s!"interpreter {interp.address} spawning on network {network} from {env.network}"]
  | _ => []

/-- What is logged while instructions run that are numbered from `index` on. -/
def stepLines (interp : Interpreter) (env : Environment) (index : Nat) :
    List Instruction → σ → List Log.Line
  | [], _ => []
  | i :: rest, s =>
    .debug s!"interpreter {interp.address} instruction {index}: {i.name}" ::
      match (interp.step env i).run s with
      | .ok _ s => interp.spawnLines env i ++ stepLines interp env (index + 1) rest s
      | .error _ _ => []

/-- What is logged while a program runs. -/
def journal (interp : Interpreter) (env : Environment) (program : Program)
    (incoming : List (AssetId × UInt128)) (s : σ) : List Log.Line :=
  match (interp.receive env incoming).run s with
  | .ok () s => interp.stepLines env 0 program.instructions s
  | .error _ _ => []

end Crossnet.Interpreter
