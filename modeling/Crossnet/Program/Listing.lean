import Crossnet.Program

/-!
# Program listings

The text of a program: a line for its tag, a line for each instruction with its
number, and a line for each portion or binding.  A spawned program is listed
inside its spawn, three levels further in.
-/

namespace Crossnet

namespace Listing

/-- The blanks at the begin of a line. -/
def margin (indent : Nat) : String :=
  "".pushn ' ' (2 * indent)

/-- An instruction's number, at least three characters wide. -/
def number (index : Nat) : String :=
  let digits := toString index
  "".pushn ' ' (3 - digits.length) ++ digits

/-- The line of an instruction. -/
def headLine (indent index : Nat) (text : String) : String :=
  s!"{margin indent}  {number index}: {text}"

/-- The line of a portion or a binding. -/
def detailLine (indent : Nat) (text : String) : String :=
  s!"{margin indent}       {text}"

/-- The lines of portions. -/
def portionLines (indent : Nat) (portions : List Portion) : List String :=
  portions.map fun p => detailLine indent (toString p)

/-- The lines of bindings. -/
def bindingLines (indent : Nat) (bindings : List Binding) : List String :=
  bindings.map fun b => detailLine indent s!"@{b.position} <- {b.value}"

end Listing

open Listing

mutual

/-- The lines of a program. -/
def Program.lines (indent : Nat) : Program → List String
  | ⟨tag, instructions⟩ =>
    s!"{margin indent}program tag={Hex.spellMarked tag}" ::
      Instruction.linesFrom indent 0 instructions

/-- The lines of the instruction with the given number. -/
def Instruction.lines (indent index : Nat) : Instruction → List String
  | .transfer recipient portions =>
    headLine indent index s!"transfer to {recipient}" :: portionLines indent portions
  | .call payload bindings =>
    headLine indent index s!"call payload={Hex.spellMarked payload}" ::
      bindingLines indent bindings
  | .spawn network salt version program portions =>
    headLine indent index
        s!"spawn network={network} salt={Hex.spellMarked salt} version={version}" ::
      (portionLines indent portions ++ program.lines (indent + 3))

/-- The lines of instructions that are numbered from `index` on. -/
def Instruction.linesFrom (indent index : Nat) : List Instruction → List String
  | [] => []
  | i :: rest => i.lines indent index ++ Instruction.linesFrom indent (index + 1) rest

end

/-- The listing: every line with its end. -/
def Program.listing (program : Program) : String :=
  String.join ((program.lines 0).map (· ++ "\n"))

end Crossnet
