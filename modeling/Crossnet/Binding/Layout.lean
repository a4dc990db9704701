import Crossnet.Binding
import Crossnet.Program.ProgramError

/-!
# The layout of bindings

The bindings of a call fit when every span ends inside the payload and no two
spans share a byte.  `checkLayout` reports the first binding, in list order,
that ends outside; when there is none, it sorts the spans and reports the first
two neighbours that overlap, the one that begins earlier first.  Which two are
reported does not depend on the order of the list.
-/

namespace Crossnet

namespace Binding

/-- Whether a span comes before another: it begins earlier, or it begins at the same place and
ends no later. -/
def precedes (a b : Binding) : Bool :=
  a.start < b.start || (a.start = b.start && a.stop ≤ b.stop)

/-- Puts a binding into a sorted list. -/
def insertSorted (b : Binding) : List Binding → List Binding
  | [] => [b]
  | c :: rest => if b.precedes c then b :: c :: rest else c :: insertSorted b rest

/-- The bindings in the order of their spans. -/
def sorted (bindings : List Binding) : List Binding :=
  bindings.foldr insertSorted []

/-- The first two neighbours that overlap. -/
def firstOverlap? : List Binding → Option (Binding × Binding)
  | a :: b :: rest => if b.start < a.stop then some (a, b) else firstOverlap? (b :: rest)
  | _ => none

end Binding

/-- Refuses bindings that end outside a payload of the given length or overlap. -/
def checkLayout (payloadLength : Nat) (bindings : List Binding) : Except ProgramError Unit :=
  match bindings.find? fun b => payloadLength < b.stop with
  | some b => .error (.invalidBinding b.position b.value.width payloadLength)
  | none =>
    match Binding.firstOverlap? (Binding.sorted bindings) with
    | some (a, b) => .error (.overlappingBinding a.position b.position)
    | none => .ok ()

end Crossnet
