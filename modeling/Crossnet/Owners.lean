import Std.Data.ExtTreeSet
import Crossnet.Interpreter.ExecutionError

/-!
# Owners

Each interpreter has a set of owners, kept in storage as the list of their
addresses in order.  An absent entry means the empty set.  Only the interpreter
itself changes its owners.
-/

namespace Crossnet

/-- A finite set of addresses. -/
abbrev AddressSet := Std.ExtTreeSet Address

/-- A change of an interpreter's owners. -/
inductive OwnerCall
  | add (owners : List Address)
  | remove (owners : List Address)
deriving DecidableEq

namespace OwnerCall

/-- The set after the change. -/
def change (call : OwnerCall) (owners : AddressSet) : AddressSet :=
  match call with
  | add added => added.foldl (fun s a => s.insert a) owners
  | remove removed => removed.foldl (fun s a => s.erase a) owners

instance : Wire OwnerCall where
  encode
    | add owners => 0 :: Wire.encode owners
    | remove owners => 1 :: Wire.encode owners
  read := do
    let tag ← Reader.byte
    match tag.toNat with
    | 0 => add <$> Wire.read
    | 1 => remove <$> Wire.read
    | _ => throw (.unknownTag "OwnerCall" tag)

end OwnerCall

namespace Owners

/-- The key of an interpreter's owners. -/
def key (interpreter : Address) : Digest :=
  (Identity.owners interpreter).digest

/-- The owners of an interpreter. -/
def load (interpreter : Address) : Script ExecutionError AddressSet := do
  let key := key interpreter
  match ← Script.get? key with
  | none => pure ∅
  | some raw =>
    match (Wire.decode raw : Except DecodeError (List Address)) with
    | .ok owners => pure (Std.ExtTreeSet.ofList owners)
    | .error _ => throw (.corruptState key)

/-- Keeps the owners of an interpreter. -/
def save (interpreter : Address) (owners : AddressSet) : Script ExecutionError Unit :=
  Script.put (key interpreter) (some (Wire.encode owners.toList))

/-- Gives a new interpreter its first owner. -/
def init (interpreter owner : Address) : Script ExecutionError Unit :=
  save interpreter (Std.ExtTreeSet.ofList [owner])

/-- Changes the owners of an interpreter on behalf of a caller. -/
def apply (caller interpreter : Address) (call : OwnerCall) : Script ExecutionError Unit := do
  if caller ≠ interpreter then
    throw (.unauthorized caller interpreter)
  let owners ← load interpreter
  save interpreter (call.change owners)

end Owners

end Crossnet
