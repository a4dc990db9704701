import Crossnet.Bytes

/-!
# The Keccak permutation

The permutation Keccak-f[1600] on a state of twenty-five 64-bit lanes.  Lane
`(x, y)` stands at index `x + 5 * y`.  A round is the composition of the five
step maps θ, ρ, π, χ and ι; the permutation is twenty-four rounds.
-/

namespace Crossnet.Keccak

/-- Twenty-five lanes. -/
abbrev State := Vector UInt64 25

/-- The state of a fresh sponge. -/
def State.zero : State := Vector.replicate 25 0

/-- The lane in column `x` and row `y`, both counted modulo five. -/
def State.lane (s : State) (x y : Nat) : UInt64 :=
  have : x % 5 + 5 * (y % 5) < 25 := by omega
  s[x % 5 + 5 * (y % 5)]

/-- The state whose lane in column `x` and row `y` is `f x y`. -/
def State.ofLanes (f : Nat → Nat → UInt64) : State :=
  Vector.ofFn fun i => f (i.val % 5) (i.val / 5)

/-- Rotation of a lane towards its high bits. -/
def rotateLeft (lane : UInt64) (amount : UInt64) : UInt64 :=
  (lane <<< amount) ||| (lane >>> (64 - amount))

/-- Rotation amounts of the lanes, in index order. -/
def rotations : Vector UInt64 25 :=
  #v[0, 1, 62, 28, 27,
     36, 44, 6, 55, 20,
     3, 10, 43, 25, 39,
     41, 45, 15, 21, 8,
     18, 2, 61, 56, 14]

/-- Constants that break the symmetry of the rounds, in round order. -/
def roundConstants : List UInt64 :=
  [0x0000000000000001, 0x0000000000008082, 0x800000000000808A, 0x8000000080008000,
   0x000000000000808B, 0x0000000080000001, 0x8000000080008081, 0x8000000000008009,
   0x000000000000008A, 0x0000000000000088, 0x0000000080008009, 0x000000008000000A,
   0x000000008000808B, 0x800000000000008B, 0x8000000000008089, 0x8000000000008003,
   0x8000000000008002, 0x8000000000000080, 0x000000000000800A, 0x800000008000000A,
   0x8000000080008081, 0x8000000000008080, 0x0000000080000001, 0x8000000080008008]

/-- The step θ: each lane takes up the parities of two columns near its own. -/
def theta (s : State) : State :=
  let parity : Vector UInt64 5 := Vector.ofFn fun x =>
    s.lane x 0 ^^^ s.lane x 1 ^^^ s.lane x 2 ^^^ s.lane x 3 ^^^ s.lane x 4
  let mix : Vector UInt64 5 := Vector.ofFn fun x =>
    have h₁ : (x.val + 4) % 5 < 5 := by omega
    have h₂ : (x.val + 1) % 5 < 5 := by omega
    parity[(x.val + 4) % 5] ^^^ rotateLeft parity[(x.val + 1) % 5] 1
  Vector.ofFn fun i =>
    have h : i.val % 5 < 5 := by omega
    s[i.val] ^^^ mix[i.val % 5]

/-- The steps ρ and π: each lane is rotated by its own amount and moved to another place. -/
def rhoPi (s : State) : State :=
  let turned : State := Vector.ofFn fun i => rotateLeft s[i.val] rotations[i.val]
  State.ofLanes fun x y => turned.lane (x + 3 * y) x

/-- The step χ: the one that is not linear. -/
def chi (s : State) : State :=
  State.ofLanes fun x y => s.lane x y ^^^ (~~~ s.lane (x + 1) y &&& s.lane (x + 2) y)

/-- The step ι: the first lane takes up the round's constant. -/
def iota (constant : UInt64) (s : State) : State :=
  s.set 0 (s[0] ^^^ constant)

/-- One round. -/
def round (s : State) (constant : UInt64) : State :=
  iota constant (chi (rhoPi (theta s)))

/-- All twenty-four rounds. -/
def permute (s : State) : State :=
  roundConstants.foldl round s

end Crossnet.Keccak
