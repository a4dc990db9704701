import Crossnet.Digest

/-!
# Digests that are worked out

A proof that needs the digest of some bytes has to run the hash.  The step maps
look each lane up by its number, which takes long there.  Here a state is the
list of its lanes, and a round takes the list apart twice and names them.

* `Keccak.toList_round`: **the round on lists is the round.**
* `toList_sha3`: **the digest is worked out on lists.**
-/

namespace Crossnet

namespace Keccak

/-! ## Rounds on lists of lanes -/

/-- The step θ. -/
def thetaLanes : List UInt64 → List UInt64
  | [a0, a1, a2, a3, a4, a5, a6, a7, a8, a9, a10, a11, a12, a13, a14, a15, a16, a17, a18, a19,
      a20, a21, a22, a23, a24] =>
    let p0 := a0 ^^^ a5 ^^^ a10 ^^^ a15 ^^^ a20
    let p1 := a1 ^^^ a6 ^^^ a11 ^^^ a16 ^^^ a21
    let p2 := a2 ^^^ a7 ^^^ a12 ^^^ a17 ^^^ a22
    let p3 := a3 ^^^ a8 ^^^ a13 ^^^ a18 ^^^ a23
    let p4 := a4 ^^^ a9 ^^^ a14 ^^^ a19 ^^^ a24
    let m0 := p4 ^^^ rotateLeft p1 1
    let m1 := p0 ^^^ rotateLeft p2 1
    let m2 := p1 ^^^ rotateLeft p3 1
    let m3 := p2 ^^^ rotateLeft p4 1
    let m4 := p3 ^^^ rotateLeft p0 1
    [a0 ^^^ m0, a1 ^^^ m1, a2 ^^^ m2, a3 ^^^ m3, a4 ^^^ m4,
      a5 ^^^ m0, a6 ^^^ m1, a7 ^^^ m2, a8 ^^^ m3, a9 ^^^ m4,
      a10 ^^^ m0, a11 ^^^ m1, a12 ^^^ m2, a13 ^^^ m3, a14 ^^^ m4,
      a15 ^^^ m0, a16 ^^^ m1, a17 ^^^ m2, a18 ^^^ m3, a19 ^^^ m4,
      a20 ^^^ m0, a21 ^^^ m1, a22 ^^^ m2, a23 ^^^ m3, a24 ^^^ m4]
  | lanes => lanes

/-- The step χ on one row. -/
def chiRow (a b c d e : UInt64) : List UInt64 :=
  [a ^^^ (~~~b &&& c), b ^^^ (~~~c &&& d), c ^^^ (~~~d &&& e), d ^^^ (~~~e &&& a),
    e ^^^ (~~~a &&& b)]

/-- The steps ρ, π and χ: the lanes are rotated, and the rows of χ are diagonals of what comes of
that. -/
def diagonalLanes (lanes : List UInt64) : List UInt64 :=
  match List.zipWith rotateLeft lanes rotations.toList with
  | [a0, a1, a2, a3, a4, a5, a6, a7, a8, a9, a10, a11, a12, a13, a14, a15, a16, a17, a18, a19,
      a20, a21, a22, a23, a24] =>
    chiRow a0 a6 a12 a18 a24 ++ chiRow a3 a9 a10 a16 a22 ++ chiRow a1 a7 a13 a19 a20 ++
      chiRow a4 a5 a11 a17 a23 ++ chiRow a2 a8 a14 a15 a21
  | turned => turned

/-- The step ι. -/
def iotaLanes (constant : UInt64) : List UInt64 → List UInt64
  | first :: rest => (first ^^^ constant) :: rest
  | [] => []

/-- One round. -/
def roundLanes (lanes : List UInt64) (constant : UInt64) : List UInt64 :=
  iotaLanes constant (diagonalLanes (thetaLanes lanes))

/-- All rounds. -/
def permuteLanes (lanes : List UInt64) : List UInt64 :=
  roundConstants.foldl roundLanes lanes

theorem ofFn_five {α : Type} (f : Fin 5 → α) : Vector.ofFn f = #v[f 0, f 1, f 2, f 3, f 4] := by
  rw [← Vector.toList_inj, Vector.toList_ofFn]
  rfl

theorem ofFn_twentyFive {α : Type} (f : Fin 25 → α) :
    Vector.ofFn f = #v[f 0, f 1, f 2, f 3, f 4, f 5, f 6, f 7, f 8, f 9, f 10, f 11, f 12, f 13,
      f 14, f 15, f 16, f 17, f 18, f 19, f 20, f 21, f 22, f 23, f 24] := by
  rw [← Vector.toList_inj, Vector.toList_ofFn]
  rfl

/-- A state is made of its lanes. -/
theorem State.eq_lanes (s : State) : s = Vector.ofFn s.get := by
  ext i hi
  rw [Vector.getElem_ofFn]
  rfl

theorem toList_theta (s : State) : (theta s).toList = thetaLanes s.toList := by
  -- With each lane written out, both sides evaluate to the same list.
  rw [s.eq_lanes, ofFn_twentyFive]
  simp only [theta, ofFn_five, ofFn_twentyFive]
  rfl

theorem toList_chi_rhoPi (s : State) :
    (chi (rhoPi s)).toList = diagonalLanes s.toList := by
  rw [s.eq_lanes, ofFn_twentyFive]
  simp only [chi, rhoPi, State.ofLanes, ofFn_twentyFive]
  rfl

theorem toList_iota (constant : UInt64) (s : State) :
    (iota constant s).toList = iotaLanes constant s.toList := by
  rw [s.eq_lanes, ofFn_twentyFive]
  rfl

/-- **The round on lists is the round.** -/
theorem toList_round (s : State) (constant : UInt64) :
    (round s constant).toList = roundLanes s.toList constant := by
  rw [round, toList_iota, toList_chi_rhoPi, toList_theta]
  rfl

theorem toList_permute (s : State) : (permute s).toList = permuteLanes s.toList :=
  (List.foldl_hom Vector.toList fun s constant => (toList_round s constant).symm).symm

end Keccak

/-! ## The hash on lists of lanes -/

namespace Sha3

/-- The lanes after one block is mixed in. -/
def absorbBlockLanes (lanes : List UInt64) (block : Bytes) : List UInt64 :=
  Keccak.permuteLanes <| (List.range 25).zipWith (fun i lane =>
    if i < 17 then lane ^^^ UInt64.ofNat (LittleEndian.decode ((block.drop (8 * i)).take 8))
    else lane) lanes

/-- The lanes after the first `count` blocks are mixed in. -/
def absorbLanes : (count : Nat) → List UInt64 → Bytes → List UInt64
  | 0, lanes, _ => lanes
  | count + 1, lanes, padded =>
    absorbLanes count (absorbBlockLanes lanes (padded.take rate)) (padded.drop rate)

/-- The bytes of the digest. -/
def digestBytes (message : Bytes) : Bytes :=
  ((absorbLanes ((pad message).length / rate) (List.replicate 25 0) (pad message)).take 4).flatMap
    fun lane => LittleEndian.encode 8 lane.toNat

theorem toList_absorbBlock (s : Keccak.State) (block : Bytes) :
    (absorbBlock s block).toList = absorbBlockLanes s.toList block := by
  rw [absorbBlock, Keccak.toList_permute, absorbBlockLanes, s.eq_lanes, Keccak.ofFn_twentyFive,
    Keccak.ofFn_twentyFive]
  rfl

theorem toList_absorb (count : Nat) (s : Keccak.State) (padded : Bytes) :
    (absorb count s padded).toList = absorbLanes count s.toList padded := by
  induction count generalizing s padded with
  | zero => rfl
  | succ count ih => rw [absorb, ih, toList_absorbBlock, absorbLanes]

theorem toList_squeeze (s : Keccak.State) :
    (squeeze s).toList =
      (s.toList.take 4).flatMap fun lane => LittleEndian.encode 8 lane.toNat := by
  rw [s.eq_lanes, Keccak.ofFn_twentyFive]
  simp [squeeze, Keccak.State.lane]

end Sha3

/-- **The digest is worked out on lists.** -/
theorem toList_sha3 (message : Bytes) : (sha3 message).toList = Sha3.digestBytes message := by
  rw [sha3, Sha3.toList_squeeze, Sha3.toList_absorb]
  rfl

/-- The digest of no bytes begins as published. -/
example : (Sha3.digestBytes []).take 4 = [0xA7, 0xFF, 0xC6, 0xF8] := by decide +kernel

end Crossnet
