import Crossnet.Bytes
import Crossnet.Text.Blank

/-!
# Hexadecimal texts

`spell` writes each byte as two lower-case digits.  `parse?` reads a text back:
blanks around it are dropped, then every leading `0x` mark, and what is left is
read two characters at a time.  A pair is two hexadecimal digits of either
case, or a plus sign and one digit.
-/

namespace Crossnet.Hex

/-- The lower-case digit of a number below sixteen. -/
def digit (n : Nat) : Char :=
  if n < 10 then Char.ofNat (n + '0'.toNat) else Char.ofNat (n - 10 + 'a'.toNat)

/-- The two digits of a byte. -/
def pairOf (b : UInt8) : List Char :=
  [digit (b.toNat / 16), digit (b.toNat % 16)]

/-- The digits of a byte string, without a mark. -/
def spell (bytes : Bytes) : String :=
  String.ofList (bytes.flatMap pairOf)

/-- The digits of a byte string behind a `0x` mark. -/
def spellMarked (bytes : Bytes) : String :=
  "0x" ++ spell bytes

/-- The value of a hexadecimal digit of either case. -/
def value? (c : Char) : Option Nat :=
  if '0' ≤ c ∧ c ≤ '9' then some (c.toNat - '0'.toNat)
  else if 'a' ≤ c ∧ c ≤ 'f' then some (c.toNat - 'a'.toNat + 10)
  else if 'A' ≤ c ∧ c ≤ 'F' then some (c.toNat - 'A'.toNat + 10)
  else none

/-- The byte that a pair of characters stands for. -/
def pairValue? (high low : Char) : Option UInt8 :=
  match value? low with
  | none => none
  | some l =>
    if high = '+' then some (UInt8.ofNat l)
    else (value? high).map fun h => UInt8.ofNat (16 * h + l)

/-- Reads pairs of characters; `done` holds the bytes read so far, last one first. -/
def pairs? (done : Bytes) : List Char → Option Bytes
  | [] => some done.reverse
  | [_] => none
  | high :: low :: rest =>
    match pairValue? high low with
    | none => none
    | some b => pairs? (b :: done) rest

/-- Drops every `0x` mark that the text begins with. -/
def dropMarks : List Char → List Char
  | '0' :: 'x' :: rest => dropMarks rest
  | text => text

/-- The byte string that a text spells, if it spells one. -/
def parse? (text : String) : Option Bytes :=
  pairs? [] (dropMarks (Text.trim text.toList))

end Crossnet.Hex
