import Crossnet.Program.Listing
import Crossnet.Proofs.Text.Faithful

/-!
# Listings hide nothing

Where a list of portions, of bindings or of instructions ends, and where a
spawned program does, is shown by nothing but the blanks that lines begin with.
With the margin `m` of a program, these are `m` before its tag, from `m + 2` to
`m + 4` before its instructions, as their numbers are filled up to three places,
and `m + 7` before portions and bindings.  The margin of a program that it
spawns is `m + 6`, so no two kinds of lines share a number of blanks at any
level.

* `Program.lines_append_inj`: the lines of a program end where a line stands that
  begins with no more blanks than its first.
* `Program.listing_eq_iff`: **different programs have different listings.**
-/

namespace Crossnet

namespace Listing

/-! ## Blanks in front of lines -/

theorem toList_pushn (s : String) (c : Char) (n : Nat) :
    (s.pushn c n).toList = s.toList ++ List.replicate n c := by
  rw [String.pushn_eq_repeat_push]
  induction n with
  | zero => simp [Nat.repeat]
  | succ n ih => rw [Nat.repeat, String.toList_push, ih, List.append_assoc, List.replicate_succ']

/-- The number of blanks that a line begins with. -/
def inset (line : String) : Nat :=
  (line.toList.takeWhile (· = ' ')).length

theorem inset_eq {line : String} {n : Nat} {c : Char} {text : List Char}
    (h : line.toList = List.replicate n ' ' ++ c :: text) (hc : c ≠ ' ') : inset line = n := by
  have hblanks : ∀ d ∈ List.replicate n ' ', decide (d = ' ') = true := by
    intro d hd
    rw [List.eq_of_mem_replicate hd]
    rfl
  rw [inset, h, List.takeWhile_append_of_pos hblanks,
    List.takeWhile_cons_of_neg (by simpa using hc), List.append_nil, List.length_replicate]

/-- The line of a program's tag. -/
def tagLine (indent : Nat) (tag : Bytes) : String :=
  s!"{margin indent}program tag={Hex.spellMarked tag}"

theorem toList_tagLine (indent : Nat) (tag : Bytes) :
    (tagLine indent tag).toList =
      List.replicate (2 * indent) ' ' ++
        ("program tag=".toList ++ (Hex.spellMarked tag).toList) := by
  simp [tagLine, margin, toString, toList_pushn]

theorem toList_headLine (indent index : Nat) (text : String) :
    (headLine indent index text).toList =
      List.replicate (2 * indent + 2 + (3 - (toString index).length)) ' ' ++
        ((toString index).toList ++ (": ".toList ++ text.toList)) := by
  rw [← List.replicate_append_replicate, ← List.replicate_append_replicate]
  simp [headLine, number, margin, toString, toList_pushn, List.replicate_succ,
    -List.replicate_append_replicate]

theorem toList_detailLine (indent : Nat) (text : String) :
    (detailLine indent text).toList =
      List.replicate (2 * indent + 7) ' ' ++ text.toList := by
  rw [← List.replicate_append_replicate]
  simp [detailLine, margin, toString, toList_pushn, List.replicate_succ,
    -List.replicate_append_replicate]

theorem inset_tagLine (indent : Nat) (tag : Bytes) : inset (tagLine indent tag) = 2 * indent :=
  inset_eq (toList_tagLine indent tag) (by decide)

theorem inset_headLine (indent index : Nat) (text : String) :
    2 * indent + 2 ≤ inset (headLine indent index text) ∧
      inset (headLine indent index text) ≤ 2 * indent + 4 := by
  obtain ⟨d, rest, hnumber, hd⟩ := exists_number_eq_cons index
  have hlength : (toString index).length = rest.length + 1 := by
    rw [← String.length_toList, hnumber, List.length_cons]
  have hline := toList_headLine indent index text
  rw [hlength, hnumber] at hline
  rw [inset_eq hline hd]
  omega

theorem inset_detailLine (indent : Nat) {text : String} {c : Char} {rest : List Char}
    (h : text.toList = c :: rest) (hc : c ≠ ' ') :
    inset (detailLine indent text) = 2 * indent + 7 := by
  have hline := toList_detailLine indent text
  rw [h] at hline
  exact inset_eq hline hc

theorem tagLine_inj {indent : Nat} {tag tag' : Bytes}
    (h : tagLine indent tag = tagLine indent tag') : tag = tag' := by
  have hlist := congrArg String.toList h
  rw [toList_tagLine, toList_tagLine] at hlist
  exact Hex.faithful_spellMarked.eq (List.append_cancel_left (List.append_cancel_left hlist))

theorem headLine_inj {indent index : Nat} {text text' : String}
    (h : headLine indent index text = headLine indent index text') : text = text' := by
  have hlist := congrArg String.toList h
  rw [toList_headLine, toList_headLine] at hlist
  exact String.toList_inj.mp
    (List.append_cancel_left (List.append_cancel_left (List.append_cancel_left hlist)))

theorem detailLine_inj {indent : Nat} {text text' : String}
    (h : detailLine indent text = detailLine indent text') : text = text' := by
  have hlist := congrArg String.toList h
  rw [toList_detailLine, toList_detailLine] at hlist
  exact String.toList_inj.mp (List.append_cancel_left hlist)

/-! ## Lines do not break -/

theorem newline_notMem_blanks (n : Nat) : '\n' ∉ List.replicate n ' ' := by
  intro hmem
  exact absurd (List.eq_of_mem_replicate hmem) (by decide)

theorem newline_notMem_tagLine (indent : Nat) (tag : Bytes) :
    '\n' ∉ (tagLine indent tag).toList := by
  rw [toList_tagLine]
  exact List.not_mem_append (newline_notMem_blanks _)
    (List.not_mem_append (by decide) (Hex.faithful_spellMarked.newline_notMem tag))

theorem newline_notMem_headLine (indent index : Nat) {text : String} (h : '\n' ∉ text.toList) :
    '\n' ∉ (headLine indent index text).toList := by
  rw [toList_headLine]
  exact List.not_mem_append (newline_notMem_blanks _)
    (List.not_mem_append (faithful_number.newline_notMem index) (List.not_mem_append (by decide) h))

theorem newline_notMem_detailLine (indent : Nat) {text : String} (h : '\n' ∉ text.toList) :
    '\n' ∉ (detailLine indent text).toList := by
  rw [toList_detailLine]
  exact List.not_mem_append (newline_notMem_blanks _) h

/-- Lines that do not break can be told from the text that they make. -/
theorem eq_of_join_eq {xs ys : List String} (hxs : ∀ line ∈ xs, '\n' ∉ line.toList)
    (hys : ∀ line ∈ ys, '\n' ∉ line.toList)
    (h : String.join (xs.map (· ++ "\n")) = String.join (ys.map (· ++ "\n"))) : xs = ys := by
  have hlines : ∀ zs : List String, (String.join (zs.map (· ++ "\n"))).toList =
      zs.flatMap fun line => line.toList ++ ['\n'] := by
    intro zs
    simp only [String.toList_join, List.flatMap_map, String.toList_append]
    rfl
  have htext := congrArg String.toList h
  rw [hlines, hlines] at htext
  clear h hlines
  induction xs generalizing ys with
  | nil =>
    cases ys with
    | nil => rfl
    | cons y ys => simp at htext
  | cons x xs ih =>
    cases ys with
    | nil => simp at htext
    | cons y ys =>
      rw [List.flatMap_cons, List.flatMap_cons, List.append_assoc, List.append_assoc] at htext
      obtain ⟨hline, hrest⟩ := append_cons_inj (hxs x List.mem_cons_self)
        (hys y List.mem_cons_self) htext
      rw [String.toList_inj.mp hline, ih (fun line hmem => hxs line (List.mem_cons_of_mem _ hmem))
        (fun line hmem => hys line (List.mem_cons_of_mem _ hmem)) hrest]

/-! ## Lists of lines -/

/-- The next line, if there is one, begins with at most so many blanks. -/
def Shallow (bound : Nat) (lines : List String) : Prop :=
  ∀ line ∈ lines.head?, inset line ≤ bound

theorem shallow_cons {bound : Nat} {line : String} {lines : List String} :
    Shallow bound (line :: lines) ↔ inset line ≤ bound := by
  simp [Shallow]

theorem Shallow.mono {low high : Nat} {lines : List String} (h : Shallow low lines)
    (hle : low ≤ high) : Shallow high lines :=
  fun line hline => Nat.le_trans (h line hline) hle

/-- A list of details ends where a line stands that begins with fewer blanks. -/
theorem map_append_inj {α : Type} {line : α → String} (hline : Function.Injective line)
    {bound : Nat} (hdeep : ∀ a, bound < inset (line a)) {xs ys : List α} {more rest : List String}
    (hmore : Shallow bound more) (hrest : Shallow bound rest)
    (h : xs.map line ++ more = ys.map line ++ rest) : xs = ys ∧ more = rest := by
  induction xs generalizing ys with
  | nil =>
    cases ys with
    | nil => exact ⟨rfl, h⟩
    | cons y ys =>
      obtain rfl : more = line y :: (ys.map line ++ rest) := h
      exact absurd (hdeep y) (Nat.not_lt.mpr (shallow_cons.mp hmore))
  | cons x xs ih =>
    cases ys with
    | nil =>
      obtain rfl : line x :: (xs.map line ++ more) = rest := h
      exact absurd (hdeep x) (Nat.not_lt.mpr (shallow_cons.mp hrest))
    | cons y ys =>
      obtain ⟨hhead, htail⟩ := List.cons.inj h
      obtain ⟨rfl, hsame⟩ := ih htail
      exact ⟨by rw [hline hhead], hsame⟩

section Details

variable {α : Type} {text : α → String} (htext : Faithful text)

include htext

theorem detailLines_append_inj (hfirst : ∀ a, ∃ c rest, (text a).toList = c :: rest ∧ c ≠ ' ')
    {indent : Nat} {xs ys : List α} {more rest : List String}
    (hmore : Shallow (2 * indent + 6) more) (hrest : Shallow (2 * indent + 6) rest)
    (h : xs.map (fun a => detailLine indent (text a)) ++ more =
      ys.map (fun a => detailLine indent (text a)) ++ rest) :
    xs = ys ∧ more = rest := by
  have hline : Function.Injective fun a => detailLine indent (text a) := fun a b hab =>
    htext.injective (detailLine_inj hab)
  have hdeep : ∀ a, 2 * indent + 6 < inset (detailLine indent (text a)) := by
    intro a
    obtain ⟨c, rest, hlist, hc⟩ := hfirst a
    rw [inset_detailLine indent hlist hc]
    omega
  exact map_append_inj hline hdeep hmore hrest h

theorem newline_notMem_detailLines (indent : Nat) (xs : List α) :
    ∀ line ∈ xs.map (fun a => detailLine indent (text a)), '\n' ∉ line.toList := by
  intro line hline
  obtain ⟨a, -, rfl⟩ := List.mem_map.mp hline
  exact newline_notMem_detailLine indent (htext.newline_notMem a)

end Details

theorem portionLines_append_inj {indent : Nat} {portions portions' : List Portion}
    {more rest : List String} (hmore : Shallow (2 * indent + 6) more)
    (hrest : Shallow (2 * indent + 6) rest)
    (h : portionLines indent portions ++ more = portionLines indent portions' ++ rest) :
    portions = portions' ∧ more = rest := by
  have hfirst : ∀ p : Portion, ∃ c rest, (toString p).toList = c :: rest ∧ c ≠ ' ' := by
    intro p
    obtain ⟨d, digits, hnumber, hd⟩ := exists_number_eq_cons p.asset.number.toNat
    rw [p.toList_toString, hnumber]
    exact ⟨d, _, rfl, hd⟩
  exact detailLines_append_inj Portion.faithful hfirst hmore hrest h

theorem bindingLines_append_inj {indent : Nat} {bindings bindings' : List Binding}
    {more rest : List String} (hmore : Shallow (2 * indent + 6) more)
    (hrest : Shallow (2 * indent + 6) rest)
    (h : bindingLines indent bindings ++ more = bindingLines indent bindings' ++ rest) :
    bindings = bindings' ∧ more = rest :=
  detailLines_append_inj Binding.faithful (fun b => ⟨'@', _, b.toList_text, by decide⟩) hmore hrest
    h

end Listing

open Listing

/-! ## Headings -/

/-- What the first line of an instruction says behind the number. -/
def Instruction.heading : Instruction → String
  | .transfer recipient _ => s!"transfer to {recipient}"
  | .call payload _ => s!"call payload={Hex.spellMarked payload}"
  | .spawn network salt version _ _ =>
    s!"spawn network={network} salt={Hex.spellMarked salt} version={version}"

theorem Instruction.toList_heading_transfer (recipient : Recipient) (portions : List Portion) :
    (transfer recipient portions).heading.toList =
      "transfer to ".toList ++ (toString recipient).toList :=
  String.toList_append

theorem Instruction.toList_heading_call (payload : Bytes) (bindings : List Binding) :
    (call payload bindings).heading.toList =
      "call payload=".toList ++ (Hex.spellMarked payload).toList :=
  String.toList_append

theorem Instruction.toList_heading_spawn (network : NetworkId) (salt : Bytes) (version : UInt32)
    (program : Program) (portions : List Portion) :
    (spawn network salt version program portions).heading.toList =
      "spawn network=".toList ++ ((toString network.number.toNat).toList ++
        (" salt=".toList ++ ((Hex.spellMarked salt).toList ++
          (" version=".toList ++ (toString version.toNat).toList)))) := by
  show (s!"spawn network={network} salt={Hex.spellMarked salt} version={version}").toList = _
  simp only [toString, String.toList_append, List.append_assoc]

/-- What the heading says of an instruction. -/
def Instruction.SameHeading : Instruction → Instruction → Prop
  | .transfer recipient _, .transfer recipient' _ => recipient = recipient'
  | .call payload _, .call payload' _ => payload = payload'
  | .spawn network salt version _ _, .spawn network' salt' version' _ _ =>
    network = network' ∧ salt = salt' ∧ version = version'
  | _, _ => False

theorem Instruction.sameHeading_of_eq {i j : Instruction} (h : i.heading = j.heading) :
    i.SameHeading j := by
  have hlist := congrArg String.toList h
  cases i with
  | transfer recipient portions =>
    rw [toList_heading_transfer] at hlist
    cases j with
    | transfer recipient' portions' =>
      rw [toList_heading_transfer] at hlist
      exact Recipient.faithful.eq (List.append_cancel_left hlist)
    | _ =>
      simp only [toList_heading_call, toList_heading_spawn] at hlist
      exact absurd (List.cons.inj hlist).1 (by decide)
  | call payload bindings =>
    rw [toList_heading_call] at hlist
    cases j with
    | call payload' bindings' =>
      rw [toList_heading_call] at hlist
      exact Hex.faithful_spellMarked.eq (List.append_cancel_left hlist)
    | _ =>
      simp only [toList_heading_transfer, toList_heading_spawn] at hlist
      exact absurd (List.cons.inj hlist).1 (by decide)
  | spawn network salt version program portions =>
    rw [toList_heading_spawn] at hlist
    cases j with
    | spawn network' salt' version' program' portions' =>
      rw [toList_heading_spawn] at hlist
      obtain ⟨hnetwork, htail⟩ := number_append_inj (by decide) (List.append_cancel_left hlist)
      have hsalted : (Hex.spellMarked salt).toList ++
            ' ' :: ("version=".toList ++ (toString version.toNat).toList) =
          (Hex.spellMarked salt').toList ++
            ' ' :: ("version=".toList ++ (toString version'.toNat).toList) :=
        List.append_cancel_left (show "salt=".toList ++ _ = "salt=".toList ++ _ from htail)
      obtain ⟨hsalt, hversion⟩ := append_cons_inj
        (Hex.notMem_spellMarked (by decide) (by decide) salt)
        (Hex.notMem_spellMarked (by decide) (by decide) salt') hsalted
      refine ⟨?_, Hex.faithful_spellMarked.eq hsalt, ?_⟩
      · exact congrArg NetworkId.mk (UInt32.toNat_inj.mp hnetwork)
      · exact UInt32.toNat_inj.mp (faithful_number.eq (List.append_cancel_left hversion))
    | _ =>
      simp only [toList_heading_transfer, toList_heading_call] at hlist
      exact absurd (List.cons.inj hlist).1 (by decide)

theorem Instruction.newline_notMem_heading (i : Instruction) : '\n' ∉ i.heading.toList := by
  cases i with
  | transfer recipient portions =>
    rw [toList_heading_transfer]
    exact List.not_mem_append (by decide) (Recipient.faithful.newline_notMem recipient)
  | call payload bindings =>
    rw [toList_heading_call]
    exact List.not_mem_append (by decide) (Hex.faithful_spellMarked.newline_notMem payload)
  | spawn network salt version program portions =>
    rw [toList_heading_spawn]
    exact List.not_mem_append (by decide) (List.not_mem_append (faithful_number.newline_notMem _)
      (List.not_mem_append (by decide) (List.not_mem_append
        (Hex.faithful_spellMarked.newline_notMem salt)
        (List.not_mem_append (by decide) (faithful_number.newline_notMem _)))))

/-! ## Programs -/

/-- The lines of an instruction below its first. -/
def Instruction.linesBelow (indent : Nat) : Instruction → List String
  | .transfer _ portions => portionLines indent portions
  | .call _ bindings => bindingLines indent bindings
  | .spawn _ _ _ program portions => portionLines indent portions ++ program.lines (indent + 3)

theorem Instruction.lines_eq (i : Instruction) (indent index : Nat) :
    i.lines indent index = headLine indent index i.heading :: i.linesBelow indent := by
  cases i <;> rw [lines] <;> rfl

/-- The first lines of two instructions with one number say the same, and below them stands the
same. -/
theorem Instruction.sameHeading_of_lines_eq {i j : Instruction} {indent index : Nat}
    {more rest : List String}
    (h : i.lines indent index ++ more = j.lines indent index ++ rest) :
    i.SameHeading j ∧ i.linesBelow indent ++ more = j.linesBelow indent ++ rest := by
  rw [lines_eq, lines_eq, List.cons_append, List.cons_append] at h
  obtain ⟨hhead, htail⟩ := List.cons.inj h
  exact ⟨sameHeading_of_eq (headLine_inj hhead), htail⟩

theorem Program.lines_eq (tag : Bytes) (instructions : List Instruction) (indent : Nat) :
    Program.lines indent ⟨tag, instructions⟩ =
      tagLine indent tag :: Instruction.linesFrom indent 0 instructions := by
  rw [lines]
  rfl

theorem Program.shallow_lines (p : Program) (indent : Nat) (rest : List String) :
    Shallow (2 * indent) (p.lines indent ++ rest) := by
  obtain ⟨tag, instructions⟩ := p
  rw [lines_eq, List.cons_append, shallow_cons, inset_tagLine]

/-- The next instruction ends the one before, and so does what ends the program. -/
theorem Instruction.shallow_linesFrom (instructions : List Instruction) {indent index : Nat}
    {rest : List String} (h : Shallow (2 * indent) rest) :
    Shallow (2 * indent + 4) (linesFrom indent index instructions ++ rest) := by
  cases instructions with
  | nil => exact h.mono (by omega)
  | cons i instructions =>
    rw [linesFrom, lines_eq]
    exact shallow_cons.mpr (inset_headLine indent index i.heading).2

mutual

/-- **The lines of a program end** where a line stands that begins with no more blanks than its
first, and they say which program it is. -/
theorem Program.lines_append_inj : ∀ (p q : Program) {indent : Nat} {more rest : List String},
    Shallow (2 * indent) more → Shallow (2 * indent) rest →
      p.lines indent ++ more = q.lines indent ++ rest → p = q ∧ more = rest
  | ⟨tag, instructions⟩, ⟨tag', instructions'⟩, indent, more, rest => by
    intro hmore hrest h
    rw [Program.lines_eq, Program.lines_eq, List.cons_append, List.cons_append] at h
    obtain ⟨htag, htail⟩ := List.cons.inj h
    obtain ⟨rfl, hsame⟩ := Instruction.linesFrom_append_inj instructions instructions' hmore hrest
      htail
    rw [tagLine_inj htag]
    exact ⟨rfl, hsame⟩

theorem Instruction.lines_append_inj : ∀ (i j : Instruction) {indent index : Nat}
    {more rest : List String}, Shallow (2 * indent + 4) more → Shallow (2 * indent + 4) rest →
      i.lines indent index ++ more = j.lines indent index ++ rest → i = j ∧ more = rest
  | .transfer recipient portions, j, indent, index, more, rest => by
    intro hmore hrest h
    obtain ⟨hsame, htail⟩ := Instruction.sameHeading_of_lines_eq h
    cases j with
    | transfer recipient' portions' =>
      obtain rfl : recipient = recipient' := hsame
      obtain ⟨rfl, hsame⟩ := portionLines_append_inj (hmore.mono (by omega)) (hrest.mono (by omega))
        htail
      exact ⟨rfl, hsame⟩
    | _ => cases hsame
  | .call payload bindings, j, indent, index, more, rest => by
    intro hmore hrest h
    obtain ⟨hsame, htail⟩ := Instruction.sameHeading_of_lines_eq h
    cases j with
    | call payload' bindings' =>
      obtain rfl : payload = payload' := hsame
      obtain ⟨rfl, hsame⟩ := bindingLines_append_inj (hmore.mono (by omega)) (hrest.mono (by omega))
        htail
      exact ⟨rfl, hsame⟩
    | _ => cases hsame
  | .spawn network salt version program portions, j, indent, index, more, rest => by
    intro hmore hrest h
    obtain ⟨hsame, htail⟩ := Instruction.sameHeading_of_lines_eq h
    cases j with
    | spawn network' salt' version' program' portions' =>
      obtain ⟨rfl, rfl, rfl⟩ := hsame
      rw [Instruction.linesBelow, Instruction.linesBelow, List.append_assoc, List.append_assoc]
        at htail
      -- the program's first line ends the portions, and what ends the instruction ends the program
      obtain ⟨rfl, hlines⟩ := portionLines_append_inj
        ((program.shallow_lines (indent + 3) more).mono (by omega))
        ((program'.shallow_lines (indent + 3) rest).mono (by omega)) htail
      obtain ⟨rfl, hsame⟩ := Program.lines_append_inj program program' (hmore.mono (by omega))
        (hrest.mono (by omega)) hlines
      exact ⟨rfl, hsame⟩
    | _ => cases hsame

theorem Instruction.linesFrom_append_inj : ∀ (is js : List Instruction) {indent index : Nat}
    {more rest : List String}, Shallow (2 * indent) more → Shallow (2 * indent) rest →
      Instruction.linesFrom indent index is ++ more =
        Instruction.linesFrom indent index js ++ rest → is = js ∧ more = rest
  | [], js, indent, index, more, rest => by
    intro hmore hrest h
    cases js with
    | nil => exact ⟨rfl, h⟩
    | cons j js =>
      rw [Instruction.linesFrom, Instruction.linesFrom, Instruction.lines_eq] at h
      obtain rfl := h
      have hinset := (inset_headLine indent index j.heading).1
      have hle := shallow_cons.mp hmore
      omega
  | i :: is, js, indent, index, more, rest => by
    intro hmore hrest h
    cases js with
    | nil =>
      rw [Instruction.linesFrom, Instruction.linesFrom, Instruction.lines_eq] at h
      obtain rfl := h
      have hinset := (inset_headLine indent index i.heading).1
      have hle := shallow_cons.mp hrest
      omega
    | cons j js =>
      rw [Instruction.linesFrom, Instruction.linesFrom, List.append_assoc, List.append_assoc] at h
      obtain ⟨rfl, htail⟩ := Instruction.lines_append_inj i j
        (Instruction.shallow_linesFrom is hmore) (Instruction.shallow_linesFrom js hrest) h
      obtain ⟨rfl, hsame⟩ := Instruction.linesFrom_append_inj is js hmore hrest htail
      exact ⟨rfl, hsame⟩

end

mutual

theorem Program.newline_notMem_lines : ∀ (p : Program) (indent : Nat),
    ∀ line ∈ p.lines indent, '\n' ∉ line.toList
  | ⟨tag, instructions⟩, indent => by
    rw [Program.lines_eq]
    intro line hline
    rcases List.mem_cons.mp hline with rfl | hline
    · exact newline_notMem_tagLine indent tag
    · exact Instruction.newline_notMem_linesFrom instructions indent 0 line hline

theorem Instruction.newline_notMem_linesBelow : ∀ (i : Instruction) (indent : Nat),
    ∀ line ∈ i.linesBelow indent, '\n' ∉ line.toList
  | .transfer _ portions, indent => newline_notMem_detailLines Portion.faithful indent portions
  | .call _ bindings, indent => newline_notMem_detailLines Binding.faithful indent bindings
  | .spawn _ _ _ program portions, indent => by
    intro line hline
    rcases List.mem_append.mp hline with hline | hline
    · exact newline_notMem_detailLines Portion.faithful indent portions line hline
    · exact Program.newline_notMem_lines program (indent + 3) line hline

theorem Instruction.newline_notMem_linesFrom : ∀ (instructions : List Instruction)
    (indent index : Nat), ∀ line ∈ Instruction.linesFrom indent index instructions,
      '\n' ∉ line.toList
  | [], indent, index => by
    intro line hline
    rw [Instruction.linesFrom] at hline
    exact absurd hline List.not_mem_nil
  | i :: rest, indent, index => by
    rw [Instruction.linesFrom, Instruction.lines_eq]
    intro line hline
    rcases List.mem_append.mp hline with hline | hline
    · rcases List.mem_cons.mp hline with rfl | hline
      · exact newline_notMem_headLine indent index i.newline_notMem_heading
      · exact Instruction.newline_notMem_linesBelow i indent line hline
    · exact Instruction.newline_notMem_linesFrom rest indent (index + 1) line hline

end

/-- **Listings hide nothing.**  Programs with the same listing are the same: the tags, the salts and
the payloads, the order of the instructions, the recipients, the portions, where a binding puts
what, and which program is spawned where, however deep, can all be told from the text. -/
theorem Program.listing_eq_iff (p q : Program) : p.listing = q.listing ↔ p = q := by
  constructor
  · intro h
    have hlines := eq_of_join_eq (p.newline_notMem_lines 0) (q.newline_notMem_lines 0) h
    have hnone : ∀ bound, Shallow bound [] := fun _ _ hline => by cases hline
    have happend : p.lines 0 ++ [] = q.lines 0 ++ [] := by rw [hlines]
    exact (Program.lines_append_inj p q (hnone _) (hnone _) happend).1
  · rintro rfl
    rfl

end Crossnet
