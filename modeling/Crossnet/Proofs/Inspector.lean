import Crossnet.Inspector
import Crossnet.Proofs.Bytes.Hex

/-!
# Raw and hexadecimal program files

The inspector reads a program's bytes from a file, or from the hexadecimal text
in the file when a flag says so.  What it reports depends on the arguments and
the file only through the command, the name and those bytes.

* `request_flagged`: the flag may stand in any place behind the command.
* `programBytes?_hex`: a spelling with blanks around it holds the bytes.
* `hex_agrees_with_raw`: **the report on a spelling of the bytes is the report on
  the bytes.**
-/

namespace Crossnet

/-! ## Texts in files -/

/-- A file that holds a text, in UTF-8. -/
def Inspector.Entry.ofText (text : String) : Inspector.Entry :=
  .file text.toUTF8.data.toList

theorem fromUTF8?_toUTF8 (text : String) :
    String.fromUTF8? text.toUTF8.data.toList.toByteArray = some text := by
  have hbytes : text.toUTF8.data.toList.toByteArray = text.toUTF8 := by
    apply ByteArray.ext
    rw [List.data_toByteArray, Array.toArray_toList]
  rw [hbytes, String.fromUTF8?, String.toUTF8_eq_toByteArray, dif_pos text.isValidUTF8]
  rfl

namespace Inspector

/-! ## The flag -/

theorem readArguments_flags (program : String) (command : Command) (hex : Bool)
    (path? : Option String) (n : Nat) (rest : List String) :
    readArguments program command hex path? (List.replicate n "--hex" ++ rest) =
      readArguments program command (hex || decide (0 < n)) path? rest := by
  induction n generalizing hex with
  | zero => simp
  | succ n ih =>
    rw [List.replicate_succ, List.cons_append, readArguments.eq_def]
    simp only [if_true, ih]
    simp

/-- The flag may stand in any place behind the command, and more than once. -/
theorem request_flagged (program : String) (command : Command) {path : String}
    (hpath : path.toList.head? ≠ some '-') (m n : Nat) :
    request program
        (command.word :: (List.replicate m "--hex" ++ path :: List.replicate n "--hex")) =
      .ok ⟨command, path, decide (0 < m) || decide (0 < n)⟩ := by
  have hne : path ≠ "--hex" := by
    rintro rfl
    exact hpath (by decide)
  have hread : readArguments program command false none
      (List.replicate m "--hex" ++ path :: List.replicate n "--hex") =
        .ok ⟨command, path, decide (0 < m) || decide (0 < n)⟩ := by
    rw [readArguments_flags, readArguments.eq_def]
    simp only [if_neg hne, if_neg hpath]
    rw [← List.append_nil (List.replicate n "--hex"), readArguments_flags, Bool.false_or]
    rfl
  cases command
  · exact hread
  · exact hread

/-! ## The report -/

theorem programBytes?_hex {before hex after : List Char} {bytes : Bytes}
    (hhex : Hex.IsHex hex bytes) (hbefore : ∀ c ∈ before, Text.isBlank c = true)
    (hafter : ∀ c ∈ after, Text.isBlank c = true) :
    programBytes? true (String.ofList (before ++ hex ++ after)).toUTF8.data.toList =
      some bytes := by
  rw [programBytes?, if_pos rfl, fromUTF8?_toUTF8, Option.bind_some]
  exact hhex.parse?_surrounded hbefore hafter

/-- A file is reported on by the bytes that are read of it. -/
theorem inspect_congr (command : Command) (path : String) {hex hex' : Bool}
    {content content' : Bytes} (h : programBytes? hex content = programBytes? hex' content') :
    inspect ⟨command, path, hex⟩ (.file content) =
      inspect ⟨command, path, hex'⟩ (.file content') := by
  simp only [inspect, h]

/-- **The inspector agrees on raw and hexadecimal files.**  Let a name that begins with no hyphen
lead to a file of bytes in one place, and in another to a text that spells the bytes: digits of
either case, behind a mark or none, with blanks around them or none.  Then each command, with the
flag for hexadecimal text before or behind the name, reports in the second place what it reports
without the flag in the first: the same exit code, the same output and the same notices, so the same
text of notices at every threshold.  It does so whether the bytes are accepted as a program or
not. -/
theorem hex_agrees_with_raw (program : String) (command : Command) {path : String}
    (hpath : path.toList.head? ≠ some '-') {bytes : Bytes} {before hex after : List Char}
    (hhex : Hex.IsHex hex bytes) (hbefore : ∀ c ∈ before, Text.isBlank c = true)
    (hafter : ∀ c ∈ after, Text.isBlank c = true) {raw text : String → Entry}
    (hraw : raw path = .file bytes)
    (htext : text path = .ofText (String.ofList (before ++ hex ++ after)))
    {m n : Nat} (hflag : 0 < m ∨ 0 < n) :
    run (m := Id) program text
        (command.word :: (List.replicate m "--hex" ++ path :: List.replicate n "--hex")) =
      run (m := Id) program raw [command.word, path] := by
  have hrequest := request_flagged program command hpath m n
  have hplain : request program [command.word, path] = .ok ⟨command, path, false⟩ :=
    request_flagged program command hpath 0 0
  have hset : (decide (0 < m) || decide (0 < n)) = true := by simpa using hflag
  rw [hset] at hrequest
  simp only [run, hrequest, hplain, pure, bind, hraw, htext, Entry.ofText]
  exact inspect_congr command path (programBytes?_hex hhex hbefore hafter)

/-- A program with a tag, spelled with both cases behind a mark and between blanks, is listed like
its bytes. -/
theorem hex_agrees_with_raw_tagged :
    run (m := Id) "xcvm"
        (fun _ => .ofText " 0x5843564D0100000100000000000000aB0000000000000000\n")
        ["decode", "p.txt", "--hex"] =
      run (m := Id) "xcvm" (fun _ => .file (Program.mk [0xAB] []).toWire) ["decode", "p.txt"] ∧
    (run (m := Id) "xcvm" (fun _ => .file (Program.mk [0xAB] []).toWire)
        ["decode", "p.txt"]).output = "program tag=0xab\n" := by
  have hspells : Hex.Spells "5843564D0100000100000000000000aB0000000000000000".toList
      (Program.mk [0xAB] []).toWire :=
    .of_lower (by decide)
  have hhex : Hex.IsHex "0x5843564D0100000100000000000000aB0000000000000000".toList
      (Program.mk [0xAB] []).toWire :=
    ⟨['0', 'x'], _, .inr rfl, rfl, hspells⟩
  have hbefore : ∀ c ∈ [' '], Text.isBlank c = true := List.forall_mem_singleton.mpr (by decide)
  have hafter : ∀ c ∈ ['\n'], Text.isBlank c = true := List.forall_mem_singleton.mpr (by decide)
  refine ⟨?_, by decide +kernel⟩
  exact @hex_agrees_with_raw "xcvm" .decode "p.txt" (by decide) _ [' '] _ ['\n'] hhex hbefore hafter
    _ _ rfl rfl 0 1 (.inr (by decide))

end Inspector

end Crossnet
