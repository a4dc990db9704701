import Crossnet.FileTree
import Crossnet.Identity
import Crossnet.Log
import Crossnet.Program.Listing
import Crossnet.Program.Validation

/-!
# The inspector

A command that prints the listing or the hash of an enveloped program in a
file.  `request` reads the arguments and says either which file is asked for or
what to report at once; `inspect` turns what was found under the file's name
into a report.  `run` is the two together, for any way to find a file.
-/

namespace Crossnet.Inspector

/-- What is printed of a program. -/
inductive Command
  | decode
  | hash
deriving DecidableEq

/-- The word for the command. -/
def Command.word : Command → String
  | decode => "decode"
  | hash => "hash"

/-- What is asked for. -/
structure Request where
  command : Command
  path : String
  /-- Whether the file holds the program as hexadecimal text. -/
  hex : Bool
deriving DecidableEq

/-- What is found under a file's name. -/
inductive Entry
  | missing
  | unreadable (reason : String)
  | file (content : Bytes)
deriving DecidableEq

/-- What a reader of files makes of what a path leads to: only a file can be read. -/
def Entry.ofNode? : Option FileTree.Node → Entry
  | none => .missing
  | some .folder => .unreadable "Is a directory (os error 21)"
  | some (.file content) => .file content

/-- Something printed for the user: a log line, or a text that no threshold drops. -/
inductive Notice
  | log (line : Log.Line)
  | plain (text : String)
deriving DecidableEq

/-- The end of a run. -/
structure Report where
  exitCode : Nat
  output : String
  notices : List Notice
deriving DecidableEq

namespace Report

/-- The notices as they are printed. -/
def noticeText (threshold : Log.Level) (report : Report) : String :=
  String.join <| report.notices.map fun
    | .log line => Log.render threshold [line]
    | .plain text => text

/-- A run that ends with an error and nothing printed. -/
def failure (message : String) : Report :=
  ⟨1, "", [.log (.error message)]⟩

end Report

/-- How the command is used, where `program` is the name that it was called by. -/
def usage (program : String) : String :=
  s!"XCVM program inspector

USAGE:
    {program} <COMMAND> <file> [OPTIONS]

COMMANDS:
    decode    Print the instruction listing of an encoded program
    hash      Print the program hash

OPTIONS:
    --hex         Input file holds hex text instead of raw bytes
    -h, --help    Print this help message

ENVIRONMENT:
    XCVM_LOG    Minimum log level: debug, info, warn or error (default info)

EXAMPLES:
    {program} decode program.bin
    {program} hash program.hex --hex

"

/-- A run that ends with an error and the usage. -/
def misuse (program message : String) : Report :=
  ⟨1, "", [.log (.error (message ++ "\n")), .plain (usage program)]⟩

/-- Reads the arguments after the command, where `hex` and `path?` are what was read so far. -/
def readArguments (program : String) (command : Command) (hex : Bool) (path? : Option String) :
    List String → Except Report Request
  | [] =>
    match path? with
    | some path => .ok ⟨command, path, hex⟩
    | none => .error (.failure s!"{command.word} requires an input file")
  | argument :: rest =>
    if argument = "--hex" then readArguments program command true path? rest
    else if argument.toList.head? = some '-' then
      .error (misuse program s!"Unexpected argument: {argument}")
    else
      match path? with
      | some _ => .error (.failure "Only one input file is accepted")
      | none => readArguments program command hex (some argument) rest

/-- Reads the arguments. -/
def request (program : String) : List String → Except Report Request
  | [] => .error ⟨1, "", [.plain (usage program)]⟩
  | word :: arguments =>
    if word = "--help" ∨ word = "-h" then .error ⟨0, "", [.plain (usage program)]⟩
    else if word = Command.decode.word then readArguments program .decode false none arguments
    else if word = Command.hash.word then readArguments program .hash false none arguments
    else .error (misuse program s!"Unknown command: {word}")

/-- The enveloped program in a file, unless the file was to hold hexadecimal text and does not. -/
def programBytes? (hex : Bool) (content : Bytes) : Option Bytes :=
  if hex then (String.fromUTF8? content.toByteArray).bind Hex.parse? else some content

/-- What is printed of a program. -/
def Command.print (command : Command) (program : Program) : String :=
  match command with
  | decode => program.listing
  | hash => s!"{program.hash}\n"

/-- What is reported of the file that is asked for. -/
def inspect (request : Request) : Entry → Report
  | .missing => .failure s!"Input file does not exist: {request.path}"
  | .unreadable reason => .failure s!"Failed to read {request.path}: {reason}"
  | .file content =>
    match programBytes? request.hex content with
    | none => .failure s!"{request.path} does not contain valid hex"
    | some bytes =>
      match Program.accept bytes with
      | .error e => .failure s!"Invalid program in {request.path}: {e.message}"
      | .ok program =>
        let size := bytes.length
        let count := program.instructions.length
        let facts := s!"{size} bytes, {count} instructions, spawn depth {program.depth}"
        ⟨0, request.command.print program, [.log (.info s!"Decoded {request.path}: {facts}")]⟩

/-- A run with the given arguments, where `find` says what is found under a file's name. -/
def run {m : Type → Type} [Monad m] (program : String) (find : String → m Entry)
    (arguments : List String) : m Report :=
  match request program arguments with
  | .error report => pure report
  | .ok request => do pure (inspect request (← find request.path))

end Crossnet.Inspector
