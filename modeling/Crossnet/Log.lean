import Crossnet.Text.Blank

/-!
# Log lines

A log line has a level and a message.  Lines below a threshold are dropped; the
threshold is named by a setting and is `info` unless the setting names another
level.
-/

namespace Crossnet.Log

/-- How much a line matters. -/
inductive Level
  | debug
  | info
  | warn
  | error
deriving DecidableEq

namespace Level

/-- The place of the level, the least first. -/
def rank : Level → Nat
  | debug => 0
  | info => 1
  | warn => 2
  | error => 3

/-- The name of the level. -/
def name : Level → String
  | debug => "DEBUG"
  | info => "INFO"
  | warn => "WARN"
  | error => "ERROR"

/-- The level that a text names.  Blanks around it and the case of ASCII letters do not matter. -/
def parse? (text : String) : Option Level :=
  match String.ofList ((Text.trim text.toList).map Char.toLower) with
  | "debug" => some debug
  | "info" => some info
  | "warn" => some warn
  | "warning" => some warn
  | "error" => some error
  | _ => none

end Level

/-- A level and a message. -/
structure Line where
  level : Level
  message : String
deriving DecidableEq

namespace Line

def debug (message : String) : Line := ⟨.debug, message⟩

def info (message : String) : Line := ⟨.info, message⟩

def warn (message : String) : Line := ⟨.warn, message⟩

def error (message : String) : Line := ⟨.error, message⟩

/-- The line as it is printed. -/
def text (line : Line) : String :=
  s!"[{line.level.name}] {line.message}\n"

/-- Whether the line is printed. -/
def passes (threshold : Level) (line : Line) : Bool :=
  threshold.rank ≤ line.level.rank

end Line

/-- The threshold that a setting names. -/
def threshold (setting : Option String) : Level :=
  (setting.bind Level.parse?).getD .info

/-- The lines that pass, as they are printed. -/
def render (threshold : Level) (lines : List Line) : String :=
  String.join ((lines.filter (Line.passes threshold)).map Line.text)

end Crossnet.Log
