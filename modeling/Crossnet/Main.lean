import Crossnet.Inspector

/-!
# The inspector's command line

Looks up the file that is asked for, prints the report and ends with its exit
code.
-/

namespace Crossnet.Inspector

/-- What is found under a file's name.  A name that leads nowhere is missing; anything else that
cannot be read is there. -/
def findEntry (path : String) : IO Entry := do
  try
    let content ← IO.FS.readBinFile path
    pure (.file content.toList)
  catch
    | .noFileOrDirectory .. => pure .missing
    | .inappropriateType (some _) .. => pure .missing
    | .invalidArgument (some _) .. => pure .missing
    | .inappropriateType none code details => pure (.unreadable s!"{details} (os error {code})")
    | .permissionDenied _ code details => pure (.unreadable s!"{details} (os error {code})")
    | e => pure (.unreadable (toString e))

end Crossnet.Inspector

open Crossnet

def main (arguments : List String) : IO UInt32 := do
  let report ← Inspector.run "xcvm" Inspector.findEntry arguments
  let threshold := Log.threshold (← IO.getEnv "XCVM_LOG")
  IO.eprint (report.noticeText threshold)
  IO.print report.output
  pure (UInt32.ofNat report.exitCode)
