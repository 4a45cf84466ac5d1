import Wiring.Program

/-!
# Entry point

Reads the scenario file that the line names, runs the program, prints and exits.
-/

/-- The text of a file, if it can be read. -/
def readText (path : String) : IO (Option String) := do
  try
    return some (← IO.FS.readFile path)
  catch _ =>
    return none

/-- Only the named scenario file can be asked for. -/
def main (words : List String) : IO UInt32 := do
  let path := ((Wiring.Arguments.parse words).toOption.bind Wiring.Arguments.scenario).getD ""
  let text ← readText path
  let exit := Wiring.program (fun asked => if asked = path then text else none) words
  match exit with
  | .printed text => IO.print text
  | .failed message => IO.eprintln ("Error: " ++ message)
  | .violated v => IO.eprintln v.message
  | .misused _ => IO.eprintln "usage: wireup [-v] [-s <scenario>] [--json] <run|select|help>"
  return exit.code.toUInt32
