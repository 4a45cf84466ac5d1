import Wiring.Arguments

/-!
# The program

From the words of the command line and the files it may read to what it prints and how it exits.
-/
namespace Wiring

/-- How a run of the program ends. -/
inductive Exit where
  | printed (text : String)
  | failed (message : String)
  | violated (v : Violation)
  | misused (why : UsageError)
  deriving Repr

namespace Exit

/-- Help and version are not failures; every other misuse is. -/
def code : Exit → UInt8
  | .printed _ => 0
  | .failed _ => 1
  | .violated _ => 101
  | .misused .helpAsked => 0
  | .misused .versionAsked => 0
  | .misused _ => 2

end Exit

/-- The scenario in the file at a path, or what went wrong with it. -/
def loadScenario (readFile : String → Option String) (path : String) :
    Except String Scenario :=
  match readFile path with
  | none => .error ("reading scenario " ++ path)
  | some text =>
    match Scenario.parse text with
    | .ok sc => .ok sc
    | .error _ => .error ("parsing scenario " ++ path)

/-- What a report looks like when printed. -/
def printed (json : Bool) (r : Report) : String :=
  if json then r.toJson.pretty ++ "\n" else r.text

/-- Runs the program. -/
def program (readFile : String → Option String) (words : List String) : Exit :=
  match Arguments.parse words with
  | .error why => .misused why
  | .ok a =>
    match (a.scenario.map (loadScenario readFile)).getD (.ok Scenario.default) with
    | .error message => .failed message
    | .ok sc =>
      match a.command.execute sc with
      | .error v => .violated v
      | .ok (.error e) => .failed e.message
      | .ok (.ok r) => .printed (printed a.json r)

end Wiring
