/-
SpatialGrammar/Main.lean

The program: reads the file that its arguments name, prints the response, and exits.
-/
import SpatialGrammar.Command.Response

namespace SpatialGrammar

/-- The text of a file, if it can be read. -/
def readText? (name : String) : IO (Option String) := do
  try
    let text ← IO.FS.readFile name
    return some text
  catch _ => return none

/-- The text of the file that a request names. -/
def Command.Request.text? : Command.Request → IO (Option String)
  | .command (.run name _ _) | .command (.check name) | .command (.torture name _ _) =>
    readText? name
  | _ => return none

/-- What the program sees of its surroundings when it is given these arguments. -/
def surroundingsFor (args : List String) : IO Surroundings := do
  let text ← (Command.Request.ofArguments args).text?
  let spareSeed ← IO.rand 0 (UInt64.size - 1)
  return { file? := fun _ => text, spareSeed, fuel := UInt64.size }

end SpatialGrammar

open SpatialGrammar in
def main (args : List String) : IO UInt32 := do
  match Response.toArguments? (← surroundingsFor args) args with
  | none => return 1
  | some r =>
    IO.print r.output
    match r.error with
    | some e => IO.eprintln ("Error: " ++ e)
    | none => pure ()
    return UInt32.ofNat r.exit
