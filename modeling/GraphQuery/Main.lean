import GraphQuery.CommandLine.Run

/-!
# The program

The machine as a host, and the ending of a run as output, report and exit code.
-/

namespace GraphQuery

/-- Reads lines up to the end of the input. -/
partial def readLines (input : IO.FS.Stream) (text : String) : IO String := do
  let line ← input.getLine
  if line.isEmpty then return text else readLines input (text ++ line)

/-- The outcome of an action, none if it fails. -/
def attempt {α : Type} (action : IO α) : IO (Option α) := do
  match ← action.toBaseIO with
  | .ok value => return some value
  | .error _ => return none

/-- The machine the program runs on. What cannot be read gives nothing, whatever the reason. -/
def machine : CommandLine.Host IO where
  lookup name := IO.getEnv name
  fileBytes path := attempt (IO.FS.readBinFile path)
  inputText := do
    let input ← IO.getStdin
    attempt (readLines input "")

end GraphQuery

open GraphQuery in
/-- Runs the program and hands its output, its report and its exit code to the machine. -/
def main (arguments : List String) : IO UInt32 := do
  let ending ← CommandLine.run machine arguments
  IO.print ending.output
  for line in ending.report? do
    IO.eprintln line
  return UInt32.ofNat ending.exitCode
