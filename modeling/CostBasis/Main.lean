import CostBasis.CommandLine

/-!
# The program

Reads the files that the command line names, runs it, and prints what it prints.
-/

namespace CostBasis.CommandLine

def readFile (path : String) : IO File := do
  let handle? ← try some <$> IO.FS.Handle.mk path .read catch _ => pure none
  match handle? with
  | none => return .missing
  | some handle =>
    try return .content (← handle.readBinToEnd).toList
    catch _ => return .unreadable

def readFiles (arguments : List String) : IO Files := do
  let paths := match Arguments.parse arguments with
    | .ok a => a.paths
    | .error _ => []
  let contents ← paths.mapM fun path => return (path, ← readFile path)
  return fun path => (contents.lookup path).getD .missing

def printError (e : RunError) : IO Unit := do
  match e.messages with
  | [] => return
  | headline :: causes =>
    IO.eprintln s!"Error: {headline}"
    for cause in causes do IO.eprintln s!"Caused by: {cause}"

end CostBasis.CommandLine

def main (arguments : List String) : IO UInt32 := do
  let files ← CostBasis.CommandLine.readFiles arguments
  let outcome := CostBasis.CommandLine.run files arguments
  for line in outcome.shown do IO.println line
  match outcome.error with
  | none => return 0
  | some e =>
    CostBasis.CommandLine.printError e
    return UInt32.ofNat e.exitCode
