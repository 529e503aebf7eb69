import CloudBalancer.CommandLine.Report

/-!
The command line program.
-/

open CloudBalancer

def contentsOf (path : String) : IO (String × Option String) := do
  try
    return (path, some (← IO.FS.readFile path))
  catch _ =>
    return (path, none)

def main (arguments : List String) : IO UInt32 := do
  let files ← (CommandLine.paths arguments).mapM contentsOf
  let output := CommandLine.run (fun path => (files.lookup path).bind id) arguments
  IO.print output.stdout
  IO.eprint output.stderr
  return output.exit
