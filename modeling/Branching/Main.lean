import Branching.Cli.Run

/-!
# The command line

Reads what a command line may need (the files it names, standard input when
the template is `-`, the mode variable and the terminal width), carries the
command line out with `Request.perform` and fresh YAML loaders (a process runs
one command line), and writes the outcome. An error that escapes the command
line is written to standard error with status 1.
-/

open Branching Branching.Cli

/-- The text of a regular file, or none when it cannot be read. -/
def readRegularFile (p : String) : IO (Option String) := do
  try
    return some (← IO.FS.readFile p)
  catch _ =>
    return none

/-- Runs the command line with the process's files, input and environment. -/
def main (args : List String) : IO UInt32 := do
  let request := Request.ofArgs args
  let mut files : List (String × String) := []
  for p in request.reads do
    if let some t ← readRegularFile p then
      files := (p, t) :: files
  let input ← if request.readsInput then (← IO.getStdin).readToEnd else pure ""
  let mode ← IO.getEnv modeVariable
  let columns ← IO.getEnv "COLUMNS"
  let s : Surroundings :=
    { files := FileView.ofList files, stdin := input,
      env := fun k => if k == modeVariable then mode else if k == "COLUMNS" then columns else none }
  match (request.perform s {}).1 with
  | .error e =>
    let err ← IO.getStderr
    err.putStr (e.message ++ "\n")
    err.flush
    return 1
  | .ok o =>
    let out ← IO.getStdout
    out.putStr o.stdout
    out.flush
    let err ← IO.getStderr
    err.putStr o.stderr
    err.flush
    return o.exit.toUInt32
