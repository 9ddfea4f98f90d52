import BinaryCsp.CommandLine

/-!
# The command

Reads the files, makes and times the runs, and prints.
-/

open BinaryCsp BinaryCsp.CommandLine

/-- What an error of the system says about a file.  Its number may come negated. -/
def obstacle : IO.Error → Obstacle
  | .inappropriateType _ code _ =>
    if code = 20 ∨ 0 - code = 20 then .notDirectory else .isDirectory
  | .invalidArgument _ _ _ => .nameTooLong
  | .permissionDenied _ _ _ => .denied
  | .userError _ => .notText
  | _ => .missing

def contents (path : String) : IO (Except Obstacle String) := do
  try
    return .ok (← IO.FS.readFile path)
  catch e =>
    return .error (obstacle e)

def usage : String :=
  "usage: kakuro [PUZZLE] [-f FILE] [-c FILE] [-a] [--min-conflicts] [--max-steps N] [--json]"

/-- Prints a failure and gives the exit code. -/
def fail (f : Failure) : IO UInt32 := do
  IO.eprintln ("Execution failed, error: " ++ f.message)
  return 1

/-- Makes the runs one after the other, each with the time it took. -/
def present (p : Plan) : List Job → Presentation →
    IO (Presentation × Option (Fault Kakuro.Variable Kakuro.Value))
  | [], s => return (s, none)
  | j :: js, s => do
    let start ← IO.monoNanosNow
    match p.run j with
    | .error f => return (s, some f)
    | .ok (outcome, stats) =>
      let stop ← IO.monoNanosNow
      let timed := { stats with elapsedMicros := stats.elapsedMicros + (stop - start) / 1000 }
      present p js (s.add p j outcome timed)

/-- Solves a grid with several combinations of options and compares them. -/
def main (args : List String) : IO UInt32 := do
  match Invocation.parse? args with
  | none =>
    IO.eprintln usage
    return 2
  | some i =>
    let paths := i.file.toList ++ i.config.toList
    let read ← paths.mapM fun path => return (path, ← contents path)
    match plan (fun path => (read.lookup path).getD (.error .missing)) i with
    | .error f => fail f
    | .ok p =>
      let (s, failed) ← present p p.jobs p.present
      IO.print s.text
      match failed with
      | some f => fail (.fault f)
      | none =>
        IO.println (p.summary s.reports)
        return 0
