import Garage.Demo

/-!
# The demo program

Writes what the demo prints to the standard output. An output that does not take it is let be.
-/

/-- Writes bytes to a stream and ignores a failure. -/
def Garage.offer (stream : IO.FS.Stream) (bytes : Array UInt8) : IO Unit := do
  try
    stream.write ⟨bytes⟩
    stream.flush
  catch _ => pure ()

/-- Runs the demo. -/
def main : IO UInt32 := do
  let outcome := Garage.demo .working
  Garage.offer (← IO.getStdout) outcome.stdout
  Garage.offer (← IO.getStderr) outcome.stderr
  return outcome.exitCode
