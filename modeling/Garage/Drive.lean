import Garage.Car
import Garage.Event
import Garage.Sink

/-!
# Driving

A drive writes the report of a car and an end of line to a sink. `Car.driveTo` tells its caller
when the sink fails; `Car.drive`, on the program's own output, tells only the log.
-/

namespace Garage

open Format

inductive DriveError where
  | write (source : IoError)
  deriving DecidableEq, Repr

/-- The wording does not depend on the cause or on the spec of the place. -/
instance : Display DriveError where
  fragments _ _ := ["failed to write drive report".toList]

instance : Inspect DriveError where
  doc number error := match error with
    | .write source => .tuple "Write" (Inspect.doc number source)

/-- The fragments of the line that a drive writes. -/
def Report.lineFragments (report : Report) : List (List Char) :=
  Display.fragments .plain report ++ [['\n']]

namespace Car

def build (model : String) : Logged Car := do
  let car := ofModel model
  .emit (.built car.model car.engine.horsepower)
  return car

/-- Writes the report and an end of line to a sink, up to its first error. The log is told before
anything is written. -/
def driveTo (car : Car) (sink : Sink) : Logged (Except DriveError Unit × Sink) := do
  let report := car.report
  .emit (.driving report.model)
  let (result, sink) := writeEach Sink.put sink report.lineFragments
  return (result.mapError .write, sink)

/-- Drives to a sink; if that fails, only the log is told. -/
def driveOrWarn (car : Car) (sink : Sink) : Logged Sink := do
  let (result, sink) ← car.driveTo sink
  match result with
  | .ok () => return sink
  | .error error =>
    .emit (.notWritten car.model (display .plain error))
    return sink

end Car

/-- The program's own output, as a drive finds it. -/
inductive Outlet where
  | working
  /-- The device behind it has no space left. -/
  | full
  /-- Its reader has gone. -/
  | closed
  deriving DecidableEq, Repr

/-- What an outlet does with the bytes of one drive: all of them pass, or none does. -/
def Outlet.sink : Outlet → Sink
  | working => {}
  | full => { limit := some 0, script := { refusal := .fail (.os .noSpace) (by decide) } }
  | closed => { limit := some 0, script := { refusal := .fail (.os .brokenPipe) (by decide) } }

/-- Drives to the program's own output, which never fails; the bytes that passed. -/
def Car.drive (car : Car) (outlet : Outlet) : Logged (Array UInt8) := do
  return (← car.driveOrWarn outlet.sink).held

/-! ## Drives as a model -/

/-- A named rule that answers each input with an output. -/
structure Model (α β : Type) where
  name : String
  call : α → β

/-- Answers a car with its report; nothing is written and nothing is logged. -/
def driveModel : Model Car Report where
  name := "Drive"
  call := Car.report

end Garage
