import Garage.Drive

/-!
# Runs

A run does one act with cars after the other, over a family of sinks and the program's own output.
No act ends a run: a failed drive is a result like any other.

* `driveEach`: cars driven in order to one sink.
* `Act.perform`: one act in a world.
* `run`: acts in order.
-/

namespace Garage

/-- Drives cars in order to one sink: the result of each drive, and the sink after the last. -/
def driveEach : List Car → Sink → Logged (List (Except DriveError Unit) × Sink)
  | [], sink => return ([], sink)
  | car :: rest, sink => do
    let (result, sink) ← car.driveTo sink
    let (results, sink) ← driveEach rest sink
    return (result :: results, sink)

inductive Act where
  | build (model : String)
  | copy (car : Car)
  | report (car : Car)
  | call (car : Car)
  /-- Drives to the sink of this number. -/
  | driveTo (car : Car) (sink : Nat)
  /-- Drives to the program's own output, found in this state. -/
  | drive (car : Car) (outlet : Outlet)
  deriving DecidableEq

inductive Act.Result where
  | car (car : Car)
  | report (report : Report)
  | driven (result : Except DriveError Unit)
  | printed (bytes : Array UInt8)

/-- The sinks, by number, and all that the program has printed. -/
structure World where
  sinks : Nat → Sink := fun _ => {}
  printed : Array UInt8 := #[]

def World.setSink (world : World) (number : Nat) (sink : Sink) : World :=
  { world with sinks := fun n => if n = number then sink else world.sinks n }

def Act.perform (world : World) : Act → Logged (Act.Result × World)
  | build model => do
    let car ← Car.build model
    return (.car car, world)
  | copy car => return (.car car, world)
  | report car => return (.report car.report, world)
  | call car => return (.report (driveModel.call car), world)
  | driveTo car number => do
    let (result, sink) ← car.driveTo (world.sinks number)
    return (.driven result, world.setSink number sink)
  | drive car outlet => do
    let bytes ← car.drive outlet
    return (.printed bytes, { world with printed := world.printed ++ bytes })

/-- Does acts in order: what each gives back, and the world after the last. -/
def run : List Act → World → Logged (List Act.Result × World)
  | [], world => return ([], world)
  | act :: rest, world => do
    let (result, world) ← act.perform world
    let (results, world) ← run rest world
    return (result :: results, world)

end Garage
