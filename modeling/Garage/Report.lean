import Garage.Format.Display
import Garage.Format.Inspect

/-!
# Drive reports

A report is what a drive has to tell: the model of the car and the rating of its engine. Its line
is a fixed wording around the two. Nothing in the model is interpreted, and the spec of the place
where a report is shown does not reach it.
-/

namespace Garage

open Format

structure Report where
  model : String
  horsepower : Int32
  deriving DecidableEq, Hashable, Repr

namespace Report

/-- Both placeholders bring their own spec, without options. -/
instance : Display Report where
  fragments _ report :=
    ["Driving ".toList] ++ Display.fragments .plain report.model ++ [" with ".toList] ++
      Display.fragments .plain report.horsepower ++ [" HP engine".toList]

instance : Inspect Report where
  doc number report := .record "Report"
    [("model", .quoted report.model), ("horsepower", .word (number report.horsepower))]

/-- The line of a report, without an end of line. -/
def line (report : Report) : String :=
  display .plain report

end Report

end Garage
