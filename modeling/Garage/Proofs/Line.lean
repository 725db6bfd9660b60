import Garage.Drive
import Garage.Proofs.Decimal
import Garage.Proofs.Utf8

/-!
# The line of a drive

The bytes that a drive writes: the text of the report in UTF-8 and an end of line.

* `Report.lineBytes`: the line as bytes. The fragments that a drive hands over are its parts
  (`Report.utf8_lineFragments`).
* `Car.length_lineBytes`: a line is 28 bytes longer than the model.
* `Car.newline_not_mem_line`: a model of one line has a report of one line.
* `Car.model_eq_of_line`: the model can be told from the line.
-/

namespace Garage

open Format

namespace Report

/-- The line that a drive writes: the report in UTF-8 and an end of line. -/
def lineBytes (report : Report) : List UInt8 :=
  report.line.toUTF8.data.toList ++ [0x0A]

theorem line_toList (report : Report) :
    report.line.toList = "Driving ".toList ++ report.model.toList ++ " with ".toList ++
      Spec.plain.integer report.horsepower ++ " HP engine".toList := by
  rw [line, display, String.toList_ofList]
  simp [Display.fragments, Spec.text, Spec.pad, Spec.plain]

theorem lineBytes_eq_utf8 (report : Report) :
    report.lineBytes = utf8 (report.line.toList ++ ['\n']) := by
  rw [utf8_append, utf8_toList]
  rfl

theorem utf8_lineFragments (report : Report) :
    utf8 report.lineFragments.flatten = report.lineBytes := by
  rw [lineBytes_eq_utf8, line, display, String.toList_ofList, lineFragments, List.flatten_append]
  rfl

end Report

namespace Car

/-- The line of a drive of the car. -/
def lineBytes (car : Car) : List UInt8 :=
  car.report.lineBytes

theorem lineBytes_eq (car : Car) : car.lineBytes = utf8 car.report.line.toList ++ [0x0A] := by
  rw [utf8_toList]
  rfl

theorem lineBytes_ne_nil (car : Car) : car.lineBytes ≠ [] :=
  List.concat_ne_nil _ _

theorem horsepower_report (car : Car) : car.report.horsepower = stockHorsepower := by
  rw [report, car.engine_eq_stock]
  rfl

theorem line_toList (car : Car) :
    car.report.line.toList =
      "Driving ".toList ++ car.model.toList ++ " with 200 HP engine".toList := by
  have hnumber : Spec.plain.integer stockHorsepower = "200".toList := by decide
  rw [Report.line_toList, horsepower_report, hnumber]
  simp only [List.append_assoc]
  rfl

theorem length_lineBytes (car : Car) :
    car.lineBytes.length = car.model.utf8ByteSize + 28 := by
  rw [lineBytes_eq, line_toList]
  simp only [utf8_append, List.length_append, length_utf8_toList]
  have hfirst : "Driving ".utf8ByteSize = 8 := by decide
  have hlast : " with 200 HP engine".utf8ByteSize = 19 := by decide
  rw [hfirst, hlast, List.length_singleton]
  omega

theorem newline_not_mem_line {car : Car} (h : '\n' ∉ car.model.toList) :
    0x0A ∉ utf8 car.report.line.toList := by
  rw [newline_mem_utf8_iff, line_toList, List.mem_append, List.mem_append]
  rintro ((hfirst | hmodel) | hlast)
  · exact absurd hfirst (by decide)
  · exact h hmodel
  · exact absurd hlast (by decide)

theorem model_eq_of_line {car car' : Car}
    (h : utf8 car.report.line.toList = utf8 car'.report.line.toList) : car.model = car'.model := by
  have hline := utf8_injective h
  rw [line_toList, line_toList] at hline
  exact String.toList_inj.mp (List.append_cancel_left (List.append_cancel_right hline))

end Car

end Garage
