import Garage.Proofs.Warnings
import Garage.Run

/-!
# One text on every way

The text of a drive can be had from the report of the car, from the drive model, from the bytes
that a drive adds to a sink, and from the bytes that it prints. It is one text, for the car that was
built as for its copies.

* `CarOf`: the cars of a model, copies included.
* `Car.display_report`: the text of the report.
* `Car.fromUTF8?_lineBytes`, `Car.length_lineBytes_eq`: the bytes of a line are this text and an end
  of line.
* `Car.held_driveTo`: a sink with enough room gets these bytes as they are.
-/

namespace Garage

open Format

/-- The cars of a model: the one that is built, and copies of copies of it. -/
inductive CarOf (model : String) : Car → Prop
  | built : CarOf model (Car.build model).value
  | copied {car copy : Car} (world : World) : CarOf model car →
    ((Act.copy car).perform world).value.1 = .car copy → CarOf model copy

theorem CarOf.eq_ofModel {model : String} {car : Car} (h : CarOf model car) :
    car = .ofModel model := by
  induction h with
  | built => rfl
  | copied world _ hcopy ih =>
    rw [← ih]
    exact (Act.Result.car.inj hcopy).symm

namespace Car

theorem display_report (car : Car) :
    display .plain car.report = "Driving " ++ car.model ++ " with 200 HP engine" := by
  rw [← String.toList_inj, String.toList_append, String.toList_append]
  exact car.line_toList

theorem fromUTF8?_lineBytes (car : Car) :
    String.fromUTF8? ⟨car.lineBytes.toArray⟩ = some (display .plain car.report ++ "\n") := by
  rw [lineBytes, Report.lineBytes_eq_utf8, fromUTF8?_utf8, String.ofList_append,
    String.ofList_toList]
  rfl

theorem length_lineBytes_eq (car : Car) :
    car.lineBytes.length = (display .plain car.report).utf8ByteSize + 1 := by
  rw [lineBytes_eq, List.length_append, length_utf8_toList]
  rfl

theorem held_driveTo {car : Car} {sink : Sink} (h : sink.Fits car.lineBytes.length) :
    (car.driveTo sink).value.2.held = sink.held ++ car.lineBytes.toArray := by
  rw [← Array.toList_inj, (car.filled_driveTo sink).held, upTo_of_length_le h, Array.toList_append]

/-- `driveModel` answers with `Car.report`, and its text with a `'\n'`, in UTF-8, is what
`Car.drive` prints and what `Car.driveTo` adds to each sink that has room for it. -/
theorem driveText_agrees {model : String} {car : Car} (h : CarOf model car) :
    driveModel.call car = car.report ∧
    display .plain car.report = "Driving " ++ model ++ " with 200 HP engine" ∧
    ∃ bytes : Array UInt8,
      String.fromUTF8? ⟨bytes⟩ = some (display .plain car.report ++ "\n") ∧
      (car.drive .working).value = bytes ∧
      ∀ sink : Sink,
        (∀ limit ∈ sink.limit,
          sink.held.size + ((display .plain car.report).utf8ByteSize + 1) ≤ limit) →
        (car.driveTo sink).value.1 = .ok () ∧
          (car.driveTo sink).value.2.held = sink.held ++ bytes := by
  have hmodel : car.model = model := congrArg Car.model h.eq_ofModel
  refine ⟨rfl, ?_, car.lineBytes.toArray, car.fromUTF8?_lineBytes, ?_, ?_⟩
  · rw [display_report, hmodel]
  · rw [← Array.toList_inj, value_drive]
    rfl
  · intro sink hroom
    have hfits : sink.Fits car.lineBytes.length := by
      rw [sink.fits_iff car.length_lineBytes_pos, length_lineBytes_eq]
      exact hroom
    exact ⟨driveTo_ok hfits, held_driveTo hfits⟩

/-- The sink takes single bytes, interrupts every other call, holds the first byte of a character
and has room for the line and no more. -/
theorem driveText_agrees_copy :
    ∃ script bytes, Script.ofParts? (some 1) 2 .takeNothing = some script ∧
      CarOf "Škoda 🚗" (.ofModel "Škoda 🚗") ∧
      String.fromUTF8? ⟨bytes⟩ = some "Driving Škoda 🚗 with 200 HP engine\n" ∧
      ((ofModel "Škoda 🚗").drive .working).value = bytes ∧
      ((ofModel "Škoda 🚗").driveTo { script, limit := some 40, held := #[0xF0] }).value.1 =
        .ok () ∧
      ((ofModel "Škoda 🚗").driveTo { script, limit := some 40, held := #[0xF0] }).value.2.held =
        #[0xF0] ++ bytes := by
  have hcopy : CarOf "Škoda 🚗" (.ofModel "Škoda 🚗") :=
    .copied {} (.copied {} .built rfl) rfl
  obtain ⟨-, htext, bytes, hbytes, hprinted, hsink⟩ := driveText_agrees hcopy
  rw [htext] at hbytes
  obtain ⟨hok, hheld⟩ := hsink
    { script := ⟨some 1, by simp, 2, by decide, .takeNothing⟩, limit := some 40, held := #[0xF0] }
    (by rw [htext]; decide)
  exact ⟨_, bytes, rfl, hcopy, hbytes, hprinted, hok, hheld⟩

end Car

end Garage
