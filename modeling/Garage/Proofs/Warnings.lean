import Garage.Proofs.Driving

/-!
# Drives that only warn

`Car.driveOrWarn` does to a sink what `Car.driveTo` does, and turns the error that its caller is
not told into a warning in the log. On the program's own output that is `Car.drive`.

* `Car.value_driveOrWarn`, `Car.events_driveOrWarn`: the warning drive in terms of the telling one.
  The last theorem says what both come to on every sink.
* `Outlet.driveTo_eq_ok_iff`: only a working outlet takes a line.
* `Car.value_drive`, `Car.events_drive`: what a drive prints and what it logs.
-/

namespace Garage

open Format

theorem DriveError.display_eq (spec : Spec) (error : DriveError) :
    display spec error = "failed to write drive report" := rfl

namespace Car

@[simp] theorem events_driveTo (car : Car) (sink : Sink) :
    (car.driveTo sink).events = [.driving car.model] := rfl

/-- What the log is told of the outcome of a drive whose caller is not told. -/
def warnings (car : Car) : Except DriveError Unit → List Event
  | .ok () => []
  | .error error => [.notWritten car.model (display .plain error)]

theorem value_driveOrWarn (car : Car) (sink : Sink) :
    (car.driveOrWarn sink).value = (car.driveTo sink).value.2 := by
  simp only [driveOrWarn, Logged.value_bind]
  split <;> rfl

theorem events_driveOrWarn (car : Car) (sink : Sink) :
    (car.driveOrWarn sink).events =
      .driving car.model :: car.warnings (car.driveTo sink).value.1 := by
  simp only [driveOrWarn, Logged.events_bind, events_driveTo, List.singleton_append]
  split <;> rename_i hresult <;> rw [hresult] <;> rfl

end Car

/-! ## The program's own output -/

theorem Outlet.fits_sink_iff (outlet : Outlet) {n : Nat} (hn : 0 < n) :
    outlet.sink.Fits n ↔ outlet = .working := by
  rw [outlet.sink.fits_iff hn]
  cases outlet with
  | working => exact ⟨fun _ => rfl, fun _ limit hlimit => nomatch hlimit⟩
  | full | closed =>
    refine ⟨fun h => ?_, fun h => nomatch h⟩
    have hlimit : 0 + n ≤ 0 := h 0 rfl
    omega

theorem Outlet.driveTo_eq_ok_iff (car : Car) (outlet : Outlet) :
    (car.driveTo outlet.sink).value.1 = .ok () ↔ outlet = .working := by
  rw [Car.driveTo_fst, Sink.mapError_verdict_eq_ok_iff,
    outlet.fits_sink_iff car.length_lineBytes_pos]

theorem Outlet.driveTo_error_iff (car : Car) (outlet : Outlet) :
    (∃ error, (car.driveTo outlet.sink).value.1 = .error error) ↔ outlet ≠ .working := by
  rw [ne_eq, ← driveTo_eq_ok_iff car]
  cases (car.driveTo outlet.sink).value.1 with
  | ok => exact ⟨fun ⟨error, h⟩ => (nomatch h), fun h => absurd rfl h⟩
  | error error => exact ⟨fun _ h => (nomatch h), fun _ => ⟨error, rfl⟩⟩

namespace Car

theorem value_drive (car : Car) (outlet : Outlet) :
    (car.drive outlet).value.toList = if outlet = .working then car.lineBytes else [] := by
  have hvalue : (car.drive outlet).value = (car.driveTo outlet.sink).value.2.held :=
    congrArg Sink.held (car.value_driveOrWarn outlet.sink)
  rw [hvalue, (car.filled_driveTo outlet.sink).held]
  cases outlet <;> rfl

theorem events_drive (car : Car) (outlet : Outlet) :
    (car.drive outlet).events =
      .driving car.model :: car.warnings (car.driveTo outlet.sink).value.1 := by
  rw [drive, Logged.events_bind, Logged.events_pure, List.append_nil, events_driveOrWarn]

theorem warnings_driveTo (car : Car) (sink : Sink) :
    car.warnings (car.driveTo sink).value.1 =
      if sink.Fits car.lineBytes.length then []
      else [.notWritten car.model "failed to write drive report"] := by
  split
  · rename_i hfits
    rw [driveTo_ok hfits]
    rfl
  · rename_i hfits
    rw [driveTo_error hfits, warnings, DriveError.display_eq]

/-- `Car.driveOrWarn` leaves the sink that `Car.driveTo` leaves and logs the same events, with
`.notWritten` behind them iff the line does not fit. `Car.drive` is `Car.driveOrWarn` on the sink of
its outlet. -/
theorem driveOrWarn_agrees (car : Car) (sink : Sink) :
    (car.driveOrWarn sink).value = (car.driveTo sink).value.2 ∧
    (car.driveOrWarn sink).events = (car.driveTo sink).events ++
      (match (car.driveTo sink).value.1 with
        | .ok () => []
        | .error error => [.notWritten car.model (display .plain error)]) ∧
    (car.driveOrWarn sink).value.held.toList =
      sink.held.toList ++ upTo sink.room car.lineBytes ∧
    (car.driveOrWarn sink).value.flushes = sink.flushes ∧
    (car.driveOrWarn sink).events =
      (if sink.Fits car.lineBytes.length then [.driving car.model]
        else [.driving car.model, .notWritten car.model "failed to write drive report"]) ∧
    ∀ outlet : Outlet, (car.drive outlet).value = (car.driveOrWarn outlet.sink).value.held ∧
      (car.drive outlet).events = (car.driveOrWarn outlet.sink).events := by
  have hvalue := car.value_driveOrWarn sink
  have hevents := car.events_driveOrWarn sink
  have hfilled := car.filled_driveTo sink
  refine ⟨hvalue, ?_, ?_, ?_, ?_, ?_⟩
  · rw [hevents, events_driveTo, List.singleton_append]
    cases (car.driveTo sink).value.1 <;> rfl
  · rw [hvalue, hfilled.held]
  · rw [hvalue, hfilled.flushes]
  · rw [hevents, warnings_driveTo]
    split <;> rfl
  · intro outlet
    exact ⟨rfl, by rw [events_drive, events_driveOrWarn]⟩

end Car

end Garage
