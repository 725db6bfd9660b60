import Garage.Proofs.DriveLog
import Garage.Proofs.EventLog

/-!
# Printing

Drives to the program's own output, which may work at one call and fail at the next. A call whose
line is lost leaves no trace in the output, neither at once nor later, and none in the calls after
it; it only warns.

* `printActs`, `printedCars`: such drives as acts, and the cars whose lines get through.
* `Act.value_perform_drive`: one drive.
* `printed_run_printActs`: the output after a run of them.
* `Car.warns_drive_iff`: a drive warns exactly if the same drive would tell its caller of an error.
-/

namespace Garage

/-- Drives to the program's own output, each with the state in which it finds the output. -/
def printActs (calls : List (Car × Outlet)) : List Act :=
  calls.map fun (car, outlet) => .drive car outlet

/-- The cars that were driven while the output was working, in order. -/
def printedCars (calls : List (Car × Outlet)) : List Car :=
  (calls.filter fun (_, outlet) => outlet = .working).map Prod.fst

theorem driveLog_printedCars_cons (car : Car) (outlet : Outlet) (rest : List (Car × Outlet)) :
    driveLog (printedCars ((car, outlet) :: rest)) =
      (if outlet = .working then car.lineBytes else []) ++ driveLog (printedCars rest) := by
  cases outlet <;> rfl

theorem Act.value_perform_drive (car : Car) (outlet : Outlet) (world : World) :
    ((Act.drive car outlet).perform world).value =
      (.printed (if outlet = .working then car.lineBytes.toArray else #[]),
        { world with
          printed :=
            world.printed ++ if outlet = .working then car.lineBytes.toArray else #[] }) := by
  have hbytes : (car.drive outlet).value =
      if outlet = .working then car.lineBytes.toArray else #[] := by
    rw [← Array.toList_inj, Car.value_drive]
    split <;> rfl
  rw [← hbytes]
  rfl

theorem results_run_printActs (calls : List (Car × Outlet)) (world : World) :
    (run (printActs calls) world).value.1 = calls.map fun (car, outlet) =>
      .printed (if outlet = .working then car.lineBytes.toArray else #[]) := by
  rw [value_run]
  induction calls generalizing world with
  | nil => rfl
  | cons call rest ih =>
    obtain ⟨car, outlet⟩ := call
    show ((Act.drive car outlet).perform world).value.1 :: (stepEach _ (printActs rest)
      ((Act.drive car outlet).perform world).value.2).1 = _
    rw [ih, Act.value_perform_drive]
    rfl

theorem printed_run_printActs (calls : List (Car × Outlet)) (world : World) :
    (run (printActs calls) world).value.2.printed.toList =
      world.printed.toList ++ driveLog (printedCars calls) := by
  rw [value_run]
  induction calls generalizing world with
  | nil => exact (List.append_nil _).symm
  | cons call rest ih =>
    obtain ⟨car, outlet⟩ := call
    show (stepEach _ (printActs rest)
      ((Act.drive car outlet).perform world).value.2).2.printed.toList = _
    rw [ih, Act.value_perform_drive, driveLog_printedCars_cons, Array.toList_append,
      List.append_assoc]
    split <;> rfl

theorem Car.warns_drive_iff (car : Car) (outlet : Outlet) :
    (∃ event ∈ (car.drive outlet).events, event.level = .warn) ↔
      ∃ error, (car.driveTo outlet.sink).value.1 = .error error := by
  rw [Car.events_drive]
  cases (car.driveTo outlet.sink).value.1 with
  | ok =>
    constructor
    · rintro ⟨event, hevent, hwarn⟩
      rw [List.mem_singleton.mp hevent] at hwarn
      cases hwarn
    · rintro ⟨error, herror⟩
      cases herror
  | error error =>
    exact ⟨fun _ => ⟨error, rfl⟩, fun _ => ⟨_, List.mem_cons_of_mem _ List.mem_cons_self, rfl⟩⟩

theorem events_perform_drive (car : Car) (outlet : Outlet) (world : World) :
    ((Act.drive car outlet).perform world).events = (car.drive outlet).events := by
  rw [Act.perform, Logged.events_bind, Logged.events_pure, List.append_nil]

theorem events_run_printActs_succ (calls : List (Car × Outlet)) (world : World) {k : Nat}
    (hk : k < calls.length) :
    (run (printActs (calls.take (k + 1))) world).events =
      (run (printActs (calls.take k)) world).events ++ (calls[k].1.drive calls[k].2).events := by
  have hlast : printActs (calls.take (k + 1)) =
      printActs (calls.take k) ++ [.drive calls[k].1 calls[k].2] := by
    rw [← List.take_append_getElem hk]
    exact List.map_append
  rw [events_run, events_run, hlast, List.flatMap_append, List.flatMap_singleton,
    ← Act.events_perform _ world, events_perform_drive]

/-- A run of `printActs` comes to its end with `lineBytes` or nothing for each call, and after each
call it has printed `driveLog` of the `printedCars`. A call warns iff `Car.driveTo` on the sink of
its outlet has an error, which is iff the outlet is not `.working`. -/
theorem printed_run (calls : List (Car × Outlet)) (world : World) :
    (run (printActs calls) world).value.1 = calls.map (fun (car, outlet) =>
      .printed (if outlet = .working then car.lineBytes.toArray else #[])) ∧
    (∀ k, (worldAfter (printActs calls) world k).printed.toList =
      world.printed.toList ++ driveLog (printedCars (calls.take k))) ∧
    (∀ k (hk : k < calls.length),
      (run (printActs (calls.take (k + 1))) world).events =
          (run (printActs (calls.take k)) world).events ++ (calls[k].1.drive calls[k].2).events ∧
        ((∃ event ∈ (calls[k].1.drive calls[k].2).events, event.level = .warn) ↔
          ∃ error, (calls[k].1.driveTo calls[k].2.sink).value.1 = .error error) ∧
        ((∃ error, (calls[k].1.driveTo calls[k].2.sink).value.1 = .error error) ↔
          calls[k].2 ≠ .working)) := by
  refine ⟨results_run_printActs calls world, ?_, ?_⟩
  · intro k
    rw [worldAfter, printActs, ← List.map_take]
    exact printed_run_printActs (calls.take k) world
  · intro k hk
    exact ⟨events_run_printActs_succ calls world hk, Car.warns_drive_iff _ _,
      Outlet.driveTo_error_iff _ _⟩

/-- One call is lost before the one that is printed, and one behind it. -/
theorem printed_run_lost :
    2 < [(Car.ofModel "Škoda", Outlet.closed), (.ofModel "", .working),
      (.ofModel "🚗", .full)].length ∧
    (worldAfter (printActs [(Car.ofModel "Škoda", Outlet.closed), (.ofModel "", .working),
      (.ofModel "🚗", .full)]) .fresh 3).printed.toList = (Car.ofModel "").lineBytes ∧
    ∃ event ∈ ((Car.ofModel "🚗").drive .full).events, event.level = .warn := by
  obtain ⟨-, hprinted, hcalls⟩ := printed_run [(Car.ofModel "Škoda", Outlet.closed),
    (.ofModel "", .working), (.ofModel "🚗", .full)] .fresh
  obtain ⟨-, hwarns, herror⟩ := hcalls 2 (by decide)
  refine ⟨by decide, ?_, hwarns.mpr (herror.mpr (by decide))⟩
  rw [hprinted 3]
  exact List.append_nil _

end Garage
