import Garage.Proofs.DriveLog
import Garage.Proofs.Runs

/-!
# Sinks apart

What a run makes of one sink depends on its drives to this sink only. Other acts may come between
them, drives that fail included; these can be left out, moved or changed without a trace in the sink
or in what its own drives give back.

* `carsTo`, `resultsTo`: the cars that a run drives to a sink, and what these drives give back.
* `restriction_perform`: what one act is to a sink.
* `run_sink`: what a run is to a sink.
-/

namespace Garage

/-- The car that an act drives to a sink. -/
def Act.carTo (number : Nat) : Act → Option Car
  | driveTo car n => if n = number then some car else none
  | _ => none

/-- The cars that are driven to a sink, in order. -/
def carsTo (number : Nat) (acts : List Act) : List Car :=
  acts.filterMap (Act.carTo number)

/-- What the drives to a sink give back, in order. -/
def resultsTo (number : Nat) (acts : List Act) (results : List Act.Result) : List Act.Result :=
  pickedResults (Act.carTo number) acts results

theorem Act.carTo_eq_some_iff {number : Nat} {act : Act} {car : Car} :
    act.carTo number = some car ↔ act = driveTo car number := by
  cases act with
  | build | copy | report | call | drive => simp [carTo]
  | driveTo car' n => simp [carTo, and_comm]

theorem carsTo_append_driveTo (number : Nat) (before : List Act) (car : Car) (after : List Act) :
    carsTo number (before ++ .driveTo car number :: after) =
      carsTo number before ++ car :: carsTo number after := by
  rw [carsTo, List.filterMap_append, List.filterMap_cons_some (Act.carTo_eq_some_iff.mpr rfl)]
  rfl

theorem restriction_perform (number : Nat) :
    Restriction (fun world act => (Act.perform world act).value) (·.sinks number)
      (Act.carTo number) (fun sink car => (car.driveTo sink).value) .driven where
  picked world act car hcar := by
    rw [Act.carTo_eq_some_iff.mp hcar]
    exact ⟨rfl, if_pos rfl⟩
  other world act hother := by
    cases act with
    | build | copy | report | call | drive => rfl
    | driveTo car n =>
      have hne : number ≠ n := by
        rintro rfl
        exact Option.some_ne_none car ((Act.carTo_eq_some_iff.mpr rfl).symm.trans hother)
      exact if_neg hne

theorem run_sink (acts : List Act) (world : World) (number : Nat) :
    resultsTo number acts (run acts world).value.1 =
        (driveEach (carsTo number acts) (world.sinks number)).value.1.map .driven ∧
      (run acts world).value.2.sinks number =
        (driveEach (carsTo number acts) (world.sinks number)).value.2 := by
  rw [value_run, value_driveEach]
  exact (restriction_perform number).stepEach_eq acts world

theorem getElem?_run_driveTo (before : List Act) (car : Car) (number : Nat) (after : List Act)
    (world : World) :
    (run (before ++ .driveTo car number :: after) world).value.1[before.length]? =
      some (.driven (car.driveTo
        (driveEach (carsTo number before) (world.sinks number)).value.2).value.1) := by
  rw [value_run, getElem?_stepEach_append, ← value_run, ← (run_sink before world number).2]
  rfl

/-- The drives to sink `number` have the results of `driveEach (carsTo number acts)` on this sink
alone and leave it alike. So runs with the same `carsTo number` and the same sink agree on it, and
on the result of each `.driveTo _ number` that has as many before it. -/
theorem run_apart (acts : List Act) (world : World) (number : Nat) :
    resultsTo number acts (run acts world).value.1 =
        (driveEach (carsTo number acts) (world.sinks number)).value.1.map .driven ∧
    (run acts world).value.2.sinks number =
        (driveEach (carsTo number acts) (world.sinks number)).value.2 ∧
    ∀ acts' world', carsTo number acts' = carsTo number acts →
      world'.sinks number = world.sinks number →
      (run acts' world').value.2.sinks number = (run acts world).value.2.sinks number ∧
      ∀ before car after before' car' after',
        acts = before ++ .driveTo car number :: after →
        acts' = before' ++ .driveTo car' number :: after' →
        (carsTo number before').length = (carsTo number before).length →
        car' = car ∧ ∃ result,
          (run acts world).value.1[before.length]? = some (.driven result) ∧
          (run acts' world').value.1[before'.length]? = some (.driven result) := by
  obtain ⟨hresults, hsink⟩ := run_sink acts world number
  refine ⟨hresults, hsink, ?_⟩
  intro acts' world' hcars hworld
  constructor
  · rw [(run_sink acts' world' number).2, hsink, hcars, hworld]
  rintro before car after before' car' after' rfl rfl hplace
  rw [carsTo_append_driveTo, carsTo_append_driveTo] at hcars
  obtain ⟨hbefore, hrest⟩ := List.append_inj hcars hplace
  obtain ⟨rfl, -⟩ := List.cons.inj hrest
  refine ⟨rfl, _, getElem?_run_driveTo before car' number after world, ?_⟩
  rw [getElem?_run_driveTo, hbefore, hworld]

/-- Sink 1 cuts the line of `"🚗"` in both runs, sink 0 that of `"Alpha"` in one of them. -/
theorem run_apart_cut :
    ∃ acts acts' : List Act, ∃ world world' : World,
      acts = [.driveTo (.ofModel "Alpha") 0, .driveTo (.ofModel "Škoda") 1,
        .driveTo (.ofModel "🚗") 1] ∧
      acts' = [.driveTo (.ofModel "Škoda") 1, .build "Beta", .drive (.ofModel "") .closed,
        .driveTo (.ofModel "🚗") 1, .driveTo (.ofModel "Alpha") 0] ∧
      (world.sinks 0).limit = some 3 ∧ (world'.sinks 0).limit = none ∧
      carsTo 1 acts' = carsTo 1 acts ∧ world'.sinks 1 = world.sinks 1 ∧
      (carsTo 1 (acts'.take 3)).length = (carsTo 1 (acts.take 2)).length ∧
      (run acts' world').value.2.sinks 1 = (run acts world).value.2.sinks 1 ∧
      ∃ result, (run acts world).value.1[2]? = some (.driven result) ∧
        (run acts' world').value.1[3]? = some (.driven result) := by
  have hcars : carsTo 1 [.driveTo (.ofModel "Škoda") 1, .build "Beta", .drive (.ofModel "") .closed,
        .driveTo (.ofModel "🚗") 1, .driveTo (.ofModel "Alpha") 0] =
      carsTo 1 [.driveTo (.ofModel "Alpha") 0, .driveTo (.ofModel "Škoda") 1,
        .driveTo (.ofModel "🚗") 1] := by decide
  obtain ⟨-, -, hsame⟩ := run_apart [.driveTo (.ofModel "Alpha") 0, .driveTo (.ofModel "Škoda") 1,
    .driveTo (.ofModel "🚗") 1] ((World.fresh.setSink 0 { limit := some 3 }).setSink 1
      { limit := some 40, script := { chunk := some 1, interruptEvery := 2 } }) 1
  obtain ⟨hsink, hcalls⟩ := hsame _ (World.fresh.setSink 1
    { limit := some 40, script := { chunk := some 1, interruptEvery := 2 } }) hcars rfl
  obtain ⟨-, hresult⟩ := hcalls
    [.driveTo (.ofModel "Alpha") 0, .driveTo (.ofModel "Škoda") 1] _ []
    [.driveTo (.ofModel "Škoda") 1, .build "Beta", .drive (.ofModel "") .closed] _
    [.driveTo (.ofModel "Alpha") 0] rfl rfl rfl
  exact ⟨_, _, (World.fresh.setSink 0 { limit := some 3 }).setSink 1 _, World.fresh.setSink 1 _,
    rfl, rfl, rfl, rfl, hcars, rfl, rfl, hsink, hresult⟩

end Garage
