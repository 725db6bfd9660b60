import Garage.Proofs.DriveLog

/-!
# Forged lines

Nothing in a model is escaped, so a model may hold the end of one line and the beginning of the
next. The line of such a car is the lines of several cars, and since a sink counts bytes only, no
sink tells them apart, not even one that cuts them short.

* `seam`, `forgedModel`: the model whose line is the lines of given cars (`Car.lineBytes_forged`).
* `exists_forger`: one drive in place of many.
-/

namespace Garage

open Format

/-- What stands between two models in the lines of their drives. -/
def seam : String := " with 200 HP engine\nDriving "

/-- The models of cars, joined as their lines join them. -/
def forgedModel (cars : List Car) : String :=
  seam.intercalate (cars.map Car.model)

theorem forgedModel_singleton (car : Car) : forgedModel [car] = car.model := by
  simp [forgedModel]

theorem forgedModel_cons_cons (car next : Car) (rest : List Car) :
    forgedModel (car :: next :: rest) = car.model ++ seam ++ forgedModel (next :: rest) := by
  simp [forgedModel, String.intercalate_cons_cons]

theorem newline_mem_forgedModel {cars : List Car} (h : 1 < cars.length) :
    '\n' ∈ (forgedModel cars).toList := by
  obtain ⟨car, next, rest, rfl⟩ : ∃ car next rest, cars = car :: next :: rest := by
    rcases cars with _ | ⟨car, _ | ⟨next, rest⟩⟩ <;> simp at h ⊢
  have hseam : '\n' ∈ seam.toList := by decide
  rw [forgedModel_cons_cons, String.toList_append, String.toList_append]
  exact List.mem_append_left _ (List.mem_append_right _ hseam)

namespace Car

theorem lineBytes_congr {car car' : Car} (h : car.model = car'.model) :
    car.lineBytes = car'.lineBytes := by
  rw [lineBytes_eq, lineBytes_eq, line_toList, line_toList, h]

theorem lineBytes_of_seam {car first second : Car}
    (h : car.model = first.model ++ seam ++ second.model) :
    car.lineBytes = first.lineBytes ++ second.lineBytes := by
  have hseam : seam.toList = " with 200 HP engine".toList ++ ['\n'] ++ "Driving ".toList := by
    decide
  simp only [lineBytes, Report.lineBytes_eq_utf8, ← utf8_append]
  simp only [line_toList, h, hseam, String.toList_append, List.append_assoc]

theorem lineBytes_forged {cars : List Car} (hne : cars ≠ []) (forger : Car)
    (h : forger.model = forgedModel cars) : forger.lineBytes = driveLog cars := by
  induction cars generalizing forger with
  | nil => exact absurd rfl hne
  | cons car rest ih =>
    cases rest with
    | nil =>
      rw [driveLog_cons, driveLog_nil, List.append_nil]
      exact lineBytes_congr (h.trans (forgedModel_singleton car))
    | cons next rest =>
      have hrest := ih (List.cons_ne_nil _ _) (ofModel (forgedModel (next :: rest))) rfl
      rw [driveLog_cons, ← hrest]
      exact lineBytes_of_seam (h.trans (forgedModel_cons_cons car next rest))

end Car

/-- On every sink, `Car.driveTo` by one `forger` leaves `held` as `driveEach cars` does and has the
result of the last of its drives, which is `.ok ()` iff all of them are. -/
theorem exists_forger {cars : List Car} (hne : cars ≠ []) :
    ∃ forger : Car, (1 < cars.length → '\n' ∈ forger.model.toList) ∧
      ∀ sink : Sink,
        (forger.driveTo sink).value.2.held = (driveEach cars sink).value.2.held ∧
        ((forger.driveTo sink).value.1 = .ok () ↔
          ∀ result ∈ (driveEach cars sink).value.1, result = .ok ()) ∧
        (driveEach cars sink).value.1.getLast? = some (forger.driveTo sink).value.1 := by
  have hline := Car.lineBytes_forged hne (.ofModel (forgedModel cars)) rfl
  refine ⟨.ofModel (forgedModel cars), newline_mem_forgedModel, ?_⟩
  intro sink
  refine ⟨?_, ?_, ?_⟩
  · have hforged := (Car.ofModel (forgedModel cars)).filled_driveTo sink
    rw [hline] at hforged
    rw [← Array.toList_inj, hforged.held, (filled_driveEach cars sink).held]
  · rw [Car.driveTo_fst, Sink.mapError_verdict_eq_ok_iff, hline, forall_ok_driveEach_iff]
  · rw [Car.driveTo_fst, hline, getLast?_driveEach hne]

/-- The sink is cut within `'🚗'`, so the last two of the four drives fail. -/
theorem exists_forger_cut :
    ∃ (forger : Car) (script : Script),
      Script.ofParts? (some 3) 2 .takeNothing = some script ∧
      [Car.ofModel "Alpha", .ofModel "", .ofModel "🚗", .ofModel ""] ≠ [] ∧
      '\n' ∈ forger.model.toList ∧
      (forger.driveTo (.fresh script (some 72))).value.1.isOk = false ∧
      (driveEach [Car.ofModel "Alpha", .ofModel "", .ofModel "🚗", .ofModel ""]
        (.fresh script (some 72))).value.1.map (·.isOk) = [true, true, false, false] ∧
      (forger.driveTo (.fresh script (some 72))).value.2.held =
        (driveEach [Car.ofModel "Alpha", .ofModel "", .ofModel "🚗", .ofModel ""]
          (.fresh script (some 72))).value.2.held := by
  have hne : [Car.ofModel "Alpha", .ofModel "", .ofModel "🚗", .ofModel ""] ≠ [] :=
    List.cons_ne_nil _ _
  obtain ⟨forger, hnewline, hsink⟩ := exists_forger hne
  obtain ⟨hheld, -, hlast⟩ :=
    hsink (.fresh ⟨some 3, by simp, 2, by decide, .takeNothing⟩ (some 72))
  have hresults : (driveEach [Car.ofModel "Alpha", .ofModel "", .ofModel "🚗", .ofModel ""]
      (.fresh ⟨some 3, by simp, 2, by decide, .takeNothing⟩ (some 72))).value.1.map (·.isOk) =
        [true, true, false, false] := by
    decide +kernel
  have hfailed := congrArg List.getLast? hresults
  rw [List.getLast?_map, hlast] at hfailed
  exact ⟨forger, _, rfl, hne, hnewline (by decide), Option.some.inj hfailed, hresults, hheld⟩

end Garage
