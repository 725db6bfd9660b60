import Garage.Proofs.Driving
import Garage.Proofs.Stepping
import Garage.Run

/-!
# Drives to one sink

Cars driven in order to one sink leave the first bytes of their lines, up to the limit, and once a
line was cut nothing follows it.

* `driveLog`: the lines of cars, one after the other.
* `sinkAfter`: the sink between two calls of a run. A call is what its car's drive makes of it
  (`getElem?_driveEach`, `sinkAfter_succ`).
* `filled_driveEach`, `getElem?_driveEach_eq_verdict`: a run fills the sink with the log, and a call
  is told the verdict on the log up to its own line.
* `held_sinkAfter_of_cut`: nothing follows a line that was cut.
* `forall_ok_driveEach_iff`, `getLast?_driveEach`: all drives succeed if all lines fit, and the last
  one tells.
* `Sink.fresh`: a sink to which nothing has been written, and what it holds after some drives
  (`held_sinkAfter_fresh`). The last theorem follows a run on it call by call.
-/

namespace Garage

/-- The lines of drives, one after the other. -/
def driveLog (cars : List Car) : List UInt8 :=
  cars.flatMap Car.lineBytes

@[simp] theorem driveLog_nil : driveLog [] = [] := rfl

@[simp] theorem driveLog_cons (car : Car) (cars : List Car) :
    driveLog (car :: cars) = car.lineBytes ++ driveLog cars := rfl

theorem driveLog_append (cars more : List Car) :
    driveLog (cars ++ more) = driveLog cars ++ driveLog more :=
  List.flatMap_append

theorem driveLog_ne_nil {cars : List Car} (h : cars ≠ []) : driveLog cars ≠ [] := by
  obtain ⟨car, rest, rfl⟩ := List.exists_cons_of_ne_nil h
  rw [driveLog_cons]
  exact List.append_ne_nil_of_left_ne_nil car.lineBytes_ne_nil _

theorem driveEach_cons (car : Car) (rest : List Car) (sink : Sink) :
    (driveEach (car :: rest) sink).value =
      ((car.driveTo sink).value.1 :: (driveEach rest (car.driveTo sink).value.2).value.1,
        (driveEach rest (car.driveTo sink).value.2).value.2) := rfl

theorem value_driveEach (cars : List Car) (sink : Sink) :
    (driveEach cars sink).value = stepEach (fun sink car => (car.driveTo sink).value) cars sink := by
  induction cars generalizing sink with
  | nil => rfl
  | cons car rest ih => rw [driveEach_cons, ih, stepEach]

theorem driveEach_append (cars more : List Car) (sink : Sink) :
    (driveEach (cars ++ more) sink).value =
      ((driveEach cars sink).value.1 ++ (driveEach more (driveEach cars sink).value.2).value.1,
        (driveEach more (driveEach cars sink).value.2).value.2) := by
  simp only [value_driveEach]
  exact stepEach_append _ cars more sink

theorem length_driveEach (cars : List Car) (sink : Sink) :
    (driveEach cars sink).value.1.length = cars.length := by
  rw [value_driveEach]
  exact length_stepEach _ cars sink

theorem filled_driveEach (cars : List Car) (sink : Sink) :
    sink.Filled (driveLog cars) (driveEach cars sink).value.2 := by
  induction cars generalizing sink with
  | nil => exact Sink.Filled.nil sink sink.calls
  | cons car rest ih =>
    rw [driveEach_cons, driveLog_cons]
    exact (car.filled_driveTo sink).trans (ih _)

/-- The sink after the first drives of a run. -/
def sinkAfter (cars : List Car) (sink : Sink) (k : Nat) : Sink :=
  (driveEach (cars.take k) sink).value.2

section Steps

variable (cars : List Car) (sink : Sink) {k : Nat} (hk : k < cars.length)
include hk

theorem getElem?_driveEach :
    (driveEach cars sink).value.1[k]? = some (cars[k].driveTo (sinkAfter cars sink k)).value.1 := by
  rw [sinkAfter, value_driveEach, value_driveEach]
  exact getElem?_stepEach _ cars sink hk

theorem sinkAfter_succ :
    sinkAfter cars sink (k + 1) = (cars[k].driveTo (sinkAfter cars sink k)).value.2 := by
  rw [sinkAfter, sinkAfter, value_driveEach, value_driveEach]
  exact stepEach_take_succ _ cars sink hk

theorem getElem?_driveEach_eq_verdict :
    (driveEach cars sink).value.1[k]? =
      some ((sink.verdict (driveLog (cars.take (k + 1)))).mapError .write) := by
  have hfilled : sink.Filled (driveLog (cars.take k)) (sinkAfter cars sink k) :=
    filled_driveEach _ sink
  rw [getElem?_driveEach cars sink hk, Car.driveTo_fst, ← List.take_append_getElem hk,
    driveLog_append, driveLog_cons, driveLog_nil, List.append_nil,
    hfilled.verdict_append (Or.inr (Car.lineBytes_ne_nil _))]

end Steps

theorem take_eq_append (cars : List Car) {i j : Nat} (hij : i ≤ j) :
    cars.take j = cars.take i ++ (cars.take j).drop i := by
  have hsplit := List.take_append_drop i (cars.take j)
  rw [List.take_take, Nat.min_eq_left hij] at hsplit
  exact hsplit.symm

theorem length_driveLog_take_le (cars : List Car) {i j : Nat} (hij : i ≤ j) :
    (driveLog (cars.take i)).length ≤ (driveLog (cars.take j)).length := by
  rw [take_eq_append cars hij, driveLog_append, List.length_append]
  exact Nat.le_add_right _ _

section Cut

variable {cars : List Car} {sink : Sink} {i j : Nat}
  (hcut : ¬ sink.Fits (driveLog (cars.take i)).length) (hij : i ≤ j)
include hcut hij

theorem not_fits_of_cut : ¬ sink.Fits (driveLog (cars.take j)).length := by
  intro hfits
  exact hcut (Sink.fits_mono hfits (length_driveLog_take_le cars hij))

theorem held_sinkAfter_of_cut : (sinkAfter cars sink j).held = (sinkAfter cars sink i).held := by
  have hfull : (sinkAfter cars sink i).room = some 0 :=
    (filled_driveEach (cars.take i) sink).room_eq_zero hcut
  have hrest := filled_driveEach ((cars.take j).drop i) (sinkAfter cars sink i)
  have hafter : sinkAfter cars sink j =
      (driveEach ((cars.take j).drop i) (sinkAfter cars sink i)).value.2 := by
    have hrun := driveEach_append (cars.take i) ((cars.take j).drop i) sink
    rw [← take_eq_append cars hij] at hrun
    rw [sinkAfter, hrun]
    rfl
  rw [hafter, ← Array.toList_inj, hrest.held, hfull, upTo, List.take_zero, List.append_nil]

end Cut

theorem fits_driveLog {cars : List Car} {sink : Sink} {k : Nat}
    (h : ∀ i < k, ∀ error, (driveEach cars sink).value.1[i]? ≠ some (.error error)) :
    sink.Fits (driveLog (cars.take k)).length := by
  induction k with
  | zero =>
    intro room _
    exact Nat.zero_le room
  | succ k ih =>
    by_cases hk : k < cars.length
    · refine Decidable.byContradiction fun hcut => ?_
      apply h k (Nat.lt_succ_self k) (.write sink.script.refusal.error)
      rw [getElem?_driveEach_eq_verdict cars sink hk, Sink.mapError_verdict_of_not_fits hcut]
    · -- there is no further drive
      have hall : cars.take (k + 1) = cars.take k := by
        rw [List.take_of_length_le (by omega), List.take_of_length_le (by omega)]
      rw [hall]
      exact ih fun i hi => h i (Nat.lt_succ_of_lt hi)

theorem forall_ok_driveEach_iff (cars : List Car) (sink : Sink) :
    (∀ result ∈ (driveEach cars sink).value.1, result = .ok ()) ↔
      sink.Fits (driveLog cars).length := by
  constructor
  · intro hok
    rw [← cars.take_length]
    apply fits_driveLog
    intro i _ error hi
    exact nomatch hok _ (List.mem_of_getElem? hi)
  · intro hfits result hmem
    obtain ⟨k, hk⟩ := List.mem_iff_getElem?.mp hmem
    have hlt : k < cars.length := by
      have := (List.getElem?_eq_some_iff.mp hk).1
      rwa [length_driveEach] at this
    rw [getElem?_driveEach_eq_verdict cars sink hlt, Option.some.injEq] at hk
    rw [← hk, Sink.mapError_verdict_eq_ok_iff]
    rw [← cars.take_length] at hfits
    exact Sink.fits_mono hfits (length_driveLog_take_le cars hlt)

theorem getLast?_driveEach {cars : List Car} (hne : cars ≠ []) (sink : Sink) :
    (driveEach cars sink).value.1.getLast? =
      some ((sink.verdict (driveLog cars)).mapError .write) := by
  have hpos := List.length_pos_iff.mpr hne
  rw [List.getLast?_eq_getElem?, length_driveEach,
    getElem?_driveEach_eq_verdict cars sink (by omega), Nat.sub_add_cancel hpos, cars.take_length]

/-- A new sink. -/
def Sink.fresh (script : Script) (limit : Option Nat) : Sink :=
  { script, limit }

theorem Sink.room_fresh (script : Script) (limit : Option Nat) :
    (Sink.fresh script limit).room = limit := by
  cases limit <;> rfl

theorem Sink.fits_fresh (script : Script) (limit : Option Nat) (n : Nat) :
    (Sink.fresh script limit).Fits n ↔ ∀ l ∈ limit, n ≤ l := by
  rw [Sink.Fits, Sink.room_fresh]

theorem held_sinkAfter_fresh (script : Script) (limit : Option Nat) (cars : List Car) (k : Nat) :
    (sinkAfter cars (.fresh script limit) k).held.toList =
      upTo limit (driveLog (cars.take k)) := by
  rw [sinkAfter, (filled_driveEach _ _).held, Sink.room_fresh]
  rfl

/-- A run on `Sink.fresh script limit` call by call: `sinkAfter` holds `driveLog` up to `limit`, a
call is `.ok ()` iff `driveLog` up to its own line is within `limit`, and from the first `.error` on
neither the results nor `held` change. -/
theorem driveEach_fresh (script : Script) (limit : Option Nat) (cars : List Car) :
    (∀ k, (sinkAfter cars (.fresh script limit) k).held.toList =
      upTo limit (driveLog (cars.take k))) ∧
    (∀ k (hk : k < cars.length),
      (driveEach cars (.fresh script limit)).value.1[k]? =
          some (cars[k].driveTo (sinkAfter cars (.fresh script limit) k)).value.1 ∧
        sinkAfter cars (.fresh script limit) (k + 1) =
          (cars[k].driveTo (sinkAfter cars (.fresh script limit) k)).value.2) ∧
    (∀ k < cars.length,
      (driveEach cars (.fresh script limit)).value.1[k]? = some (.ok ()) ↔
        ∀ l ∈ limit, (driveLog (cars.take (k + 1))).length ≤ l) ∧
    (∀ i j error, i ≤ j → j < cars.length →
      (driveEach cars (.fresh script limit)).value.1[i]? = some (.error error) →
      (driveEach cars (.fresh script limit)).value.1[j]? = some (.error error) ∧
        (sinkAfter cars (.fresh script limit) (j + 1)).held =
          (sinkAfter cars (.fresh script limit) (i + 1)).held) := by
  refine ⟨held_sinkAfter_fresh script limit cars, ?_, ?_, ?_⟩
  · intro k hk
    exact ⟨getElem?_driveEach cars _ hk, sinkAfter_succ cars _ hk⟩
  · intro k hk
    rw [getElem?_driveEach_eq_verdict cars _ hk, Option.some.injEq,
      Sink.mapError_verdict_eq_ok_iff, Sink.fits_fresh]
  · intro i j error hij hj hi
    rw [getElem?_driveEach_eq_verdict cars _ (by omega), Option.some.injEq] at hi
    have hcut : ¬ (Sink.fresh script limit).Fits (driveLog (cars.take (i + 1))).length := by
      intro hfits
      rw [(Sink.mapError_verdict_eq_ok_iff _ _).mpr hfits] at hi
      cases hi
    have hij' : i + 1 ≤ j + 1 := by omega
    refine ⟨?_, held_sinkAfter_of_cut hcut hij'⟩
    rw [getElem?_driveEach_eq_verdict cars _ hj, ← hi, Sink.mapError_verdict_of_not_fits hcut,
      Sink.mapError_verdict_of_not_fits (not_fits_of_cut hcut hij')]

end Garage
