import Garage.Proofs.Line
import Garage.Proofs.Writing

/-!
# Driving to a sink

A drive gives its sink one line. The sink takes what fits of it, and the caller is told whether that
was the whole line.

* `Car.driveTo_fst`, `Car.filled_driveTo`: a drive in terms of `Sink.verdict` and `Sink.Filled`.
  Other proofs reach `Car.driveTo` through these two, or, where the single calls matter, through the
  loop over its fragments (`Car.value_driveTo_eq_writeEach`).
* `Car.driveTo_ok`, `Car.driveTo_error`: a drive whose line fits, and one whose line does not.
-/

namespace Garage

open Format

namespace Sink

theorem fits_iff (sink : Sink) {n : Nat} (hn : 0 < n) :
    sink.Fits n ↔ ∀ limit ∈ sink.limit, sink.held.size + n ≤ limit := by
  unfold Fits room
  cases sink.limit with
  | none => simp
  | some limit =>
    simp only [Option.map_some, Option.mem_some_iff, forall_eq']
    omega

theorem mapError_verdict_eq_ok_iff (sink : Sink) (bytes : List UInt8) :
    (sink.verdict bytes).mapError DriveError.write = .ok () ↔ sink.Fits bytes.length := by
  unfold verdict
  split
  · rename_i hfits
    exact ⟨fun _ => hfits, fun _ => rfl⟩
  · rename_i hfits
    exact ⟨fun h => (nomatch h), fun h => absurd h hfits⟩

theorem mapError_verdict_of_not_fits {sink : Sink} {bytes : List UInt8}
    (h : ¬ sink.Fits bytes.length) :
    (sink.verdict bytes).mapError DriveError.write = .error (.write sink.script.refusal.error) := by
  rw [verdict, if_neg h]
  rfl

end Sink

namespace Car

theorem value_driveTo_eq_writeEach (car : Car) (sink : Sink) :
    (car.driveTo sink).value =
      ((writeEach Sink.writeAll sink (car.report.lineFragments.map utf8)).1.mapError .write,
        (writeEach Sink.writeAll sink (car.report.lineFragments.map utf8)).2) := by
  rw [← Sink.writeEach_put]
  rfl

theorem flatten_map_lineFragments (car : Car) :
    (car.report.lineFragments.map utf8).flatten = car.lineBytes := by
  rw [← utf8_flatten, Report.utf8_lineFragments]
  rfl

theorem driveTo_fst (car : Car) (sink : Sink) :
    (car.driveTo sink).value.1 = (sink.verdict car.lineBytes).mapError .write := by
  have h := (Sink.writeEach_writeAll_spec sink (car.report.lineFragments.map utf8)).1
  rw [flatten_map_lineFragments] at h
  rw [value_driveTo_eq_writeEach, h]

theorem filled_driveTo (car : Car) (sink : Sink) :
    sink.Filled car.lineBytes (car.driveTo sink).value.2 := by
  have h := (Sink.writeEach_writeAll_spec sink (car.report.lineFragments.map utf8)).2
  rw [flatten_map_lineFragments] at h
  rwa [value_driveTo_eq_writeEach]

theorem driveTo_ok {car : Car} {sink : Sink} (h : sink.Fits car.lineBytes.length) :
    (car.driveTo sink).value.1 = .ok () := by
  rw [driveTo_fst, Sink.mapError_verdict_eq_ok_iff]
  exact h

theorem driveTo_error {car : Car} {sink : Sink} (h : ¬ sink.Fits car.lineBytes.length) :
    (car.driveTo sink).value.1 = .error (.write sink.script.refusal.error) := by
  rw [driveTo_fst, Sink.mapError_verdict_of_not_fits h]

theorem length_lineBytes_pos (car : Car) : 0 < car.lineBytes.length :=
  List.length_pos_iff.mpr car.lineBytes_ne_nil

/-- The outcome of `Car.driveTo` by the room of the sink: `.ok ()` and the whole line behind `held`
if that leads not past `limit`, else `DriveError.write` and the line up to `limit`. Of the script
only `refusal` matters. -/
theorem driveTo_outcome (car : Car) (sink : Sink) :
    car.lineBytes.length = car.model.utf8ByteSize + 28 ∧
    ((car.driveTo sink).value.1 = .ok () ↔
      ∀ limit ∈ sink.limit, sink.held.size + car.lineBytes.length ≤ limit) ∧
    ((car.driveTo sink).value.1 = .ok () →
      (car.driveTo sink).value.2.held.toList = sink.held.toList ++ car.lineBytes) ∧
    ((car.driveTo sink).value.1 ≠ .ok () →
      ∃ limit source, sink.limit = some limit ∧
        (car.driveTo sink).value.1 = .error (.write source) ∧
        (car.driveTo sink).value.2.held.toList =
          sink.held.toList ++ car.lineBytes.take (limit - sink.held.size)) ∧
    (∀ other : Sink, other.limit = sink.limit → other.held = sink.held →
      other.script.refusal = sink.script.refusal →
      (car.driveTo other).value.1 = (car.driveTo sink).value.1 ∧
        (car.driveTo other).value.2.held = (car.driveTo sink).value.2.held) ∧
    (car.driveTo sink).value.2.flushes = sink.flushes := by
  have hok : (car.driveTo sink).value.1 = .ok () ↔ sink.Fits car.lineBytes.length := by
    rw [driveTo_fst, Sink.mapError_verdict_eq_ok_iff]
  have hfilled := car.filled_driveTo sink
  refine ⟨car.length_lineBytes, hok.trans (sink.fits_iff car.length_lineBytes_pos), ?_, ?_, ?_,
    hfilled.flushes⟩
  · intro h
    rw [hfilled.held, upTo_of_length_le (hok.mp h)]
  · intro h
    have hfits := mt hok.mpr h
    obtain ⟨room, hroom, -⟩ := Sink.exists_room_lt hfits
    obtain ⟨limit, hlimit, rfl⟩ := Option.map_eq_some_iff.mp hroom
    refine ⟨limit, sink.script.refusal.error, hlimit, driveTo_error hfits, ?_⟩
    rw [hfilled.held, hroom]
    rfl
  · intro other hlimit hheld hrefusal
    have hroom : other.room = sink.room := by rw [Sink.room, Sink.room, hlimit, hheld]
    constructor
    · rw [driveTo_fst, driveTo_fst, Sink.verdict_congr hroom hrefusal]
    · rw [← Array.toList_inj, (car.filled_driveTo other).held, hfilled.held, hheld, hroom]

end Car

end Garage
