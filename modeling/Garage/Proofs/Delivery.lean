import Mathlib.Data.List.DropRight
import Garage.Proofs.DriveLog

/-!
# Delivered lines

What a reader can tell from a sink when every model is one line. A drive that fails never gets its
end of line through, so the ends of lines count the drives that succeeded, the bytes up to the last
one are their lines, and the models can be told from these bytes.

* `delivered`: the cars whose drives succeeded.
* `completeLines`: the bytes up to the last end of line.
* `held_driveEach`: after a run, a sink holds the lines of the delivered cars and a piece without an
  end of line.
* `models_eq_of_driveLog_eq`: a log can be decoded.
-/

namespace Garage

/-- The cars whose drives succeeded, in order. -/
def delivered (cars : List Car) (results : List (Except DriveError Unit)) : List Car :=
  ((cars.zip results).filter (·.2.isOk)).map Prod.fst

/-- The bytes up to the last end of line, which belongs to them. -/
def completeLines (bytes : List UInt8) : List UInt8 :=
  bytes.rdropWhile (· != 0x0A)

/-! ## Delivered cars -/

theorem delivered_cons_ok (car : Car) (cars : List Car) (results : List (Except DriveError Unit)) :
    delivered (car :: cars) (.ok () :: results) = car :: delivered cars results := rfl

theorem delivered_cons_error (car : Car) (cars : List Car) (error : DriveError)
    (results : List (Except DriveError Unit)) :
    delivered (car :: cars) (.error error :: results) = delivered cars results := rfl

theorem mem_of_mem_delivered {car : Car} {cars : List Car}
    {results : List (Except DriveError Unit)} (h : car ∈ delivered cars results) : car ∈ cars := by
  obtain ⟨⟨c, r⟩, hmem, rfl⟩ := List.mem_map.mp h
  exact (List.of_mem_zip (List.mem_of_mem_filter hmem)).1

theorem length_delivered {cars : List Car} {results : List (Except DriveError Unit)}
    (h : results.length = cars.length) :
    (delivered cars results).length = results.countP (·.isOk) := by
  induction cars generalizing results with
  | nil =>
    rw [List.eq_nil_of_length_eq_zero h]
    rfl
  | cons car rest ih =>
    obtain ⟨result, results, rfl⟩ := List.exists_cons_of_length_eq_add_one h
    have hrest := ih (Nat.succ.inj h)
    cases result with
    | ok => rw [delivered_cons_ok, List.length_cons, hrest, List.countP_cons_of_pos rfl]
    | error error =>
      rw [delivered_cons_error, hrest, List.countP_cons_of_neg Bool.false_ne_true]

/-! ## Lines in bytes -/

theorem completeLines_append {bytes tail : List UInt8} (h : 0x0A ∉ tail) :
    completeLines (bytes ++ tail) = completeLines bytes := by
  rw [completeLines, completeLines, List.rdropWhile, List.rdropWhile, List.reverse_append,
    List.dropWhile_append_of_pos]
  intro b hb
  rw [bne_iff_ne]
  rintro rfl
  exact h (List.mem_reverse.mp hb)

theorem completeLines_driveLog (cars : List Car) :
    completeLines (driveLog cars) = driveLog cars := by
  rcases List.eq_nil_or_concat cars with rfl | ⟨rest, car, rfl⟩
  · rfl
  · rw [List.concat_eq_append, driveLog_append, driveLog_cons, driveLog_nil, List.append_nil,
      Car.lineBytes_eq, ← List.append_assoc]
    exact List.rdropWhile_concat_neg _ _ _ (by decide)

theorem count_newline_driveLog {cars : List Car} (h : ∀ car ∈ cars, '\n' ∉ car.model.toList) :
    (driveLog cars).count 0x0A = cars.length := by
  induction cars with
  | nil => rfl
  | cons car rest ih =>
    obtain ⟨hcar, hrest⟩ := List.forall_mem_cons.mp h
    rw [driveLog_cons, Car.lineBytes_eq, List.count_append, List.count_append, ih hrest,
      List.count_eq_zero.mpr (Car.newline_not_mem_line hcar), List.count_singleton_self,
      List.length_cons, Nat.zero_add, Nat.add_comm]

theorem newline_not_mem_take {car : Car} (h : '\n' ∉ car.model.toList) {n : Nat}
    (hn : n < car.lineBytes.length) : 0x0A ∉ car.lineBytes.take n := by
  rw [Car.lineBytes_eq, List.length_append, List.length_singleton] at hn
  rw [Car.lineBytes_eq, List.take_append_of_le_length (by omega)]
  exact fun hmem => Car.newline_not_mem_line h (List.mem_of_mem_take hmem)

theorem takeWhile_line {car : Car} (h : '\n' ∉ car.model.toList) (rest : List UInt8) :
    (car.lineBytes ++ rest).takeWhile (· != 0x0A) = utf8 car.report.line.toList := by
  rw [Car.lineBytes_eq, List.append_assoc, List.takeWhile_append_of_pos]
  · exact List.append_nil _
  · intro b hb
    rw [bne_iff_ne]
    rintro rfl
    exact Car.newline_not_mem_line h hb

theorem models_eq_of_driveLog_eq {cars cars' : List Car}
    (h : ∀ car ∈ cars, '\n' ∉ car.model.toList) (h' : ∀ car ∈ cars', '\n' ∉ car.model.toList)
    (heq : driveLog cars = driveLog cars') : cars.map Car.model = cars'.map Car.model := by
  induction cars generalizing cars' with
  | nil =>
    cases cars' with
    | nil => rfl
    | cons car' rest' => exact absurd heq.symm (driveLog_ne_nil (List.cons_ne_nil _ _))
  | cons car rest ih =>
    cases cars' with
    | nil => exact absurd heq (driveLog_ne_nil (List.cons_ne_nil _ _))
    | cons car' rest' =>
      obtain ⟨hcar, hrest⟩ := List.forall_mem_cons.mp h
      obtain ⟨hcar', hrest'⟩ := List.forall_mem_cons.mp h'
      rw [driveLog_cons, driveLog_cons] at heq
      have hline : utf8 car.report.line.toList = utf8 car'.report.line.toList := by
        rw [← takeWhile_line hcar (driveLog rest), heq, takeWhile_line hcar']
      have hbytes : car.lineBytes = car'.lineBytes := by
        rw [Car.lineBytes_eq, hline, ← Car.lineBytes_eq]
      rw [hbytes] at heq
      rw [List.map_cons, List.map_cons, Car.model_eq_of_line hline,
        ih hrest hrest' (List.append_cancel_left heq)]

/-! ## Runs -/

theorem delivered_of_full {sink : Sink} (hroom : sink.room = some 0) (cars : List Car) :
    delivered cars (driveEach cars sink).value.1 = [] := by
  induction cars generalizing sink with
  | nil => rfl
  | cons car rest ih =>
    have hfits := Sink.not_fits_of_full hroom car.lineBytes_ne_nil
    simp only [driveEach_cons, Car.driveTo_error hfits, delivered_cons_error]
    exact ih ((car.filled_driveTo sink).room_eq_zero hfits)

theorem held_driveEach {cars : List Car} (h : ∀ car ∈ cars, '\n' ∉ car.model.toList)
    (sink : Sink) :
    ∃ tail, 0x0A ∉ tail ∧ (driveEach cars sink).value.2.held.toList =
      sink.held.toList ++ driveLog (delivered cars (driveEach cars sink).value.1) ++ tail := by
  induction cars generalizing sink with
  | nil =>
    refine ⟨[], List.not_mem_nil, ?_⟩
    show sink.held.toList = sink.held.toList ++ [] ++ []
    rw [List.append_nil, List.append_nil]
  | cons car rest ih =>
    obtain ⟨hcar, hrest⟩ := List.forall_mem_cons.mp h
    have hfilled := car.filled_driveTo sink
    by_cases hfits : sink.Fits car.lineBytes.length
    · obtain ⟨tail, htail, hheld⟩ := ih hrest (car.driveTo sink).value.2
      refine ⟨tail, htail, ?_⟩
      simp only [driveEach_cons, Car.driveTo_ok hfits, delivered_cons_ok, driveLog_cons]
      rw [hheld, hfilled.held, upTo_of_length_le hfits]
      simp only [List.append_assoc]
    · -- the cut line is the tail: nothing goes into a full sink
      obtain ⟨room, hroom, hlt⟩ := Sink.exists_room_lt hfits
      have hfull := hfilled.room_eq_zero hfits
      have hrun := filled_driveEach rest (car.driveTo sink).value.2
      refine ⟨car.lineBytes.take room, newline_not_mem_take hcar hlt, ?_⟩
      simp only [driveEach_cons, Car.driveTo_error hfits, delivered_cons_error,
        delivered_of_full hfull]
      rw [hrun.held, hfull, hfilled.held, hroom, upTo, upTo, List.take_zero, List.append_nil,
        driveLog_nil, List.append_nil]

section NewSink

variable {cars : List Car} (h : ∀ car ∈ cars, '\n' ∉ car.model.toList) (script : Script)
  (limit : Option Nat)
include h

theorem completeLines_held :
    completeLines (driveEach cars (.fresh script limit)).value.2.held.toList =
      driveLog (delivered cars (driveEach cars (.fresh script limit)).value.1) := by
  obtain ⟨tail, htail, hheld⟩ := held_driveEach h (.fresh script limit)
  rw [hheld, completeLines_append htail]
  exact completeLines_driveLog _

theorem count_newline_held :
    (driveEach cars (.fresh script limit)).value.2.held.toList.count 0x0A =
      (driveEach cars (.fresh script limit)).value.1.countP (·.isOk) := by
  obtain ⟨tail, htail, hheld⟩ := held_driveEach h (.fresh script limit)
  rw [hheld, List.count_append, List.count_eq_zero.mpr htail, Nat.add_zero,
    ← length_delivered (length_driveEach _ _)]
  exact count_newline_driveLog fun car hmem => h car (mem_of_mem_delivered hmem)

end NewSink

/-- For models without `'\n'`: `held` has one `0x0A` for each `.ok ()`, and `completeLines held` is
`driveLog` of the cars `delivered`, whose models can be told from it. -/
theorem completeLines_driveEach (script script' : Script) (limit limit' : Option Nat)
    (cars cars' : List Car) (h : ∀ car ∈ cars, '\n' ∉ car.model.toList)
    (h' : ∀ car ∈ cars', '\n' ∉ car.model.toList) :
    (driveEach cars (.fresh script limit)).value.2.held.toList.count 0x0A =
      (driveEach cars (.fresh script limit)).value.1.countP (·.isOk) ∧
    completeLines (driveEach cars (.fresh script limit)).value.2.held.toList =
      driveLog (delivered cars (driveEach cars (.fresh script limit)).value.1) ∧
    (completeLines (driveEach cars (.fresh script limit)).value.2.held.toList =
        completeLines (driveEach cars' (.fresh script' limit')).value.2.held.toList →
      (delivered cars (driveEach cars (.fresh script limit)).value.1).map Car.model =
        (delivered cars' (driveEach cars' (.fresh script' limit')).value.1).map Car.model) := by
  have hlines := completeLines_held h script limit
  refine ⟨count_newline_held h script limit, hlines, ?_⟩
  intro heq
  rw [hlines, completeLines_held h' script' limit'] at heq
  refine models_eq_of_driveLog_eq ?_ ?_ heq
  · exact fun car hmem => h car (mem_of_mem_delivered hmem)
  · exact fun car hmem => h' car (mem_of_mem_delivered hmem)

/-- A sink that cuts the line of `"Beta"`, beside one that was given `"Alpha"` only. -/
theorem completeLines_driveEach_cut :
    ∃ script, Script.ofParts? (some 7) 3 .takeNothing = some script ∧
      (∀ car ∈ [Car.ofModel "Alpha", Car.ofModel "Beta"], '\n' ∉ car.model.toList) ∧
      (∀ car ∈ [Car.ofModel "Alpha"], '\n' ∉ car.model.toList) ∧
      (delivered [Car.ofModel "Alpha", Car.ofModel "Beta"]
          (driveEach [Car.ofModel "Alpha", Car.ofModel "Beta"]
            (.fresh script (some 50))).value.1).map Car.model =
        (delivered [Car.ofModel "Alpha"]
          (driveEach [Car.ofModel "Alpha"] (.fresh script none)).value.1).map Car.model := by
  have hcars : ∀ car ∈ [Car.ofModel "Alpha", Car.ofModel "Beta"], '\n' ∉ car.model.toList := by
    decide
  have hcars' : ∀ car ∈ [Car.ofModel "Alpha"], '\n' ∉ car.model.toList := by decide
  refine ⟨_, rfl, hcars, hcars', ?_⟩
  refine (completeLines_driveEach _ _ _ _ _ _ hcars hcars').2.2 ?_
  decide +kernel

end Garage
