import Garage.Power
import Garage.Proofs.Accuracy

/-!
# Power readings

A reading is what two or three roundings leave of an exact product and quotient. It is so close to
the exact reading that ratings can be told apart by it, and told from it.

* `Engine.exactValues`: all that is rounded on the way to a reading. It is always in range
  (`Engine.inRange_exactValues`).
* `Engine.close_power`, `Engine.close_reading`: the stored power and its readings, next to the exact
  ones.
* `lt_of_close`: what is closer to the multiples of a step than they are to each other keeps their
  order.
-/

namespace Garage

open Binary64 (Close InRange IsRounding Moderate roundoff close_round isRounding_round
  roundoff_le_half roundoff_nonneg)

/-! ## The table of units -/

namespace PowerUnit

variable (u : PowerUnit)

theorem decimalWatts_pos : 0 < u.decimalWatts := by
  cases u <;> norm_num [decimalWatts, Rat.mkRat_eq_div]

theorem moderate_decimalWatts : Moderate 30 u.decimalWatts := by
  right
  rw [abs_of_pos u.decimalWatts_pos]
  cases u <;> norm_num [decimalWatts, Rat.mkRat_eq_div]

theorem inRange_decimalWatts : InRange u.decimalWatts :=
  u.moderate_decimalWatts.inRange (by decide)

theorem close_watts : Close roundoff u.decimalWatts u.watts :=
  close_round u.inRange_decimalWatts

theorem moderate_watts : Moderate 31 u.watts :=
  u.moderate_decimalWatts.round (by decide)

theorem inRange_inv_watts : InRange u.watts⁻¹ :=
  u.moderate_watts.inv.inRange (by decide)

theorem watts_pos : 0 < u.watts := by
  have hpos := u.decimalWatts_pos
  have hclose := u.close_watts.mono roundoff_le_half
  rw [Close, abs_of_pos hpos, abs_sub_le_iff] at hclose
  linarith

theorem one_le_watts_horsepower : 1 ≤ horsepower.watts := by
  have hclose := horsepower.close_watts.mono roundoff_le_half
  have hdecimal : horsepower.decimalWatts = 7456999 / 10000 := by
    norm_num [decimalWatts, Rat.mkRat_eq_div]
  rw [Close, abs_of_pos horsepower.decimalWatts_pos, abs_sub_le_iff, hdecimal] at hclose
  linarith

end PowerUnit

/-! ## Readings -/

theorem abs_sub_lt_abs_sub_of_ne {y : Rat} {m n : Int} (hne : m ≠ n) (h : |y - m| < 1 / 2) :
    |y - m| < |y - n| := by
  have hapart := Binary64.one_le_abs_sub_add_abs_sub y hne
  rw [abs_sub_comm (m : Rat), abs_sub_comm (n : Rat)] at hapart
  linarith

namespace Engine

variable (engine : Engine) (u : PowerUnit)

/-- The power of an engine before it is rounded. -/
def exactWatts : Rat :=
  engine.horsepower.toInt * PowerUnit.horsepower.watts

/-- What is rounded on the way from a rating to a reading: two numbers of the table, the power, and
the operations of the reading. -/
def exactValues : List Rat :=
  [PowerUnit.horsepower.decimalWatts, u.decimalWatts, engine.exactWatts] ++
    if 1 ≤ u.watts then [engine.power.watts / u.watts]
    else [1 / u.watts, engine.power.watts * Binary64.round (1 / u.watts)]

theorem abs_toInt_le : |(engine.horsepower.toInt : Rat)| ≤ 2 ^ 31 := by
  have hlow := engine.horsepower.le_toInt
  have hhigh := engine.horsepower.toInt_lt
  rw [abs_le]
  constructor
  · exact_mod_cast hlow
  · exact_mod_cast hhigh.le

theorem moderate_toInt : Moderate 31 (engine.horsepower.toInt : Rat) := by
  by_cases h : engine.horsepower.toInt = 0
  · left
    rw [h, Int.cast_zero]
  · right
    have hone : (1 : Rat) ≤ |(engine.horsepower.toInt : Rat)| := by
      exact_mod_cast Int.one_le_abs h
    refine ⟨le_trans (inv_le_one_of_one_le₀ ?_) hone, engine.abs_toInt_le⟩
    exact one_le_pow₀ one_le_two

theorem moderate_exactWatts : Moderate 62 engine.exactWatts :=
  engine.moderate_toInt.mul PowerUnit.horsepower.moderate_watts

theorem moderate_power : Moderate 63 engine.power.watts :=
  engine.moderate_exactWatts.round (by decide)

theorem inRange_exactWatts : InRange engine.exactWatts :=
  engine.moderate_exactWatts.inRange (by decide)

theorem inRange_quotient : InRange (engine.power.watts / u.watts) :=
  (engine.moderate_power.div u.moderate_watts).inRange (by decide)

theorem inRange_product : InRange (engine.power.watts * Binary64.round u.watts⁻¹) :=
  (engine.moderate_power.mul (u.moderate_watts.inv.round (by decide))).inRange (by decide)

theorem inRange_exactValues : ∀ x ∈ engine.exactValues u, InRange x := by
  unfold exactValues
  intro x hx
  rcases List.mem_append.mp hx with hx | hx
  · simp only [List.mem_cons, List.not_mem_nil, or_false] at hx
    rcases hx with rfl | rfl | rfl
    · exact PowerUnit.horsepower.inRange_decimalWatts
    · exact u.inRange_decimalWatts
    · exact engine.inRange_exactWatts
  · split at hx
    · obtain rfl := List.mem_singleton.mp hx
      exact engine.inRange_quotient u
    · simp only [List.mem_cons, List.not_mem_nil, or_false, one_div] at hx
      rcases hx with rfl | rfl
      · exact u.inRange_inv_watts
      · exact engine.inRange_product u

theorem close_power : Close roundoff engine.exactWatts engine.power.watts :=
  close_round engine.inRange_exactWatts

theorem close_reading_of_one_le (h : 1 ≤ u.watts) :
    Close (2 ^ (-52 : Int)) (engine.exactWatts / u.watts) (engine.power.reading u) := by
  have hpower := engine.close_power.mul_right u.watts⁻¹
  have hquotient := close_round (engine.inRange_quotient u)
  rw [← div_eq_mul_inv, ← div_eq_mul_inv] at hpower
  rw [Power.reading, if_pos h]
  refine (hpower.trans hquotient roundoff_nonneg).mono ?_
  norm_num [roundoff]

theorem close_reading_of_lt_one (h : ¬ 1 ≤ u.watts) :
    Close (2 ^ (-51 : Int)) (engine.exactWatts / u.watts) (engine.power.reading u) := by
  have hpower := engine.close_power.mul_right u.watts⁻¹
  have hreciprocal := (close_round u.inRange_inv_watts).mul_left engine.power.watts
  have hproduct := close_round (engine.inRange_product u)
  rw [Power.reading, if_neg h, one_div, div_eq_mul_inv]
  have hall := (hpower.trans hreciprocal roundoff_nonneg).trans hproduct roundoff_nonneg
  refine hall.mono ?_
  norm_num [roundoff]

theorem close_reading :
    Close (2 ^ (-51 : Int)) (engine.exactWatts / u.watts) (engine.power.reading u) := by
  by_cases h : 1 ≤ u.watts
  · exact (engine.close_reading_of_one_le u h).mono (zpow_le_zpow_right₀ one_le_two (by decide))
  · exact engine.close_reading_of_lt_one u h

/-- The reading in horsepower is off by `2 ^ -52` of the rating at most and has it for its nearest
integer, and a reading in any unit is off by `2 ^ -51` of the exact value at most. All that
`Binary64.round` is applied to is `InRange`, and it satisfies `IsRounding` there. -/
theorem reading_accurate :
    |engine.power.reading .horsepower - engine.horsepower.toInt| ≤
        |(engine.horsepower.toInt : Rat)| * 2 ^ (-52 : Int) ∧
    (∀ n : Int, n ≠ engine.horsepower.toInt →
      |engine.power.reading .horsepower - engine.horsepower.toInt| <
        |engine.power.reading .horsepower - n|) ∧
    (∀ u : PowerUnit,
      |engine.power.reading u - engine.horsepower.toInt * PowerUnit.horsepower.watts / u.watts| ≤
        |engine.horsepower.toInt * PowerUnit.horsepower.watts / u.watts| * 2 ^ (-51 : Int)) ∧
    ∀ u, ∀ x ∈ engine.exactValues u, InRange x ∧ IsRounding x (Binary64.round x) := by
  have hhorsepower := engine.close_reading_of_one_le _ PowerUnit.one_le_watts_horsepower
  rw [exactWatts, mul_div_cancel_right₀ _ PowerUnit.horsepower.watts_pos.ne', Close, mul_comm]
    at hhorsepower
  refine ⟨hhorsepower, ?_, ?_, ?_⟩
  · intro n hne
    apply abs_sub_lt_abs_sub_of_ne hne.symm
    calc _ ≤ |(engine.horsepower.toInt : Rat)| * 2 ^ (-52 : Int) := hhorsepower
      _ ≤ 2 ^ 31 * 2 ^ (-52 : Int) := by gcongr; exact engine.abs_toInt_le
      _ < 1 / 2 := by norm_num
  · intro u
    have hreading := engine.close_reading u
    rwa [exactWatts, Close, mul_comm (2 ^ (-51 : Int))] at hreading
  · intro u x hx
    exact ⟨engine.inRange_exactValues u x hx, isRounding_round x⟩

/-- A reading is not always the rating itself. -/
example : (Engine.mk 7).power.reading .horsepower ≠ 7 := by decide +kernel

end Engine

/-! ## Order and sign -/

theorem lt_of_close {ε step y z : Rat} {a b : Int} (hstep : 0 < step) (hab : a < b)
    (ha : Close ε (a * step) y) (hb : Close ε (b * step) z)
    (hε : ε * (|(a : Rat)| + |(b : Rat)|) < 1) : y < z := by
  rw [Close, abs_mul, abs_of_pos hstep, abs_sub_le_iff] at ha hb
  have hgap : (a : Rat) + 1 ≤ b := by exact_mod_cast hab
  have hsteps := mul_le_mul_of_nonneg_right hgap hstep.le
  have herrors := mul_lt_mul_of_pos_right hε hstep
  linarith

namespace Engine

variable {a b : Engine}

theorem errors_lt_one {ε : Rat} (hε : ε ≤ 2 ^ (-51 : Int)) :
    ε * (|(a.horsepower.toInt : Rat)| + |(b.horsepower.toInt : Rat)|) < 1 := by
  calc _ ≤ 2 ^ (-51 : Int) * ((2 : Rat) ^ 31 + 2 ^ 31) := by
        gcongr
        · exact a.abs_toInt_le
        · exact b.abs_toInt_le
    _ < 1 := by norm_num

section

variable (h : a.horsepower < b.horsepower)
include h

theorem power_lt : a.power.watts < b.power.watts := by
  refine lt_of_close PowerUnit.horsepower.watts_pos (Int32.lt_iff_toInt_lt.mp h) a.close_power
    b.close_power (errors_lt_one ?_)
  norm_num [roundoff]

theorem reading_lt (u : PowerUnit) : a.power.reading u < b.power.reading u := by
  have ha := a.close_reading u
  have hb := b.close_reading u
  rw [exactWatts, mul_div_assoc] at ha hb
  exact lt_of_close (div_pos PowerUnit.horsepower.watts_pos u.watts_pos)
    (Int32.lt_iff_toInt_lt.mp h) ha hb (errors_lt_one le_rfl)

end

theorem power_injective (h : a.power = b.power) : a = b := by
  have hwatts := congrArg Power.watts h
  have hless : ¬ a.horsepower.toInt < b.horsepower.toInt :=
    fun hlt => (power_lt (Int32.lt_iff_toInt_lt.mpr hlt)).ne hwatts
  have hmore : ¬ b.horsepower.toInt < a.horsepower.toInt :=
    fun hlt => (power_lt (Int32.lt_iff_toInt_lt.mpr hlt)).ne hwatts.symm
  have hrating : a.horsepower.toInt = b.horsepower.toInt := by omega
  cases a
  cases b
  exact congrArg Engine.mk (Int32.toInt_inj.mp hrating)

theorem power_neg {h : Int32} (hne : h ≠ Int32.minValue) :
    (Engine.mk (-h)).power.watts = -(Engine.mk h).power.watts := by
  have hmin : h.toInt ≠ -2 ^ 31 := by
    rw [← Int32.toInt_minValue]
    exact mt Int32.toInt_inj.mp hne
  have hlow := h.le_toInt
  have hhigh := h.toInt_lt
  have hneg : (-h).toInt = -h.toInt := by
    rw [Int32.toInt_neg]
    exact Int.bmod_eq_of_le (by omega) (by omega)
  simp only [power, hneg, Int.cast_neg, neg_mul, Binary64.round_neg]

end Engine

namespace Power

theorem reading_neg {power other : Power} (h : other.watts = -power.watts) (u : PowerUnit) :
    other.reading u = -power.reading u := by
  unfold reading
  rw [h, neg_div, neg_mul, Binary64.round_neg, Binary64.round_neg]
  split <;> rfl

theorem reading_zero {power : Power} (h : power.watts = 0) (u : PowerUnit) :
    power.reading u = 0 := by
  unfold reading
  rw [h, zero_div, zero_mul, Binary64.round_zero, ite_self]

end Power

/-- The power and each of its readings are strictly monotone in the rating, odd except at
`Int32.minValue`, and zero at zero. -/
theorem Engine.reading_ordered :
    (∀ a b : Engine, a.horsepower < b.horsepower →
      a.power.watts < b.power.watts ∧ ∀ u, a.power.reading u < b.power.reading u) ∧
    (∀ a b : Engine, a.power = b.power → a = b) ∧
    (∀ h : Int32, h ≠ Int32.minValue →
      (Engine.mk (-h)).power.watts = -(Engine.mk h).power.watts ∧
        ∀ u, (Engine.mk (-h)).power.reading u = -(Engine.mk h).power.reading u) ∧
    (Engine.mk 0).power.watts = 0 ∧ ∀ u, (Engine.mk 0).power.reading u = 0 := by
  have hzero : (Engine.mk 0).power.watts = 0 := by
    simp [power, Binary64.round_zero]
  refine ⟨?_, ?_, ?_, hzero, Power.reading_zero hzero⟩
  · intro a b h
    exact ⟨power_lt h, reading_lt h⟩
  · intro a b h
    exact power_injective h
  · intro h hne
    exact ⟨power_neg hne, Power.reading_neg (power_neg hne)⟩

end Garage
