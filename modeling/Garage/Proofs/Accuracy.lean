import Garage.Proofs.Rounding

/-!
# Accuracy

How far results that were rounded on the way lie from the exact ones.

* `Close`: one number is off another by a part of it at most. Errors of operations done one after
  the other add up (`Close.trans`).
* `InRange`, `close_round`: where 53 bits can be had, a rounding is off by one part in `2 ^ 53 + 1`.
* `Moderate`: how far the magnitude of a number is from one. It is known of products, quotients and
  roundings from that of their parts, and a moderate number is in range (`Moderate.inRange`).
-/

namespace Garage.Binary64

/-- `y` is off `x` by the part `ε` of `x` at most. -/
def Close (ε x y : Rat) : Prop := |y - x| ≤ ε * |x|

namespace Close

variable {ε δ x y z : Rat}

theorem mono (h : Close ε x y) (hle : ε ≤ δ) : Close δ x y :=
  h.trans (mul_le_mul_of_nonneg_right hle (abs_nonneg x))

theorem neg (h : Close ε x y) : Close ε (-x) (-y) := by
  unfold Close at h ⊢
  rwa [neg_sub_neg, abs_sub_comm, abs_neg]

theorem mul_right (h : Close ε x y) (a : Rat) : Close ε (x * a) (y * a) := by
  unfold Close at h ⊢
  rw [← sub_mul, abs_mul, abs_mul, ← mul_assoc]
  exact mul_le_mul_of_nonneg_right h (abs_nonneg a)

theorem mul_left (h : Close ε x y) (a : Rat) : Close ε (a * x) (a * y) := by
  rw [mul_comm a, mul_comm a]
  exact h.mul_right a

theorem abs_le (h : Close ε x y) : |y| ≤ (1 + ε) * |x| := by
  have htri := abs_sub_abs_le_abs_sub y x
  unfold Close at h
  linarith

theorem le_abs (h : Close ε x y) : (1 - ε) * |x| ≤ |y| := by
  have htri := abs_sub_abs_le_abs_sub x y
  rw [abs_sub_comm] at htri
  unfold Close at h
  linarith

theorem trans (h : Close ε x y) (h' : Close δ y z) (hδ : 0 ≤ δ) :
    Close (ε + δ + ε * δ) x z := by
  have hy := mul_le_mul_of_nonneg_left h.abs_le hδ
  have htri := abs_sub_le z y x
  unfold Close at h h' ⊢
  linarith

end Close

/-! ## One rounding -/

/-- The part of a number by which its rounding is off at most. -/
def roundoff : Rat := 1 / (2 ^ 53 + 1)

theorem roundoff_nonneg : 0 ≤ roundoff := by
  norm_num [roundoff]

theorem roundoff_le_half : roundoff ≤ 1 / 2 := by
  norm_num [roundoff]

/-- The bound is better than `2 ^ -53`, since a `t` just above `2 ^ 52` is off by less than `1 / 2`.
-/
theorem NearestNat.close {t : Rat} {q : Nat} (h : NearestNat t q) (ht : 2 ^ 52 ≤ t) :
    Close roundoff t q := by
  have hhalf := h.le_half
  have htpos : 0 ≤ t := by linarith
  unfold Close roundoff
  rw [abs_of_nonneg htpos, one_div_mul_eq_div, le_div_iff₀ (by norm_num)]
  by_cases hleast : t < 2 ^ 52 + 1 / 2
  · obtain ⟨hhigh, hlow⟩ := abs_sub_le_iff.mp hhalf
    have hq_lt : q < 2 ^ 52 + 1 := by
      have : (q : Rat) < 2 ^ 52 + 1 := by linarith
      exact_mod_cast this
    have hq_gt : 2 ^ 52 < q + 1 := by
      have : (2 ^ 52 : Rat) < q + 1 := by linarith
      exact_mod_cast this
    have hq : q = 2 ^ 52 := by omega
    rw [hq, abs_sub_comm, Nat.cast_pow, Nat.cast_two, abs_of_nonneg (by linarith)]
    linarith
  · linarith

/-- Zero, and the magnitudes at which 53 bits can be had and no operation overflows. -/
def InRange (x : Rat) : Prop :=
  x = 0 ∨ 2 ^ (-1022 : Int) ≤ |x| ∧ |x| ≤ 2 ^ (1023 : Int)

theorem close_round_of_pos {x : Rat} (hx : 0 < x) (hleast : 2 ^ (-1022 : Int) ≤ x) :
    Close roundoff x (round x) := by
  obtain ⟨e, q, -, -, hlow, hnearest, hround⟩ := round_cases hx
  have hpow : (0 : Rat) < 2 ^ e := by positivity
  have hlow' : 2 ^ (52 + e) ≤ x := by
    rcases hlow with rfl | hlow
    · exact hleast
    · exact hlow
  have ht : 2 ^ 52 ≤ x / 2 ^ e := by
    rw [zpow_add₀ two_ne_zero] at hlow'
    rw [le_div_iff₀ hpow]
    exact_mod_cast hlow'
  have hclose := (hnearest.close ht).mul_right (2 ^ e)
  rwa [div_mul_cancel₀ _ hpow.ne', ← hround] at hclose

theorem close_round {x : Rat} (h : InRange x) : Close roundoff x (round x) := by
  rcases h with rfl | ⟨hleast, -⟩
  · rw [round_zero, Close, sub_self, abs_zero, mul_zero]
  have hne : x ≠ 0 := by
    rintro rfl
    rw [abs_zero] at hleast
    exact absurd hleast (not_le.mpr (by positivity))
  rcases lt_or_gt_of_ne hne with hneg | hpos
  · rw [abs_of_neg hneg] at hleast
    have hclose := (close_round_of_pos (neg_pos.mpr hneg) hleast).neg
    rwa [round_neg, neg_neg, neg_neg] at hclose
  · rw [abs_of_pos hpos] at hleast
    exact close_round_of_pos hpos hleast

/-! ## Magnitudes -/

/-- Zero, or between `2 ^ -n` and `2 ^ n` but for the sign. -/
def Moderate (n : Nat) (x : Rat) : Prop :=
  x = 0 ∨ (2 ^ n)⁻¹ ≤ |x| ∧ |x| ≤ 2 ^ n

namespace Moderate

variable {m n : Nat} {x y : Rat}

theorem mul (hx : Moderate m x) (hy : Moderate n y) : Moderate (m + n) (x * y) := by
  rcases hx with rfl | ⟨hxlow, hxhigh⟩
  · exact .inl (zero_mul y)
  rcases hy with rfl | ⟨hylow, hyhigh⟩
  · exact .inl (mul_zero x)
  right
  rw [abs_mul, pow_add, mul_inv]
  constructor <;> gcongr

theorem inv (hx : Moderate n x) : Moderate n x⁻¹ := by
  rcases hx with rfl | ⟨hlow, hhigh⟩
  · exact .inl inv_zero
  have hpos : (0 : Rat) < (2 ^ n)⁻¹ := by positivity
  right
  rw [abs_inv]
  exact ⟨inv_anti₀ (hpos.trans_le hlow) hhigh, inv_le_of_inv_le₀ (by positivity) hlow⟩

theorem div (hx : Moderate m x) (hy : Moderate n y) : Moderate (m + n) (x / y) := by
  rw [div_eq_mul_inv]
  exact hx.mul hy.inv

theorem inRange (h : Moderate n x) (hn : n ≤ 1022) : InRange x := by
  refine h.imp_right fun ⟨hlow, hhigh⟩ => ?_
  rw [← zpow_natCast] at hlow hhigh
  rw [← zpow_neg] at hlow
  constructor
  · exact (zpow_le_zpow_right₀ one_le_two (by omega)).trans hlow
  · exact hhigh.trans (zpow_le_zpow_right₀ one_le_two (by omega))

theorem round (h : Moderate n x) (hn : n ≤ 1022) : Moderate (n + 1) (round x) := by
  have hclose := (close_round (h.inRange hn)).mono roundoff_le_half
  have hle := hclose.abs_le
  have hge := hclose.le_abs
  rcases h with rfl | ⟨hlow, hhigh⟩
  · exact .inl round_zero
  right
  rw [pow_succ, mul_inv]
  constructor <;> linarith

end Moderate

end Garage.Binary64
