import Mathlib.Algebra.Order.Field.Basic
import Mathlib.Algebra.Order.Field.Power
import Mathlib.Algebra.Order.Field.Rat
import Mathlib.Algebra.Ring.Parity
import Mathlib.Data.Rat.Lemmas
import Mathlib.Tactic.GCongr
import Mathlib.Tactic.LinearCombination
import Mathlib.Tactic.Linarith
import Mathlib.Tactic.Ring
import Garage.Binary64

/-!
# Rounding

What `Binary64.round` does with an exact rational: it gives the nearest number of double precision,
and of two that are equally near the even one. Other proofs reach the definition through
`round_cases`, `round_zero` and `round_neg`.

* `NearestNat`: a whole number next to a rational, as a rounded quotient is to its fraction
  (`nearestNat_roundDiv`).
* `round_cases`: a positive rational is cut to 53 bits, or at the place of the least number, and
  rounded to a whole number there.
* `IsNumber`, `IsRounding`: the numbers of double precision, and the nearest of them, said without
  the algorithm. `isRounding_round` is the law of rounding.
-/

namespace Garage.Binary64

/-! ## Whole numbers -/

/-- A whole number nearest to a rational, and the even one if there are two. -/
structure NearestNat (t : Rat) (q : Nat) : Prop where
  le_half : |q - t| ≤ 1 / 2
  even_of_half : |q - t| = 1 / 2 → Even q

theorem one_le_abs_sub_add_abs_sub (t : Rat) {m n : Int} (hne : m ≠ n) :
    1 ≤ |m - t| + |n - t| := by
  have hgap : 1 ≤ |(m : Rat) - n| := by
    exact_mod_cast Int.one_le_abs (sub_ne_zero.mpr hne)
  have htri := abs_sub_le (m : Rat) t n
  rw [abs_sub_comm t] at htri
  linarith

theorem roundDiv_cases (n : Nat) {d : Nat} (hd : 0 < d) :
    2 * n ≤ 2 * (roundDiv n d * d) + d ∧ 2 * (roundDiv n d * d) ≤ 2 * n + d ∧
      (roundDiv n d % 2 = 0 ∨
        2 * n < 2 * (roundDiv n d * d) + d ∧ 2 * (roundDiv n d * d) < 2 * n + d) := by
  have hn := Nat.div_add_mod' n d
  have hr := Nat.mod_lt n hd
  unfold roundDiv
  generalize n / d = q at hn ⊢
  generalize n % d = r at hn hr ⊢
  simp only
  split
  · omega
  split
  · rw [Nat.add_mul]
    omega
  · rcases Nat.mod_two_eq_zero_or_one q with h | h <;> rw [h, Nat.add_mul] <;> omega

theorem nearestNat_roundDiv (n : Nat) {d : Nat} (hd : 0 < d) :
    NearestNat (n / d) (roundDiv n d) := by
  have hd' : (0 : Rat) < d := Nat.cast_pos.mpr hd
  obtain ⟨hlow, hhigh, heven⟩ := roundDiv_cases n hd
  generalize roundDiv n d = q at hlow hhigh heven ⊢
  constructor
  · have hlow' : (2 * n : Rat) ≤ 2 * (q * d) + d := by exact_mod_cast hlow
    have hhigh' : (2 * (q * d) : Rat) ≤ 2 * n + d := by exact_mod_cast hhigh
    rw [abs_sub_le_iff, sub_le_comm, le_div_iff₀ hd', sub_le_iff_le_add, div_le_iff₀ hd']
    constructor <;> linarith
  · intro htie
    rcases heven with heven | ⟨hlow, hhigh⟩
    · exact Nat.even_iff.mpr heven
    · -- less than a half off is no tie
      have hlow' : (2 * n : Rat) < 2 * (q * d) + d := by exact_mod_cast hlow
      have hhigh' : (2 * (q * d) : Rat) < 2 * n + d := by exact_mod_cast hhigh
      refine absurd htie (ne_of_lt ?_)
      rw [abs_sub_lt_iff, sub_lt_comm, lt_div_iff₀ hd', sub_lt_iff_lt_add, div_lt_iff₀ hd']
      constructor <;> linarith

/-! ## Binades -/

theorem excessBits_bounds (units : Nat) :
    units < 2 ^ (53 + excessBits units) ∧
    (excessBits units = 0 ∨ 2 ^ (52 + excessBits units) ≤ units) := by
  unfold excessBits
  constructor
  · have h := Nat.lt_log2_self (n := units)
    exact lt_of_lt_of_le h (Nat.pow_le_pow_right (by decide) (by omega))
  · by_cases h : units.log2 ≤ 52
    · left
      omega
    · right
      have hne : units ≠ 0 := by
        rintro rfl
        simp at h
      have hlog := Nat.log2_self_le hne
      rwa [show 52 + (units.log2 - 52) = units.log2 by omega]

/-- `k` is the number of bits that are dropped. -/
theorem roundUnits_cases (n : Nat) {d : Nat} (hd : 0 < d) :
    ∃ k q : Nat, ((n <<< onePlace : Nat) : Rat) / d < 2 ^ (53 + k) ∧
      (k = 0 ∨ 2 ^ (52 + k) ≤ ((n <<< onePlace : Nat) : Rat) / d) ∧
      NearestNat (((n <<< onePlace : Nat) : Rat) / d / 2 ^ k) q ∧ roundUnits n d = q * 2 ^ k := by
  have hd' : (0 : Rat) < d := Nat.cast_pos.mpr hd
  let units := (n <<< onePlace) / d
  obtain ⟨hhigh, hlow⟩ := excessBits_bounds units
  refine ⟨excessBits units, roundDiv (n <<< onePlace) (d <<< excessBits units), ?_, ?_, ?_, ?_⟩
  · rw [div_lt_iff₀ hd']
    exact_mod_cast (Nat.div_lt_iff_lt_mul hd).mp hhigh
  · refine hlow.imp_right fun h => ?_
    rw [le_div_iff₀ hd']
    exact_mod_cast (Nat.le_div_iff_mul_le hd).mp h
  · have hpos : 0 < d <<< excessBits units := by
      rw [Nat.shiftLeft_eq]
      positivity
    have hnearest := nearestNat_roundDiv (n <<< onePlace) hpos
    rw [Nat.shiftLeft_eq d, Nat.cast_mul, Nat.cast_pow, Nat.cast_two, ← div_div] at hnearest
    rw [Nat.shiftLeft_eq d]
    exact hnearest
  · rw [roundUnits, Nat.shiftLeft_eq _ (excessBits _)]

theorem unitsPerOne_eq : unitsPerOne = 2 ^ onePlace := by
  rw [unitsPerOne, Nat.shiftLeft_eq, one_mul]

theorem round_of_pos {x : Rat} (hx : 0 < x) :
    round x = roundUnits x.num.natAbs x.den / 2 ^ onePlace := by
  rw [round, Int.sign_eq_one_of_pos (Rat.num_pos.mpr hx), one_mul, Rat.mkRat_eq_div,
    unitsPerOne_eq, Int.cast_natCast, Nat.cast_pow, Nat.cast_two]

/-- `e` is the exponent of the last of the 53 bits of `x`, or `-1074` if that is larger. -/
theorem round_cases {x : Rat} (hx : 0 < x) :
    ∃ (e : Int) (q : Nat), -1074 ≤ e ∧ x < 2 ^ (53 + e) ∧ (e = -1074 ∨ 2 ^ (52 + e) ≤ x) ∧
      NearestNat (x / 2 ^ e) q ∧ round x = q * 2 ^ e := by
  have hone : (0 : Rat) < 2 ^ onePlace := by positivity
  have hplace : (onePlace : Int) = 1074 := rfl
  have hpow (i : Int) : (2 : Rat) ^ (i - onePlace) = 2 ^ i / 2 ^ onePlace := by
    rw [zpow_sub₀ two_ne_zero, zpow_natCast]
  have hscaled : ((x.num.natAbs <<< onePlace : Nat) : Rat) / x.den = x * 2 ^ onePlace := by
    have hx' : (x.num.natAbs : Rat) / x.den = x := by
      rw [Nat.cast_natAbs, abs_of_pos (Rat.num_pos.mpr hx), Rat.num_div_den]
    rw [Nat.shiftLeft_eq, Nat.cast_mul, Nat.cast_pow, Nat.cast_two, mul_div_right_comm, hx']
  obtain ⟨k, q, hhigh, hlow, hnearest, hround⟩ := roundUnits_cases x.num.natAbs x.den_pos
  rw [hscaled] at hhigh hlow hnearest
  refine ⟨(k : Int) - onePlace, q, by omega, ?_, ?_, ?_, ?_⟩
  · rw [← add_sub_assoc, hpow, lt_div_iff₀ hone]
    exact_mod_cast hhigh
  · refine hlow.imp (by omega) fun hlow => ?_
    rw [← add_sub_assoc, hpow, div_le_iff₀ hone]
    exact_mod_cast hlow
  · rwa [hpow, zpow_natCast, ← div_mul, div_mul_eq_mul_div]
  · rw [round_of_pos hx, hround, hpow, zpow_natCast, Nat.cast_mul, Nat.cast_pow, Nat.cast_two,
      mul_div_assoc]

theorem round_zero : round 0 = 0 := by
  simp [round]

theorem round_neg (x : Rat) : round (-x) = -round x := by
  rw [round, round, Rat.neg_num, Rat.neg_den, Int.sign_neg, Int.natAbs_neg, Rat.mkRat_eq_div,
    Rat.mkRat_eq_div, ← neg_div, ← Int.cast_neg, neg_mul]

/-! ## Nearest numbers -/

/-- A number of double precision: a whole number of 53 bits at most, moved to some place, which is
not below that of the least number. -/
def IsNumber (y : Rat) : Prop :=
  ∃ m e : Int, |m| < 2 ^ 53 ∧ -1074 ≤ e ∧ y = m * 2 ^ e

/-- `y` is the number nearest to `x`, and if another one is as near, `y` is an even multiple of the
gap between the two. -/
structure IsRounding (x y : Rat) : Prop where
  isNumber : IsNumber y
  nearest : ∀ z, IsNumber z → |y - x| ≤ |z - x|
  even : ∀ z, IsNumber z → z ≠ y → |z - x| = |y - x| → ∃ m : Int, Even m ∧ y = m * (z - y)

theorem IsNumber.neg {y : Rat} (h : IsNumber y) : IsNumber (-y) := by
  obtain ⟨m, e, hm, he, rfl⟩ := h
  exact ⟨-m, e, by rwa [abs_neg], he, by rw [Int.cast_neg, neg_mul]⟩

theorem IsRounding.neg {x y : Rat} (h : IsRounding x y) : IsRounding (-x) (-y) := by
  have hdist (z : Rat) : |z - -x| = |-z - x| := by
    rw [← abs_neg (-z - x)]
    congr 1
    ring
  constructor
  · exact h.isNumber.neg
  · intro z hz
    rw [hdist, hdist, neg_neg]
    exact h.nearest _ hz.neg
  · intro z hz hne htie
    rw [hdist, hdist, neg_neg] at htie
    obtain ⟨m, hm, hy⟩ := h.even _ hz.neg (fun heq => hne (by rw [← heq, neg_neg])) htie
    refine ⟨m, hm, ?_⟩
    conv_lhs => rw [hy]
    ring

theorem IsNumber.multiple_or_lt {z : Rat} (h : IsNumber z) {e : Int} (he : -1074 ≤ e) :
    (∃ m : Int, z = m * 2 ^ e) ∨ -1074 < e ∧ |z| < 2 ^ (52 + e) := by
  obtain ⟨m, j, hm, hj, rfl⟩ := h
  by_cases hle : e ≤ j
  · left
    refine ⟨m * 2 ^ (j - e).toNat, ?_⟩
    have hexp : ((j - e).toNat : Int) + e = j := by omega
    rw [Int.cast_mul, Int.cast_pow, Int.cast_two, mul_assoc, ← zpow_natCast,
      ← zpow_add₀ two_ne_zero, hexp]
  · right
    refine ⟨by omega, ?_⟩
    have hm' : |(m : Rat)| < 2 ^ (53 : Int) := by exact_mod_cast hm
    have hpow : (0 : Rat) < 2 ^ j := by positivity
    calc |(m * 2 ^ j : Rat)| = |(m : Rat)| * 2 ^ j := by rw [abs_mul, abs_of_pos hpow]
      _ < 2 ^ (53 : Int) * 2 ^ j := by gcongr
      _ = 2 ^ (53 + j) := (zpow_add₀ two_ne_zero _ _).symm
      _ ≤ 2 ^ (52 + e) := zpow_le_zpow_right₀ one_le_two (by omega)

theorem abs_mul_zpow_sub (r x : Rat) (e : Int) : |r * 2 ^ e - x| = |r - x / 2 ^ e| * 2 ^ e := by
  have hpow : (0 : Rat) < 2 ^ e := by positivity
  rw [← abs_of_pos hpow, ← abs_mul, abs_of_pos hpow, sub_mul, div_mul_cancel₀ _ hpow.ne']

theorem isNumber_of_le {q : Nat} {e : Int} (hq : q ≤ 2 ^ 53) (he : -1074 ≤ e) :
    IsNumber (q * 2 ^ e) := by
  rcases Nat.lt_or_eq_of_le hq with hlt | rfl
  · refine ⟨q, e, ?_, he, by rw [Int.cast_natCast]⟩
    rw [Nat.abs_cast]
    exact_mod_cast hlt
  · -- one bit more, and the last one is zero
    refine ⟨2 ^ 52, e + 1, by decide, by omega, ?_⟩
    rw [zpow_add_one₀ two_ne_zero]
    push_cast
    ring

namespace NearestNat

variable {t : Rat} {q : Nat}

theorem abs_sub_le_abs (h : NearestNat t q) (m : Int) : |q - t| ≤ |m - t| := by
  have hhalf := h.le_half
  by_cases hm : m = q
  · rw [hm, Int.cast_natCast]
  · have hapart := one_le_abs_sub_add_abs_sub t hm
    rw [Int.cast_natCast] at hapart
    linarith

theorem even_of_tie (h : NearestNat t q) {m : Int} (hne : m ≠ q)
    (htie : |(m : Rat) - t| = |q - t|) : Even q ∧ |(m : Rat) - q| = 1 := by
  have hhalf := h.le_half
  have hgap : 1 ≤ |(m : Rat) - q| := by
    exact_mod_cast Int.one_le_abs (sub_ne_zero.mpr hne)
  have htri := abs_sub_le (m : Rat) t q
  rw [abs_sub_comm t, htie] at htri
  exact ⟨h.even_of_half (by linarith), by linarith⟩

/-! Taken back to the size of `x`, the whole number nearest to `x / 2 ^ e` is the nearest multiple of
`2 ^ e`. -/

variable {x : Rat} {e : Int}

theorem le_of_lt_zpow (h : NearestNat (x / 2 ^ e) q) (hhigh : x < 2 ^ (53 + e)) : q ≤ 2 ^ 53 := by
  have hpow : (0 : Rat) < 2 ^ e := by positivity
  have ht : x / 2 ^ e < 2 ^ 53 := by
    rw [zpow_add₀ two_ne_zero] at hhigh
    rw [div_lt_iff₀ hpow]
    exact_mod_cast hhigh
  have hhalf := (abs_sub_le_iff.mp h.le_half).1
  have hq : (q : Rat) < (2 ^ 53 + 1 : Nat) := by
    push_cast
    linarith
  exact Nat.lt_succ_iff.mp (Nat.cast_lt.mp hq)

theorem le_of_multiple (h : NearestNat (x / 2 ^ e) q) (m : Int) :
    |q * 2 ^ e - x| ≤ |m * 2 ^ e - x| := by
  rw [abs_mul_zpow_sub, abs_mul_zpow_sub]
  exact mul_le_mul_of_nonneg_right (h.abs_sub_le_abs m) (by positivity)

theorem lt_of_small (h : NearestNat (x / 2 ^ e) q) (hlow : 2 ^ (52 + e) ≤ x) {z : Rat}
    (hz : |z| < 2 ^ (52 + e)) : |q * 2 ^ e - x| < |z - x| := by
  have hleast : (2 : Rat) ^ (52 + e) = ((2 ^ 52 : Int) : Rat) * 2 ^ e := by
    rw [zpow_add₀ two_ne_zero]
    norm_num
  have hz' := lt_of_le_of_lt (le_abs_self z) hz
  calc |q * 2 ^ e - x| ≤ |2 ^ (52 + e) - x| := by rw [hleast]; exact h.le_of_multiple _
    _ = x - 2 ^ (52 + e) := by rw [abs_sub_comm, abs_of_nonneg (sub_nonneg.mpr hlow)]
    _ < x - z := sub_lt_sub_left hz' x
    _ ≤ |z - x| := by rw [abs_sub_comm]; exact le_abs_self _

theorem even_of_multiple (h : NearestNat (x / 2 ^ e) q) {m : Int}
    (hne : (m : Rat) * 2 ^ e ≠ q * 2 ^ e) (htie : |m * 2 ^ e - x| = |q * 2 ^ e - x|) :
    ∃ k : Int, Even k ∧ (q : Rat) * 2 ^ e = k * (m * 2 ^ e - q * 2 ^ e) := by
  have hpow : (0 : Rat) < 2 ^ e := by positivity
  have hmq : m ≠ q := by
    rintro rfl
    exact hne (by rw [Int.cast_natCast])
  rw [abs_mul_zpow_sub, abs_mul_zpow_sub, mul_left_inj' hpow.ne'] at htie
  obtain ⟨heven, hgap⟩ := h.even_of_tie hmq htie
  -- the gap is one place up or down
  have hsquare : ((m : Rat) - q) * (m - q) = 1 := by rw [← abs_mul_abs_self, hgap, one_mul]
  refine ⟨q * (m - q), ((Int.even_coe_nat q).mpr heven).mul_right _, ?_⟩
  push_cast
  linear_combination (-(q : Rat) * 2 ^ e) * hsquare

end NearestNat

theorem isRounding_round_of_pos {x : Rat} (hx : 0 < x) : IsRounding x (round x) := by
  obtain ⟨e, q, he, hhigh, hlow, hnearest, hround⟩ := round_cases hx
  rw [hround]
  constructor
  · exact isNumber_of_le (hnearest.le_of_lt_zpow hhigh) he
  · intro z hz
    obtain ⟨m, rfl⟩ | ⟨he', hsmall⟩ := hz.multiple_or_lt he
    · exact hnearest.le_of_multiple m
    · exact (hnearest.lt_of_small (hlow.resolve_left he'.ne') hsmall).le
  · intro z hz hne htie
    obtain ⟨m, rfl⟩ | ⟨he', hsmall⟩ := hz.multiple_or_lt he
    · exact hnearest.even_of_multiple hne htie
    · have hfurther := hnearest.lt_of_small (hlow.resolve_left he'.ne') hsmall
      exact absurd htie hfurther.ne'

theorem isRounding_round (x : Rat) : IsRounding x (round x) := by
  rcases lt_trichotomy x 0 with hneg | rfl | hpos
  · have h := (isRounding_round_of_pos (neg_pos.mpr hneg)).neg
    rwa [round_neg, neg_neg, neg_neg] at h
  · rw [round_zero]
    constructor
    · exact ⟨0, 0, by decide, by decide, by rw [Int.cast_zero, zero_mul]⟩
    · intro z _
      rw [sub_self, abs_zero]
      exact abs_nonneg _
    · intro z _ hne htie
      rw [sub_self, abs_zero, sub_zero, abs_eq_zero] at htie
      exact absurd htie hne
  · exact isRounding_round_of_pos hpos

end Garage.Binary64
