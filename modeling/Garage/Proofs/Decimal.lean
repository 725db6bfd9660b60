import Garage.Format.Spec

/-!
# Decimals

How a whole number stands in a text without options: its digits without a leading zero, after a
minus sign if it is negative.

* `IsDecimal`, `decimalValue`: the texts of this form, and the number such a text stands for.
* `decimalValue_signed`: a number is read back from its sign and digits, also behind zeros.
* `isDecimal_plain`, `decimalValue_plain`: a number under the plain spec is written in this form and
  is read back from it, so no two numbers are written alike.
* `ofList_plain_integer`: this form is the usual text of the number.
-/

namespace Garage.Format

/-- Decimal digits of a natural number, without a leading zero. -/
def IsNumeral (digits : List Char) : Prop :=
  digits ≠ [] ∧ (∀ c ∈ digits, c.isDigit = true) ∧ (digits.head? = some '0' → digits = ['0'])

/-- A numeral, or a minus sign and a numeral other than zero. -/
def IsDecimal : List Char → Prop
  | '-' :: digits => IsNumeral digits ∧ digits ≠ ['0']
  | digits => IsNumeral digits

/-- The number that a decimal stands for. -/
def decimalValue : List Char → Int
  | '-' :: digits => -Nat.ofDigitChars 10 digits 0
  | digits => Nat.ofDigitChars 10 digits 0

theorem eq_zero_of_head?_toDigits {b : Nat} (hb : 1 < b) (hb' : b ≤ 16) (n : Nat)
    (h : (Nat.toDigits b n).head? = some '0') : n = 0 := by
  induction n using Nat.strongRecOn with
  | ind n ih =>
    rw [Nat.toDigits_eq_if hb] at h
    split at h
    · rename_i hn
      have hchar : ∀ k < 16, Nat.digitChar k = '0' → k = 0 := by decide
      exact hchar n (Nat.lt_of_lt_of_le hn hb') (Option.some.inj h)
    · rename_i hn
      rw [List.head?_append] at h
      cases hd : (Nat.toDigits b (n / b)).head? with
      | none => exact absurd (List.head?_eq_none_iff.mp hd) Nat.toDigits_ne_nil
      | some c =>
        rw [hd, Option.some_or] at h
        have hpos : 0 < n / b := Nat.div_pos (Nat.le_of_not_lt hn) (Nat.zero_lt_of_lt hb)
        have hzero := ih (n / b) (Nat.div_lt_self (by omega) hb) (hd.trans h)
        omega

theorem isNumeral_toDigits (n : Nat) : IsNumeral (Nat.toDigits 10 n) := by
  refine ⟨Nat.toDigits_ne_nil, ?_, ?_⟩
  · intro c hc
    exact Nat.isDigit_of_mem_toDigits (by decide) (by decide) hc
  · intro h
    rw [eq_zero_of_head?_toDigits (by decide) (by decide) n h, Nat.toDigits_zero]

theorem plain_integer (n : Int32) :
    Spec.plain.integer n =
      (if n < 0 then ['-'] else []) ++ Nat.toDigits 10 n.toInt.natAbs := by
  simp [Spec.integer, Spec.plain, Spec.lead, Spec.digits, Spec.pad]

theorem head_ne_minus_of_digits {digits : List Char} (h : ∀ c ∈ digits, c.isDigit = true)
    (rest : List Char) : digits ≠ '-' :: rest := by
  rintro rfl
  exact absurd (h '-' List.mem_cons_self) (by decide)

theorem decimalValue_of_digits {digits : List Char} (h : ∀ c ∈ digits, c.isDigit = true) :
    decimalValue digits = Nat.ofDigitChars 10 digits 0 := by
  unfold decimalValue
  split
  · rename_i rest
    exact absurd rfl (head_ne_minus_of_digits h rest)
  · rfl

theorem isDecimal_of_isNumeral {digits : List Char} (h : IsNumeral digits) : IsDecimal digits := by
  unfold IsDecimal
  split
  · rename_i rest
    exact absurd rfl (head_ne_minus_of_digits h.2.1 rest)
  · exact h

theorem toInt_neg_iff (n : Int32) : n.toInt < 0 ↔ n < 0 := by
  rw [Int32.lt_iff_toInt_lt, Int32.toInt_zero]

theorem isDecimal_plain (n : Int32) : IsDecimal (Spec.plain.integer n) := by
  rw [plain_integer]
  split
  · rename_i hn
    have hneg := (toInt_neg_iff n).mpr hn
    have hpos : ¬ n.toInt.natAbs = 0 := by omega
    refine ⟨isNumeral_toDigits _, fun h => hpos ?_⟩
    apply eq_zero_of_head?_toDigits (b := 10) (by decide) (by decide)
    exact congrArg List.head? h
  · exact isDecimal_of_isNumeral (isNumeral_toDigits _)

theorem decimalValue_signed (n : Int32) (zeros : Nat) :
    decimalValue ((if n < 0 then ['-'] else []) ++ List.replicate zeros '0' ++
      Nat.toDigits 10 n.toInt.natAbs) = n.toInt := by
  have hvalue : Nat.ofDigitChars 10 (List.replicate zeros '0' ++ Nat.toDigits 10 n.toInt.natAbs) 0 =
      n.toInt.natAbs := by
    rw [Nat.ofDigitChars_append, Nat.ofDigitChars_replicate_zero, Nat.mul_zero,
      Nat.ofDigitChars_ten_toDigits]
  rw [List.append_assoc]
  split
  · rename_i hn
    have hneg := (toInt_neg_iff n).mpr hn
    show -(Nat.ofDigitChars 10 (List.replicate zeros '0' ++ _) 0 : Int) = n.toInt
    rw [hvalue]
    omega
  · rename_i hn
    have hnonneg := mt (toInt_neg_iff n).mp hn
    have hdigits : ∀ c ∈ List.replicate zeros '0' ++ Nat.toDigits 10 n.toInt.natAbs,
        c.isDigit = true := by
      intro c hc
      rcases List.mem_append.mp hc with hzero | hdigit
      · rw [List.eq_of_mem_replicate hzero]
        rfl
      · exact (isNumeral_toDigits _).2.1 c hdigit
    rw [List.nil_append, decimalValue_of_digits hdigits, hvalue]
    omega

theorem decimalValue_plain (n : Int32) : decimalValue (Spec.plain.integer n) = n.toInt := by
  have hvalue := decimalValue_signed n 0
  rwa [List.replicate_zero, List.append_nil, ← plain_integer] at hvalue

theorem ofList_plain_integer (n : Int32) :
    String.ofList (Spec.plain.integer n) = toString n.toInt := by
  show _ = n.toInt.repr
  rw [plain_integer, Int.repr_eq_if]
  by_cases hn : n < 0
  · have hneg := (toInt_neg_iff n).mpr hn
    have habs : n.toInt.natAbs = (-n.toInt).toNat := by omega
    rw [if_pos hn, if_neg (by omega), habs, String.ofList_append, Nat.repr_eq_ofList_toDigits]
  · have hnonneg := mt (toInt_neg_iff n).mp hn
    have habs : n.toInt.natAbs = n.toInt.toNat := by omega
    rw [if_neg hn, if_pos (by omega), habs, List.nil_append, Nat.repr_eq_ofList_toDigits]

theorem not_mem_plain_integer (n : Int32) {c : Char} (hsign : c ≠ '-')
    (hdigit : c.isDigit = false) : c ∉ Spec.plain.integer n := by
  rw [plain_integer, List.mem_append]
  rintro (h | h)
  · split at h
    · exact hsign (List.mem_singleton.mp h)
    · exact List.not_mem_nil h
  · have hc := (isNumeral_toDigits _).2.1 c h
    rw [hdigit] at hc
    exact Bool.false_ne_true hc

end Garage.Format
