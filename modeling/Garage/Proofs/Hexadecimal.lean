import Mathlib.Data.List.Basic

/-!
# Base sixteen

Numerals of base sixteen and their values. Letters count in either case, so a numeral in capitals
has the value of the same one in small letters.

* `hexValue`: the number that a list of digits stands for.
* `hexValue_toDigits`, `hexValue_map_toUpper`: the numerals of a number stand for it.
* `exists_digitChar_of_mem_toDigits`: what a numeral is made of.
-/

namespace Garage.Format

/-- The value of a digit of base sixteen. -/
def digitValue (c : Char) : Nat :=
  if c.isDigit then c.toNat - '0'.toNat else c.toUpper.toNat - 'A'.toNat + 10

/-- The number that digits of base sixteen stand for. -/
def hexValue (digits : List Char) : Nat :=
  digits.foldl (fun n c => 16 * n + digitValue c) 0

theorem digitValue_digitChar {d : Nat} (h : d < 16) : digitValue d.digitChar = d := by
  have hall : ∀ e < 16, digitValue e.digitChar = e := by decide
  exact hall d h

theorem digitValue_toUpper_digitChar {d : Nat} (h : d < 16) :
    digitValue d.digitChar.toUpper = d := by
  have hall : ∀ e < 16, digitValue e.digitChar.toUpper = e := by decide
  exact hall d h

theorem exists_digitChar_of_mem_toDigits {b : Nat} (hb : 1 < b) {n : Nat} {c : Char}
    (h : c ∈ Nat.toDigits b n) : ∃ d < b, c = d.digitChar := by
  induction n using Nat.strongRecOn with
  | ind n ih =>
    rw [Nat.toDigits_eq_if hb] at h
    split at h
    · rename_i hn
      exact ⟨n, hn, List.mem_singleton.mp h⟩
    · rcases List.mem_append.mp h with hfirst | hlast
      · exact ih (n / b) (Nat.div_lt_self (by omega) hb) hfirst
      · exact ⟨n % b, Nat.mod_lt n (by omega), List.mem_singleton.mp hlast⟩

theorem hexValue_toDigits (n : Nat) : hexValue (Nat.toDigits 16 n) = n := by
  induction n using Nat.strongRecOn with
  | ind n ih =>
    rw [Nat.toDigits_eq_if (by decide)]
    split
    · rename_i hn
      show 16 * 0 + digitValue n.digitChar = n
      rw [digitValue_digitChar hn, Nat.mul_zero, Nat.zero_add]
    · rw [hexValue, List.foldl_concat, ← hexValue, ih (n / 16) (by omega),
        digitValue_digitChar (by omega)]
      omega

theorem hexValue_map_toUpper {digits : List Char} (h : ∀ c ∈ digits, ∃ d < 16, c = d.digitChar) :
    hexValue (digits.map Char.toUpper) = hexValue digits := by
  rw [hexValue, hexValue, List.foldl_map]
  apply List.foldl_ext
  intro n c hc
  obtain ⟨d, hd, rfl⟩ := h c hc
  rw [digitValue_toUpper_digitChar hd, digitValue_digitChar hd]

theorem hexValue_replicate_zero_append (n : Nat) (digits : List Char) :
    hexValue (List.replicate n '0' ++ digits) = hexValue digits := by
  induction n with
  | zero => rfl
  | succ n ih => exact ih

end Garage.Format
