import Garage.Proofs.Decimal
import Garage.Proofs.Hexadecimal

/-!
# Numbers under a spec

However a spec fills the place of a number, marks its base or writes its sign, the number can be
read back, as long as the fill cannot be taken for a part of it.

* `isNumeric`: the characters that make out a number in a base.
* `Spec.number`: the number that a text under a spec stands for.
* `Spec.exists_integer_eq`: a number under a spec is its sign and marks, zeros and digits, between
  fills.
* `Spec.number_integer`: a number is read back from its text.
-/

namespace Garage.Format

/-- The characters that make out a number. Others only fill its place or mark its base. -/
def isNumeric (radix : Radix) (c : Char) : Bool :=
  match radix with
  | .decimal => c.isDigit || c == '-'
  | _ => c.isDigit || ('a' ≤ c && c ≤ 'f') || ('A' ≤ c && c ≤ 'F')

namespace Spec

/-- The number that a text under a spec stands for. A word of base sixteen is taken as signed. -/
def number (spec : Spec) (text : List Char) : Int32 :=
  match spec.radix with
  | .decimal => Int32.ofInt (decimalValue (text.filter (isNumeric spec.radix)))
  | _ => (UInt32.ofNat (hexValue (text.filter (isNumeric spec.radix)))).toInt32

theorem exists_pad_eq (spec : Spec) (default : Align) (text : List Char) :
    ∃ before after, spec.pad default text =
        List.replicate before spec.fill ++ text ++ List.replicate after spec.fill ∧
      before + after = spec.width - text.length ∧
      match spec.align.getD default with
      | .left => before = 0
      | .right => after = 0
      | .centre => after = before ∨ after = before + 1 := by
  refine ⟨_, _, rfl, ?_⟩
  cases spec.align.getD default with
  | left => exact ⟨Nat.zero_add _, rfl⟩
  | right => exact ⟨Nat.add_sub_of_le (Nat.le_refl _), Nat.sub_self _⟩
  | centre =>
    generalize spec.width - text.length = gap
    show gap / 2 + (gap - gap / 2) = gap ∧ (gap - gap / 2 = gap / 2 ∨ gap - gap / 2 = gap / 2 + 1)
    omega

theorem exists_integer_eq (spec : Spec) (n : Int32) :
    ∃ before zeros after, spec.integer n =
      List.replicate before spec.fill ++
          (spec.lead n ++ List.replicate zeros '0' ++ spec.digits n) ++
        List.replicate after spec.fill := by
  rw [integer]
  split
  · refine ⟨0, spec.width - ((spec.lead n).length + (spec.digits n).length), 0, ?_⟩
    rw [List.replicate_zero, List.nil_append, List.append_nil]
  · obtain ⟨before, after, heq, -⟩ := spec.exists_pad_eq .right (spec.lead n ++ spec.digits n)
    refine ⟨before, 0, after, ?_⟩
    rw [heq, List.replicate_zero, List.append_nil]

theorem isNumeric_of_mem_digits {spec : Spec} {n : Int32} {c : Char} (h : c ∈ spec.digits n) :
    isNumeric spec.radix c = true := by
  have hlower : ∀ d < 16, isNumeric .lowerHex d.digitChar = true := by decide
  have hupper : ∀ d < 16, isNumeric .upperHex d.digitChar.toUpper = true := by decide
  rw [digits] at h
  cases hradix : spec.radix with
  | decimal =>
    rw [hradix] at h
    show (c.isDigit || c == '-') = true
    rw [(isNumeral_toDigits _).2.1 c h, Bool.true_or]
  | lowerHex =>
    rw [hradix] at h
    obtain ⟨d, hd, rfl⟩ := exists_digitChar_of_mem_toDigits (by decide) h
    exact hlower d hd
  | upperHex =>
    rw [hradix] at h
    obtain ⟨c, hc, rfl⟩ := List.mem_map.mp h
    obtain ⟨d, hd, rfl⟩ := exists_digitChar_of_mem_toDigits (by decide) hc
    exact hupper d hd

theorem isNumeric_zero (radix : Radix) : isNumeric radix '0' = true := by
  cases radix <;> rfl

theorem exists_filter_integer {spec : Spec} (hfill : isNumeric spec.radix spec.fill = false)
    (n : Int32) :
    ∃ zeros, (spec.integer n).filter (isNumeric spec.radix) =
      (spec.lead n).filter (isNumeric spec.radix) ++ List.replicate zeros '0' ++ spec.digits n := by
  obtain ⟨before, zeros, after, heq⟩ := spec.exists_integer_eq n
  have hdigits : (spec.digits n).filter (isNumeric spec.radix) = spec.digits n :=
    List.filter_eq_self.mpr fun c hc => isNumeric_of_mem_digits hc
  refine ⟨zeros, ?_⟩
  rw [heq]
  simp only [List.filter_append, List.filter_replicate, hfill, isNumeric_zero, hdigits, if_true,
    Bool.false_eq_true, if_false, List.nil_append, List.append_nil]

theorem filter_lead_decimal {spec : Spec} (h : spec.radix = .decimal) (n : Int32) :
    (spec.lead n).filter (isNumeric .decimal) = if n < 0 then ['-'] else [] := by
  unfold lead
  rw [h]
  by_cases hn : n < 0
  · simp only [if_pos hn]
    rfl
  · simp only [if_neg hn]
    cases spec.signed <;> rfl

theorem filter_lead_hex {spec : Spec} (h : spec.radix ≠ .decimal) (n : Int32) :
    ∃ zeros, (spec.lead n).filter (isNumeric spec.radix) = List.replicate zeros '0' := by
  refine ⟨if spec.alternate then 1 else 0, ?_⟩
  unfold lead
  cases hradix : spec.radix with
  | decimal => exact absurd hradix h
  | lowerHex | upperHex => cases spec.signed <;> cases spec.alternate <;> rfl

theorem hexValue_digits {spec : Spec} (h : spec.radix ≠ .decimal) (n : Int32) :
    hexValue (spec.digits n) = n.toUInt32.toNat := by
  unfold digits
  cases hradix : spec.radix with
  | decimal => exact absurd hradix h
  | lowerHex => exact hexValue_toDigits _
  | upperHex =>
    show hexValue ((Nat.toDigits 16 n.toUInt32.toNat).map Char.toUpper) = _
    rw [hexValue_map_toUpper fun c hc => exists_digitChar_of_mem_toDigits (by decide) hc,
      hexValue_toDigits]

theorem number_integer {spec : Spec} (hfill : isNumeric spec.radix spec.fill = false) (n : Int32) :
    spec.number (spec.integer n) = n := by
  obtain ⟨zeros, hkept⟩ := exists_filter_integer hfill n
  unfold number
  cases hradix : spec.radix with
  | decimal =>
    rw [hradix, filter_lead_decimal hradix, digits, hradix] at hkept
    show Int32.ofInt (decimalValue ((spec.integer n).filter (isNumeric .decimal))) = n
    rw [hkept, decimalValue_signed, Int32.ofInt_toInt]
  | lowerHex | upperHex =>
    have hhex : spec.radix ≠ .decimal := by rw [hradix]; decide
    obtain ⟨marks, hlead⟩ := filter_lead_hex hhex n
    rw [hlead] at hkept
    show (UInt32.ofNat (hexValue ((spec.integer n).filter (isNumeric _)))).toInt32 = n
    rw [← hradix, hkept, List.append_assoc, hexValue_replicate_zero_append,
      hexValue_replicate_zero_append, hexValue_digits hhex, UInt32.ofNat_toNat,
      Int32.toInt32_toUInt32]

theorem integer_injective {spec : Spec} (hfill : isNumeric spec.radix spec.fill = false)
    {m n : Int32} (h : spec.integer m = spec.integer n) : m = n := by
  rw [← number_integer hfill m, h, number_integer hfill n]

theorem mem_lead {spec : Spec} {n : Int32} {c : Char} (h : c ∈ spec.lead n) :
    c = '+' ∨ c = 'x' ∨ isNumeric spec.radix c = true := by
  unfold lead at h
  cases hradix : spec.radix with
  | decimal =>
    simp only [hradix] at h
    split at h
    · rw [List.mem_singleton.mp h]
      exact Or.inr (Or.inr rfl)
    · split at h
      · exact Or.inl (List.mem_singleton.mp h)
      · exact absurd h List.not_mem_nil
  | lowerHex | upperHex =>
    simp only [hradix] at h
    rcases List.mem_append.mp h with hsign | hmark
    · split at hsign
      · exact Or.inl (List.mem_singleton.mp hsign)
      · exact absurd hsign List.not_mem_nil
    · split at hmark
      · rcases List.mem_pair.mp hmark with rfl | rfl
        · exact Or.inr (Or.inr rfl)
        · exact Or.inr (Or.inl rfl)
      · exact absurd hmark List.not_mem_nil

theorem mem_integer {spec : Spec} {n : Int32} {c : Char} (h : c ∈ spec.integer n) :
    c = spec.fill ∨ c = '+' ∨ c = 'x' ∨ isNumeric spec.radix c = true := by
  obtain ⟨before, zeros, after, heq⟩ := spec.exists_integer_eq n
  rw [heq] at h
  simp only [List.mem_append] at h
  rcases h with (hfill | (hlead | hzero) | hdigit) | hfill
  · exact Or.inl (List.eq_of_mem_replicate hfill)
  · exact Or.inr (mem_lead hlead)
  · rw [List.eq_of_mem_replicate hzero]
    exact Or.inr (Or.inr (Or.inr (isNumeric_zero _)))
  · exact Or.inr (Or.inr (Or.inr (isNumeric_of_mem_digits hdigit)))
  · exact Or.inl (List.eq_of_mem_replicate hfill)

theorem comma_not_mem_integer {spec : Spec} (hfill : spec.fill ≠ ',') (n : Int32) :
    ',' ∉ spec.integer n := by
  have hradix : isNumeric spec.radix ',' = false := by cases spec.radix <;> rfl
  intro h
  rcases mem_integer h with hcomma | hcomma | hcomma | hcomma
  · exact hfill hcomma.symm
  · exact absurd hcomma (by decide)
  · exact absurd hcomma (by decide)
  · rw [hradix] at hcomma
    exact Bool.false_ne_true hcomma

theorem mem_debugSpecs {name : String} {spec : Spec} (h : debug? name = some spec) :
    (name, spec) ∈ debugSpecs := by
  obtain ⟨before, after, hspecs, -⟩ := List.lookup_eq_some_iff.mp h
  rw [hspecs]
  exact List.mem_append_right before List.mem_cons_self

end Spec

end Garage.Format
