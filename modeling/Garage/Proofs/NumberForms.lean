import Garage.Proofs.NumberText

/-!
# The form of a number under a spec

What a reader finds in the place of a number: the plain decimal, the word of base sixteen, a decimal
with a sign in any case, or a decimal filled up to a width. A form is said by what can be read in
the text, not by how the text is made.

* `IsHexNumeral`: the numerals of base sixteen, beside those of base ten in `IsNumeral`.
* `NumberForm`, `NumberForm.Holds`: the forms, and when a text is in a form for a number.
* `Spec.form`: the form that the options of a spec ask for.
* `Spec.holds_form`: a number under a spec has the form of the spec, if that has one option only.
* `Spec.debugForms`: the forms of the named specs (`Spec.mem_debugForms`).
-/

namespace Garage.Format

/-- A digit of base sixteen, with capitals or small letters past nine. -/
def isHexDigit (capitals : Bool) (c : Char) : Bool :=
  c.isDigit || if capitals then 'A' ≤ c && c ≤ 'F' else 'a' ≤ c && c ≤ 'f'

/-- Digits of base sixteen of a natural number, without a leading zero. -/
def IsHexNumeral (capitals : Bool) (digits : List Char) : Prop :=
  digits ≠ [] ∧ (∀ c ∈ digits, isHexDigit capitals c = true) ∧
    (digits.head? = some '0' → digits = ['0'])

inductive NumberForm where
  | decimal
  | signed
  /-- The 32-bit word in base sixteen, behind a mark or not. -/
  | word (capitals marked : Bool)
  /-- At least so many characters, with zeros behind the sign. -/
  | zeroFilled (width : Nat)
  /-- At least so many characters, with fills where the decimal is not aligned to. -/
  | filled (fill : Char) (align : Align) (width : Nat)
  deriving DecidableEq, Repr

/-- The numeral of the 32-bit word of a number, behind the mark of its base if there is one. -/
def IsWord (capitals marked : Bool) (n : Int32) (text : List Char) : Prop :=
  ∃ digits, text = (if marked then ['0', 'x'] else []) ++ digits ∧
    IsHexNumeral capitals digits ∧ (hexValue digits : Int) = n.toInt % UInt32.size ∧
    (digits.head? = some '0' ↔ n = 0)

/-- A sign, and the numeral of the magnitude of a number. -/
def IsSigned (n : Int32) (text : List Char) : Prop :=
  ∃ digits, text = (if n < 0 then '-' else '+') :: digits ∧ IsNumeral digits ∧
    Nat.ofDigitChars 10 digits 0 = n.toInt.natAbs

/-- A decimal with zeros between its sign and its digits. -/
def IsZeroFilled (decimal text : List Char) : Prop :=
  ∃ sign digits zeros, decimal = sign ++ digits ∧ (sign = [] ∨ sign = ['-']) ∧
    IsNumeral digits ∧ text = sign ++ List.replicate zeros '0' ++ digits

/-- A decimal between fills, which it does not contain. An extra fill goes to the right. -/
def IsFilled (fill : Char) (align : Align) (decimal text : List Char) : Prop :=
  fill ∉ decimal ∧ ∃ before after,
    text = List.replicate before fill ++ decimal ++ List.replicate after fill ∧
    match align with
    | .left => before = 0
    | .right => after = 0
    | .centre => after = before ∨ after = before + 1

/-- The text is in the form for the number. -/
def NumberForm.Holds (n : Int32) (text : List Char) : NumberForm → Prop
  | decimal => text = (toString n.toInt).toList
  | signed => IsSigned n text
  | word capitals marked => IsWord capitals marked n text
  | zeroFilled width =>
    text.length = max width (toString n.toInt).toList.length ∧
      IsZeroFilled (toString n.toInt).toList text
  | filled fill align width =>
    text.length = max width (toString n.toInt).toList.length ∧
      IsFilled fill align (toString n.toInt).toList text

namespace Spec

def form (spec : Spec) : NumberForm :=
  match spec.radix with
  | .lowerHex => .word false spec.alternate
  | .upperHex => .word true spec.alternate
  | .decimal =>
    if spec.signed then .signed
    else if spec.zeroPad then .zeroFilled spec.width
    else if spec.width = 0 then .decimal
    else .filled spec.fill (spec.align.getD .right) spec.width

/-! ## Words -/

theorem toInt_emod (n : Int32) : n.toInt % UInt32.size = n.toUInt32.toNat := by
  have hlt : n.toUInt32.toNat < UInt32.size := n.toUInt32.toNat_lt
  have hcond : n.toInt =
      if 2 * n.toUInt32.toNat < UInt32.size then (n.toUInt32.toNat : Int)
      else n.toUInt32.toNat - (UInt32.size : Nat) :=
    BitVec.toInt_eq_toNat_cond n.toBitVec
  rw [hcond]
  unfold UInt32.size at hlt ⊢
  split <;> omega

theorem toNat_toUInt32_eq_zero_iff (n : Int32) : n.toUInt32.toNat = 0 ↔ n = 0 := by
  constructor
  · intro h
    have hword : n.toUInt32 = 0 := UInt32.toNat_inj.mp h
    rw [← Int32.toInt32_toUInt32 n, hword]
    rfl
  · rintro rfl
    rfl

theorem isHexNumeral_toDigits (n : Nat) : IsHexNumeral false (Nat.toDigits 16 n) := by
  have hall : ∀ d < 16, isHexDigit false d.digitChar = true := by decide
  refine ⟨Nat.toDigits_ne_nil, ?_, ?_⟩
  · intro c hc
    obtain ⟨d, hd, rfl⟩ := exists_digitChar_of_mem_toDigits (by decide) hc
    exact hall d hd
  · intro h
    rw [eq_zero_of_head?_toDigits (by decide) (by decide) n h, Nat.toDigits_zero]

theorem head?_map_toUpper_toDigits {n : Nat}
    (h : ((Nat.toDigits 16 n).map Char.toUpper).head? = some '0') :
    (Nat.toDigits 16 n).head? = some '0' := by
  have hall : ∀ d < 16, d.digitChar.toUpper = '0' → d.digitChar = '0' := by decide
  rw [List.head?_map, Option.map_eq_some_iff] at h
  obtain ⟨c, hc, hupper⟩ := h
  obtain ⟨d, hd, rfl⟩ :=
    exists_digitChar_of_mem_toDigits (b := 16) (by decide) (List.mem_of_head? hc)
  rw [hc, hall d hd hupper]

theorem isHexNumeral_map_toUpper_toDigits (n : Nat) :
    IsHexNumeral true ((Nat.toDigits 16 n).map Char.toUpper) := by
  have hall : ∀ d < 16, isHexDigit true d.digitChar.toUpper = true := by decide
  refine ⟨mt List.map_eq_nil_iff.mp Nat.toDigits_ne_nil, ?_, ?_⟩
  · intro c hmem
    obtain ⟨c, hc, rfl⟩ := List.mem_map.mp hmem
    obtain ⟨d, hd, rfl⟩ := exists_digitChar_of_mem_toDigits (by decide) hc
    exact hall d hd
  · intro h
    rw [(isHexNumeral_toDigits n).2.2 (head?_map_toUpper_toDigits h)]
    rfl

theorem isHexNumeral_digits {spec : Spec} (h : spec.radix ≠ .decimal) (n : Int32) :
    IsHexNumeral (spec.radix == .upperHex) (spec.digits n) := by
  unfold digits
  cases hradix : spec.radix with
  | decimal => exact absurd hradix h
  | lowerHex => exact isHexNumeral_toDigits _
  | upperHex => exact isHexNumeral_map_toUpper_toDigits _

theorem head?_digits_iff {spec : Spec} (h : spec.radix ≠ .decimal) (n : Int32) :
    (spec.digits n).head? = some '0' ↔ n = 0 := by
  rw [← toNat_toUInt32_eq_zero_iff, ← hexValue_digits h n]
  constructor
  · intro hhead
    rw [(isHexNumeral_digits h n).2.2 hhead]
    rfl
  · intro hzero
    rw [hexValue_digits h, toNat_toUInt32_eq_zero_iff] at hzero
    subst hzero
    unfold digits
    cases hradix : spec.radix with
    | decimal => exact absurd hradix h
    | lowerHex | upperHex => rfl

theorem integer_of_width_eq_zero {spec : Spec} (h : spec.width = 0) (n : Int32) :
    spec.integer n = spec.lead n ++ spec.digits n := by
  rw [integer]
  split
  · rw [h, Nat.zero_sub, List.replicate_zero, List.append_nil]
  · obtain ⟨before, after, heq, hcount, -⟩ := spec.exists_pad_eq .right (spec.lead n ++ spec.digits n)
    obtain ⟨rfl, rfl⟩ : before = 0 ∧ after = 0 := by omega
    rw [heq, List.replicate_zero, List.append_nil, List.nil_append]

theorem isWord_integer {spec : Spec} (hradix : spec.radix ≠ .decimal)
    (hsigned : spec.signed = false) (hwidth : spec.width = 0) (n : Int32) :
    IsWord (spec.radix == .upperHex) spec.alternate n (spec.integer n) := by
  refine ⟨spec.digits n, ?_, isHexNumeral_digits hradix n, ?_, head?_digits_iff hradix n⟩
  · rw [integer_of_width_eq_zero hwidth, lead]
    cases hr : spec.radix with
    | decimal => exact absurd hr hradix
    | lowerHex | upperHex => simp [hsigned]
  · rw [hexValue_digits hradix, toInt_emod]

/-! ## Decimals -/

theorem toList_toString_toInt (n : Int32) : (toString n.toInt).toList = plain.integer n := by
  rw [← ofList_plain_integer, String.toList_ofList]

theorem isSigned_integer {spec : Spec} (hradix : spec.radix = .decimal)
    (hsigned : spec.signed = true) (hwidth : spec.width = 0) (n : Int32) :
    IsSigned n (spec.integer n) := by
  refine ⟨Nat.toDigits 10 n.toInt.natAbs, ?_, isNumeral_toDigits _, Nat.ofDigitChars_ten_toDigits⟩
  rw [integer_of_width_eq_zero hwidth, lead, digits, hradix]
  by_cases hn : n < 0 <;> simp [hn, hsigned]

theorem length_integer (spec : Spec) (n : Int32) :
    (spec.integer n).length = max spec.width (spec.lead n ++ spec.digits n).length := by
  rw [integer]
  split
  · simp only [List.length_append, List.length_replicate]
    omega
  · obtain ⟨before, after, heq, hcount, -⟩ := spec.exists_pad_eq .right (spec.lead n ++ spec.digits n)
    rw [heq]
    simp only [List.length_append, List.length_replicate] at hcount ⊢
    omega

section Unsigned

variable {spec : Spec} (hradix : spec.radix = .decimal) (hsigned : spec.signed = false) (n : Int32)
include hradix hsigned

theorem lead_append_digits : spec.lead n ++ spec.digits n = plain.integer n := by
  rw [plain_integer, lead, digits, hradix]
  simp [hsigned]

theorem isZeroFilled_integer (hzero : spec.zeroPad = true) :
    IsZeroFilled (plain.integer n) (spec.integer n) := by
  refine ⟨spec.lead n, spec.digits n, spec.width - ((spec.lead n).length + (spec.digits n).length),
    (lead_append_digits hradix hsigned n).symm, ?_, ?_, ?_⟩
  · rw [lead, hradix]
    by_cases hn : n < 0 <;> simp [hn, hsigned]
  · rw [digits, hradix]
    exact isNumeral_toDigits _
  · exact if_pos hzero

theorem isFilled_integer (hzero : spec.zeroPad = false) (hfill : isNumeric .decimal spec.fill = false) :
    IsFilled spec.fill (spec.align.getD .right) (plain.integer n) (spec.integer n) := by
  have hinteger : spec.integer n = spec.pad .right (plain.integer n) := by
    rw [← lead_append_digits hradix hsigned n]
    exact if_neg (Bool.eq_false_iff.mp hzero)
  obtain ⟨before, after, heq, -, hsides⟩ := spec.exists_pad_eq .right (plain.integer n)
  obtain ⟨hdigit, hminus⟩ := Bool.or_eq_false_iff.mp hfill
  exact ⟨not_mem_plain_integer n (bne_iff_ne.mp (congrArg not hminus)) hdigit, before, after,
    hinteger.trans heq, hsides⟩

end Unsigned

/-! ## Specs with one option -/

/-- A base and a sign exclude each other and leave no place to be filled, and fills cannot be taken
for a part of the number. -/
structure OneOption (spec : Spec) : Prop where
  of_radix : spec.radix ≠ .decimal → spec.signed = false ∧ spec.width = 0
  of_signed : spec.signed = true → spec.width = 0
  fill : isNumeric .decimal spec.fill = false

theorem holds_form {spec : Spec} (h : spec.OneOption) (n : Int32) :
    spec.form.Holds n (spec.integer n) := by
  unfold form
  cases hradix : spec.radix with
  | lowerHex | upperHex =>
    have hne : spec.radix ≠ .decimal := by rw [hradix]; decide
    obtain ⟨hsigned, hwidth⟩ := h.of_radix hne
    have hword := isWord_integer hne hsigned hwidth n
    rw [hradix] at hword
    exact hword
  | decimal =>
    dsimp only
    by_cases hsigned : spec.signed = true
    · rw [if_pos hsigned]
      exact isSigned_integer hradix hsigned (h.of_signed hsigned) n
    have hdecimal := lead_append_digits hradix (Bool.eq_false_iff.mpr hsigned) n
    have hlength : (spec.integer n).length = max spec.width (plain.integer n).length := by
      rw [length_integer, hdecimal]
    rw [if_neg hsigned]
    by_cases hzero : spec.zeroPad = true
    · rw [if_pos hzero, NumberForm.Holds, toList_toString_toInt]
      exact ⟨hlength, isZeroFilled_integer hradix (Bool.eq_false_iff.mpr hsigned) n hzero⟩
    rw [if_neg hzero]
    by_cases hwidth : spec.width = 0
    · rw [if_pos hwidth, NumberForm.Holds, toList_toString_toInt, ← hdecimal]
      exact integer_of_width_eq_zero hwidth n
    · rw [if_neg hwidth, NumberForm.Holds, toList_toString_toInt]
      exact ⟨hlength, isFilled_integer hradix (Bool.eq_false_iff.mpr hsigned) n
        (Bool.eq_false_iff.mpr hzero) h.fill⟩

/-! ## The named specs -/

/-- The names of the specs for debug text: whether it has the long layout, and the form of its
numbers. -/
def debugForms : List (String × Bool × NumberForm) :=
  [("?", false, .decimal),
   ("#?", true, .decimal),
   (".2?", false, .decimal),
   ("x?", false, .word false false),
   ("X?", false, .word true false),
   ("#x?", true, .word false true),
   ("#X?", true, .word true true),
   ("+?", false, .signed),
   ("08?", false, .zeroFilled 8),
   ("6?", false, .filled ' ' .right 6),
   ("#6?", true, .filled ' ' .right 6),
   ("<6?", false, .filled ' ' .left 6),
   ("*^9?", false, .filled '*' .centre 9)]

theorem debugForms_eq :
    debugForms = debugSpecs.map fun (name, spec) => (name, spec.alternate, spec.form) := by
  decide

section Named

variable {name : String} {spec : Spec} (h : debug? name = some spec)
include h

theorem mem_debugForms : (name, spec.alternate, spec.form) ∈ debugForms := by
  rw [debugForms_eq]
  exact List.mem_map.mpr ⟨_, mem_debugSpecs h, rfl⟩

theorem oneOption_of_debug? : spec.OneOption := by
  have hall : ∀ entry ∈ debugSpecs,
      (entry.2.radix ≠ .decimal → entry.2.signed = false ∧ entry.2.width = 0) ∧
      (entry.2.signed = true → entry.2.width = 0) ∧ isNumeric .decimal entry.2.fill = false := by
    decide
  obtain ⟨hradix, hsigned, hfill⟩ := hall _ (mem_debugSpecs h)
  exact ⟨hradix, hsigned, hfill⟩

end Named

end Spec

end Garage.Format
