import Garage.Proofs.Layout
import Garage.Proofs.NumberText

/-!
# Texts without control characters

A quoted text has no control character, whatever it quotes, and a number has none either. So the
lines of a document, in which nothing else can vary, are lines indeed, and its text on one line is
one line.

* `Printable`: a text without control characters (`printable_quote`, `Spec.printable_integer`).
* `Doc.Printable`: a document of such texts (`Doc.Printable.word`, `Doc.Printable.record`).
-/

namespace Garage.Format

/-- A control character of the ASCII block. -/
def IsControl (c : Char) : Prop := c.toNat < 0x20 ∨ c.toNat = 0x7F

instance (c : Char) : Decidable (IsControl c) :=
  inferInstanceAs (Decidable (_ ∨ _))

/-- No control character stands in the text. -/
def Printable (text : List Char) : Prop := ∀ c ∈ text, ¬ IsControl c

instance (text : List Char) : Decidable (Printable text) :=
  List.decidableBAll (fun c => ¬ IsControl c) text

theorem printable_append {s t : List Char} : Printable (s ++ t) ↔ Printable s ∧ Printable t :=
  List.forall_mem_append

theorem forall_mem_intercalate {p : Char → Prop} {sep : List Char} (hsep : ∀ c ∈ sep, p c)
    {texts : List (List Char)} (h : ∀ text ∈ texts, ∀ c ∈ text, p c) :
    ∀ c ∈ sep.intercalate texts, p c := by
  cases texts with
  | nil => exact fun c hc => absurd hc List.not_mem_nil
  | cons text rest =>
    obtain ⟨htext, hrest⟩ := List.forall_mem_cons.mp h
    rw [intercalate_cons_eq_flatMap, List.forall_mem_append]
    refine ⟨htext, fun c hc => ?_⟩
    obtain ⟨next, hnext, hc⟩ := List.mem_flatMap.mp hc
    exact List.forall_mem_append.mpr ⟨hsep, hrest next hnext⟩ c hc

/-! ## Quoted texts and numbers -/

theorem not_isControl_of_isInvisible {c : Char} (h : isInvisible c = false) : ¬ IsControl c := by
  simp only [isInvisible, Bool.or_eq_false_iff, decide_eq_false_iff_not, beq_eq_false_iff_ne] at h
  rintro (hlow | hdelete)
  · exact h.1.1 hlow
  · exact h.1.2 hdelete

theorem printable_toDigits (n : Nat) : Printable (Nat.toDigits 16 n) := by
  have hall : ∀ d < 16, ¬ IsControl d.digitChar := by decide
  intro c hc
  obtain ⟨d, hd, rfl⟩ := exists_digitChar_of_mem_toDigits (by decide) hc
  exact hall d hd

theorem printable_escape (c : Char) : Printable (escape c) := by
  unfold escape
  split
  · decide
  · decide
  · decide
  · decide
  · decide
  · decide
  · split
    · refine printable_append.mpr ⟨printable_append.mpr ⟨by decide, printable_toDigits _⟩, ?_⟩
      decide
    · rename_i hvisible
      intro d hd
      rw [List.mem_singleton.mp hd]
      exact not_isControl_of_isInvisible (Bool.eq_false_iff.mpr hvisible)

theorem printable_quote (s : List Char) : Printable (quote s) := by
  have hinside : Printable (s.flatMap escape) := by
    intro c hc
    obtain ⟨d, -, hc⟩ := List.mem_flatMap.mp hc
    exact printable_escape d c hc
  have hmark : Printable ['"'] := by decide
  exact printable_append.mpr ⟨printable_append.mpr ⟨hmark, hinside⟩, hmark⟩

theorem isNumeric_of_isControl {c : Char} (h : IsControl c) (radix : Radix) :
    isNumeric radix c = false := by
  have hall : ∀ n < 0x80, IsControl (Char.ofNat n) → isNumeric radix (Char.ofNat n) = false := by
    cases radix <;> decide
  have hlt : c.toNat < 0x80 := by
    rcases h with hlow | hdelete <;> omega
  have hc := hall c.toNat hlt
  rw [Char.ofNat_toNat] at hc
  exact hc h

theorem Spec.printable_integer {spec : Spec} (hfill : ¬ IsControl spec.fill) (n : Int32) :
    Printable (spec.integer n) := by
  intro c hc hcontrol
  rcases mem_integer hc with rfl | rfl | rfl | hnumeric
  · exact hfill hcontrol
  · exact absurd hcontrol (by decide)
  · exact absurd hcontrol (by decide)
  · rw [isNumeric_of_isControl hcontrol] at hnumeric
    cases hnumeric

/-! ## Documents -/

namespace Doc

/-- No control character stands in either layout of the document; line breaks come only from
joining its lines. -/
structure Printable (doc : Doc) : Prop where
  flat : Format.Printable doc.flat
  lines : ∀ line ∈ doc.lines, Format.Printable line

theorem Printable.word {text : List Char} (h : Format.Printable text) : (word text).Printable where
  flat := h
  lines line hline := by
    rw [List.mem_singleton.mp hline]
    exact h

theorem printable_labelFirst {label : List Char} (hlabel : Format.Printable label)
    {lines : List (List Char)} (h : ∀ line ∈ lines, Format.Printable line) :
    ∀ line ∈ labelFirst label lines, Format.Printable line := by
  cases lines with
  | nil => exact h
  | cons first rest =>
    obtain ⟨hfirst, hrest⟩ := List.forall_mem_cons.mp h
    exact List.forall_mem_cons.mpr ⟨printable_append.mpr ⟨hlabel, hfirst⟩, hrest⟩

theorem printable_closeLast {lines : List (List Char)}
    (h : ∀ line ∈ lines, Format.Printable line) :
    ∀ line ∈ closeLast lines, Format.Printable line := by
  induction lines with
  | nil => exact h
  | cons line rest ih =>
    obtain ⟨hline, hrest⟩ := List.forall_mem_cons.mp h
    cases rest with
    | nil =>
      have hclosed : Format.Printable (line ++ [',']) :=
        printable_append.mpr ⟨hline, by decide⟩
      exact List.forall_mem_cons.mpr ⟨hclosed, hrest⟩
    | cons next rest => exact List.forall_mem_cons.mpr ⟨hline, ih hrest⟩

theorem Printable.nested {item : Doc} (h : item.Printable) {label : List Char}
    (hlabel : Format.Printable label) : ∀ line ∈ nested label item, Format.Printable line := by
  intro line hline
  obtain ⟨line, hmem, rfl⟩ := List.mem_map.mp hline
  refine printable_append.mpr ⟨by decide, ?_⟩
  exact printable_closeLast (printable_labelFirst hlabel h.lines) line hmem

theorem printable_fieldLabel {name : String} (h : Format.Printable name.toList) :
    Format.Printable (fieldLabel name) :=
  printable_append.mpr ⟨h, by decide⟩

theorem Printable.record {name : String} (hname : Format.Printable name.toList)
    {fields : List (String × Doc)}
    (hfields : ∀ field ∈ fields, Format.Printable field.1.toList ∧ field.2.Printable) :
    (record name fields).Printable where
  flat := by
    have htexts : ∀ text ∈ fields.map (fun field => fieldLabel field.1 ++ field.2.flat),
        Format.Printable text := by
      intro text htext
      obtain ⟨field, hmem, rfl⟩ := List.mem_map.mp htext
      obtain ⟨hlabel, hitem⟩ := hfields field hmem
      exact printable_append.mpr ⟨printable_fieldLabel hlabel, hitem.flat⟩
    have hcomma : Format.Printable [',', ' '] := by decide
    have hbody : Format.Printable (List.intercalate [',', ' '] _) :=
      forall_mem_intercalate hcomma htexts
    refine printable_append.mpr ⟨printable_append.mpr ⟨?_, hbody⟩, ?_⟩
    · exact printable_append.mpr ⟨hname, by decide⟩
    · decide
  lines line hline := by
    rcases List.mem_append.mp hline with hopen | hclose
    · rcases List.mem_cons.mp hopen with rfl | hnested
      · exact printable_append.mpr ⟨hname, by decide⟩
      · obtain ⟨field, hmem, hline⟩ := List.mem_flatMap.mp hnested
        obtain ⟨hlabel, hitem⟩ := hfields field hmem
        exact hitem.nested (printable_fieldLabel hlabel) line hline
    · rw [List.mem_singleton.mp hclose]
      decide

end Doc

end Garage.Format
