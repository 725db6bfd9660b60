import Mathlib.Data.List.Infix
import Garage.Proofs.Line

/-!
# Reading report lines

Nothing in a model is escaped, yet a report line can be read back: the number has no blank, so the
last " with " of the line is the one before the number.

* `splitLast?`: cuts a text at the last occurrence of a separator (`splitLast?_eq_some_iff`).
* `Report.cutLine?`: the model and the number of a report line (`Report.cutLine?_line`). The last
  theorem concludes that the line tells the report.
-/

namespace Garage

open Format

/-- The text is cut at the last occurrence of the separator: no other occurrence starts later. -/
def LastCut (separator text before after : List Char) : Prop :=
  text = before ++ separator ++ after ∧
    ∀ before' after', text = before' ++ separator ++ after' → before'.length ≤ before.length

/-- Cuts a text at the last occurrence of a separator. -/
def splitLast? (separator text : List Char) : Option (List Char × List Char) :=
  (text.reverse.dropInfix? separator.reverse).map fun (after, before) =>
    (before.reverse, after.reverse)

theorem splitLast?_eq_some_iff {separator text before after : List Char} :
    splitLast? separator text = some (before, after) ↔ LastCut separator text before after := by
  -- the last occurrence is the first one of the reversed text
  have hsplit : ∀ before after, text = before ++ separator ++ after ↔
      text.reverse = after.reverse ++ separator.reverse ++ before.reverse := by
    intro before after
    rw [← List.reverse_inj, List.reverse_append, List.reverse_append, List.append_assoc]
  rw [splitLast?, Option.map_eq_some_iff]
  constructor
  · rintro ⟨⟨after', before'⟩, hinfix, heq⟩
    obtain ⟨rfl, rfl⟩ := Prod.mk.inj heq
    obtain ⟨⟨found, htext, hfound⟩, hfirst⟩ := List.dropInfix?_eq_some_iff.mp hinfix
    rw [eq_of_beq hfound] at htext
    refine ⟨(hsplit _ _).mpr (by rwa [List.reverse_reverse, List.reverse_reverse]), ?_⟩
    intro b a hba
    have hlen := hfirst _ _ _ ((hsplit b a).mp hba) (beq_self_eq_true _)
    have htotal := congrArg List.length htext
    have htotal' := congrArg List.length ((hsplit b a).mp hba)
    simp only [List.length_append, List.length_reverse] at hlen htotal htotal' ⊢
    omega
  · rintro ⟨htext, hlast⟩
    refine ⟨(after.reverse, before.reverse), ?_, by simp⟩
    rw [List.dropInfix?_eq_some_iff]
    refine ⟨⟨_, (hsplit _ _).mp htext, beq_self_eq_true _⟩, ?_⟩
    intro a found b hab hfound
    rw [eq_of_beq hfound] at hab
    have hlen := hlast b.reverse a.reverse
      ((hsplit _ _).mpr (by rwa [List.reverse_reverse, List.reverse_reverse]))
    have htotal := congrArg List.length ((hsplit _ _).mp htext)
    have htotal' := congrArg List.length hab
    simp only [List.length_append, List.length_reverse] at hlen htotal htotal' ⊢
    omega

theorem lastCut_of_not_infix {separator after : List Char} (before : List Char)
    (h : ¬ separator <:+: (separator ++ after).tail) :
    LastCut separator (before ++ separator ++ after) before after := by
  refine ⟨rfl, fun before' after' heq => ?_⟩
  by_contra hlt
  apply h
  refine ⟨before'.drop (before.length + 1), after', ?_⟩
  have hdrop := congrArg (List.drop (before.length + 1)) heq
  rw [List.append_assoc, List.append_assoc, ← List.drop_drop, List.drop_left, List.drop_one,
    List.drop_append_of_le_length (by omega)] at hdrop
  rw [hdrop, List.append_assoc]

theorem infix_of_infix_append {c : Char} {separator xs ys : List Char} (hxs : c ∉ xs)
    (h : c :: separator <:+: xs ++ ys) : c :: separator <:+: ys := by
  induction xs with
  | nil => exact h
  | cons x rest ih =>
    rw [List.mem_cons, not_or] at hxs
    rcases List.infix_cons_iff.mp h with hprefix | hinfix
    · exact absurd (List.cons_prefix_cons.mp hprefix).1 hxs.1
    · exact ih hxs.2 hinfix

namespace Report

/-- The parts of a report line: cut at the last " with ", and freed from the fixed words at both
ends. -/
def cutLine? (line : List Char) : Option (List Char × List Char) := do
  let (before, after) ← splitLast? " with ".toList line
  let model ← before.dropPrefix? "Driving ".toList
  let number ← after.dropSuffix? " HP engine".toList
  return (model, number)

theorem not_infix_number (n : Int32) :
    ¬ " with ".toList <:+:
      (" with ".toList ++ (Spec.plain.integer n ++ " HP engine".toList)).tail := by
  have hwith : " with ".toList = ' ' :: 'w' :: "ith ".toList := by decide
  have htail : (" with ".toList ++ (Spec.plain.integer n ++ " HP engine".toList)).tail =
      "with".toList ++ ' ' :: (Spec.plain.integer n ++ " HP engine".toList) := by rfl
  have hend : ¬ " with ".toList <:+: " HP engine".toList := by decide
  have hblank : ' ' ∉ Spec.plain.integer n := not_mem_plain_integer n (by decide) (by decide)
  rw [htail]
  rw [hwith] at hend ⊢
  intro h
  rcases List.infix_cons_iff.mp (infix_of_infix_append (by decide) h) with hprefix | hinfix
  · -- the number is not empty and does not begin with a w
    have hw := (List.cons_prefix_cons.mp hprefix).2
    cases hn : Spec.plain.integer n with
    | nil =>
      rw [hn] at hw
      exact absurd hw (by decide)
    | cons c rest =>
      rw [hn, List.cons_append, List.cons_prefix_cons] at hw
      have hc : c ∈ Spec.plain.integer n := by rw [hn]; exact List.mem_cons_self
      rw [← hw.1] at hc
      exact not_mem_plain_integer n (by decide) (by decide) hc
  · exact hend (infix_of_infix_append hblank hinfix)

theorem cutLine?_line (report : Report) :
    cutLine? report.line.toList =
      some (report.model.toList, Spec.plain.integer report.horsepower) := by
  have hcut := lastCut_of_not_infix ("Driving ".toList ++ report.model.toList)
    (not_infix_number report.horsepower)
  have hmodel : ("Driving ".toList ++ report.model.toList).dropPrefix? "Driving ".toList =
      some report.model.toList := List.dropPrefix?_append_of_beq _ (beq_self_eq_true _)
  have hnumber : (Spec.plain.integer report.horsepower ++ " HP engine".toList).dropSuffix?
      " HP engine".toList = some (Spec.plain.integer report.horsepower) :=
    List.dropSuffix?_eq_some_iff.mpr ⟨_, rfl, beq_self_eq_true _⟩
  rw [line_toList, List.append_assoc, cutLine?, splitLast?_eq_some_iff.mpr hcut]
  show (do
    let model ← ("Driving ".toList ++ report.model.toList).dropPrefix? "Driving ".toList
    let number ← (Spec.plain.integer report.horsepower ++ " HP engine".toList).dropSuffix?
      " HP engine".toList
    return (model, number)) = _
  rw [hmodel, hnumber]
  rfl

/-- `Report.line` is injective, and `cutLine?` reads the model and a decimal of the rating back from
it. -/
theorem line_lossless :
    (∀ a b : Report, a.line = b.line ↔ a = b) ∧
    ∀ report : Report, ∃ number,
      cutLine? report.line.toList = some (report.model.toList, number) ∧
        IsDecimal number ∧ decimalValue number = report.horsepower.toInt := by
  constructor
  · intro a b
    refine ⟨fun h => ?_, congrArg line⟩
    have hcut := cutLine?_line a
    rw [h, cutLine?_line b, Option.some.injEq, Prod.mk.injEq, String.toList_inj] at hcut
    have hvalue := congrArg decimalValue hcut.2
    rw [decimalValue_plain, decimalValue_plain, Int32.toInt_inj] at hvalue
    cases a
    cases b
    rw [mk.injEq]
    exact ⟨hcut.1.symm, hvalue.symm⟩
  · intro report
    exact ⟨_, cutLine?_line report, isDecimal_plain _, decimalValue_plain _⟩

end Report

end Garage
