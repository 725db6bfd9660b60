import Garage.Proofs.Line

/-!
# Text cut short

A writer with room for so many characters, given a text in fragments, ends with the first characters
of the text, as if it had been given the text in one piece. Its caller hears of a success exactly if
there was room for the whole text.

* `CharWriter.put_append_of_le`, `CharWriter.put_append_of_lt`: a text in two pieces.
* `CharWriter.writeEach_put`: a text in fragments.
* `displayWithin_eq`: a value displayed into such a writer.
* `Report.line_eq`: the line of a report, as the text that its reader sees.
-/

namespace Garage

open Format

namespace Format

namespace CharWriter

theorem put_of_le {writer : CharWriter} {text : List Char} (h : text.length ≤ writer.room) :
    writer.put text = (.ok (), ⟨writer.room - text.length, writer.text ++ text⟩) := by
  rw [put, if_pos h, List.take_of_length_le h]

theorem put_of_lt {writer : CharWriter} {text : List Char} (h : writer.room < text.length) :
    writer.put text = (.error (), ⟨0, writer.text ++ text.take writer.room⟩) := by
  rw [put, if_neg (Nat.not_le_of_lt h), Nat.sub_eq_zero_of_le (Nat.le_of_lt h)]

theorem put_append_of_le {writer : CharWriter} {text : List Char}
    (h : text.length ≤ writer.room) (more : List Char) :
    writer.put (text ++ more) =
      CharWriter.put ⟨writer.room - text.length, writer.text ++ text⟩ more := by
  have hlen : (text ++ more).length = text.length + more.length := List.length_append
  by_cases hmore : more.length ≤ writer.room - text.length
  · have hall : (text ++ more).length ≤ writer.room := by omega
    rw [put_of_le hall, put_of_le hmore, hlen, Nat.sub_sub, List.append_assoc]
  · have hall : writer.room < (text ++ more).length := by omega
    rw [put_of_lt hall, put_of_lt (Nat.lt_of_not_le hmore), List.take_append,
      List.take_of_length_le h, List.append_assoc]

theorem put_append_of_lt {writer : CharWriter} {text : List Char}
    (h : writer.room < text.length) (more : List Char) :
    writer.put (text ++ more) = writer.put text := by
  have hall : writer.room < (text ++ more).length := by
    rw [List.length_append]
    omega
  rw [put_of_lt h, put_of_lt hall, List.take_append_of_le_length (Nat.le_of_lt h)]

theorem writeEach_put (writer : CharWriter) (fragments : List (List Char)) :
    writeEach put writer fragments = writer.put fragments.flatten := by
  induction fragments generalizing writer with
  | nil =>
    rw [List.flatten_nil, put_of_le (Nat.zero_le _), List.append_nil]
    rfl
  | cons fragment rest ih =>
    rw [writeEach, List.flatten_cons]
    by_cases h : fragment.length ≤ writer.room
    · rw [put_append_of_le h, put_of_le h]
      exact ih _
    · have hlt := Nat.lt_of_not_le h
      rw [put_append_of_lt hlt, put_of_lt hlt]

end CharWriter

theorem displayWithin_eq {α : Type} [Display α] (room : Nat) (a : α) :
    displayWithin room a = (decide ((display .plain a).length ≤ room),
      String.ofList ((display .plain a).toList.take room)) := by
  have htext : (Display.fragments .plain a).flatten = (display .plain a).toList :=
    String.toList_ofList.symm
  rw [displayWithin, CharWriter.writeEach_put, htext, ← String.length_toList]
  by_cases h : (display .plain a).toList.length ≤ room
  · rw [CharWriter.put_of_le h, decide_eq_true h, List.take_of_length_le h]
    rfl
  · rw [CharWriter.put_of_lt (Nat.lt_of_not_le h), decide_eq_false h]
    rfl

end Format

namespace Report

theorem line_eq (report : Report) :
    report.line = "Driving " ++ report.model ++ " with " ++ toString report.horsepower.toInt ++
      " HP engine" := by
  rw [← String.toList_inj, line_toList, ← ofList_plain_integer]
  simp only [String.toList_append, String.toList_ofList]

/-- `displayWithin room` takes the first `room` characters of `Report.line` and succeeds iff it has
no more. The line is that of every spec. -/
theorem displayWithin_line (report : Report) (room : Nat) :
    (displayWithin room report).2.toList = report.line.toList.take room ∧
    ((displayWithin room report).1 = true ↔ report.line.length ≤ room) ∧
    report.line = "Driving " ++ report.model ++ " with " ++
      toString report.horsepower.toInt ++ " HP engine" ∧
    ∀ spec, display spec report = report.line := by
  have hline : display .plain report = report.line := rfl
  rw [displayWithin_eq, hline]
  refine ⟨String.toList_ofList, ?_, report.line_eq, fun _ => rfl⟩
  simp only [decide_eq_true_eq]

/-- Characters are counted, not bytes. -/
example : displayWithin 11 (⟨"🚗é€", -7⟩ : Report) = (false, "Driving 🚗é€") := by decide

end Report

end Garage
