import Garage.Drive
import Garage.Proofs.Layout
import Garage.Proofs.NumberText
import Garage.Thing

/-!
# Debug texts tell values apart

Under every named spec, two values have the same debug text only if they are the same. A text starts
with the name of the form of its value, which tells the forms apart; behind it come the fields under
fixed labels. The text of every field but the last is delimited by the comma behind it, and the last
one by the fixed closing.

* `Car.eq_of_text_eq` and its like: no two values of one type have the same text.
* `Inspected`: the values with a debug text. No two of them have the same one (`inspect_eq_iff`).
-/

namespace Garage

open Format

/-! ## Names and codes -/

theorem ErrorKind.name_injective : Function.Injective ErrorKind.name := by
  have hfind : ∀ kind : ErrorKind, (named ++ [inputOutputError, uncategorized]).find?
      (·.name == kind.name) = some kind := by
    intro kind
    cases kind <;> rfl
  intro kind kind' heq
  rw [← Option.some.injEq, ← hfind kind, heq, hfind kind']

theorem ErrorKind.delimited_name : Delimited ',' fun kind : ErrorKind => kind.name.toList := by
  refine delimited_of_notMem (fun kind => ?_) fun kind kind' heq =>
    name_injective (String.toList_inj.mp heq)
  cases kind <;> simp [name]

theorem SystemFault.code_injective : Function.Injective SystemFault.code := by
  have hcode : ∀ fault : SystemFault, ofCode? fault.code.toInt = some fault := by
    intro fault
    cases fault <;> rfl
  intro fault fault' heq
  rw [← Option.some.injEq, ← hcode fault, heq, hcode fault']

/-! ## Values of one type -/

section Values

open Doc (Filled word quoted fieldsText text_record_inj text_tuple_inj fieldsText_singleton_inj
  fieldsText_cons_inj)

variable {number : Int32 → List Char} {long : Bool} {depth : Nat}

theorem Engine.filled (engine : Engine) :
    Filled [("horsepower", word (number engine.horsepower))] := by
  simp [Filled, word]

theorem Engine.eq_of_text_eq (hnumber : Delimited ',' number) {a b : Engine}
    (h : (Inspect.doc number a).text long depth = (Inspect.doc number b).text long depth) :
    a = b := by
  have hfields := text_record_inj a.filled b.filled h
  obtain ⟨horsepower⟩ := a
  obtain ⟨horsepower'⟩ := b
  exact congrArg Engine.mk (fieldsText_singleton_inj hnumber.injective hfields)

theorem Car.filled (car : Car) :
    Filled [("model", quoted car.model), ("engine", Inspect.doc number car.engine)] := by
  simp [Filled, quoted, word, Inspect.doc, Doc.record]

theorem Car.eq_of_text_eq {a b : Car}
    (h : (Inspect.doc number a).text long depth = (Inspect.doc number b).text long depth) :
    a = b := by
  obtain ⟨hmodel, -⟩ := fieldsText_cons_inj delimited_quote (text_record_inj a.filled b.filled h)
  obtain ⟨model, engine, rfl⟩ := a
  obtain ⟨model', engine', rfl⟩ := b
  exact congrArg Car.ofModel hmodel

theorem Report.filled (report : Report) :
    Filled [("model", quoted report.model), ("horsepower", word (number report.horsepower))] := by
  simp [Filled, quoted, word]

theorem Report.eq_of_text_eq (hnumber : Delimited ',' number) {a b : Report}
    (h : (Inspect.doc number a).text long depth = (Inspect.doc number b).text long depth) :
    a = b := by
  obtain ⟨hmodel, hrest⟩ :=
    fieldsText_cons_inj delimited_quote (text_record_inj a.filled b.filled h)
  have hhorsepower := fieldsText_singleton_inj hnumber.injective hrest
  obtain ⟨model, horsepower⟩ := a
  obtain ⟨model', horsepower'⟩ := b
  obtain rfl : model = model' := hmodel
  obtain rfl : horsepower = horsepower' := hhorsepower
  rfl

/-! ### Errors -/

/-- The name of the form of an error, which its debug text starts with. -/
def IoError.form : IoError → String
  | custom .. => "Custom"
  | bare _ => "Kind"
  | os _ => "Os"
  | shortWrite => "Error"

theorem IoError.takeWhile_text (error : IoError) :
    ((Inspect.doc number error).text long depth).takeWhile Char.isAlpha = error.form.toList := by
  cases error with
  | custom kind message =>
    exact Doc.takeWhile_text_record rfl (by simp [Filled, quoted, word])
  | bare kind => exact Doc.takeWhile_text_tuple rfl (by simp [word])
  | os fault => exact Doc.takeWhile_text_record rfl (by simp [Filled, quoted, word])
  | shortWrite => exact Doc.takeWhile_text_record rfl (by simp [Filled, quoted, word])

theorem IoError.eq_of_text_eq (hnumber : Delimited ',' number) {a b : IoError}
    (h : (Inspect.doc number a).text long depth = (Inspect.doc number b).text long depth) :
    a = b := by
  have hform : a.form = b.form := by
    apply String.toList_inj.mp
    rw [← takeWhile_text a, h, takeWhile_text]
  cases a with
  | custom kind message =>
    cases b with
    | custom kind' message' =>
      have hfields := text_record_inj (by simp [Filled, quoted, word])
        (by simp [Filled, quoted, word]) h
      obtain ⟨rfl, hrest⟩ := fieldsText_cons_inj ErrorKind.delimited_name hfields
      rw [fieldsText_singleton_inj delimited_quote.injective hrest]
    | bare _ | os _ | shortWrite => simp [form] at hform
  | bare kind =>
    cases b with
    | bare kind' =>
      have hkind := text_tuple_inj (by simp [word]) (by simp [word]) h
      rw [Doc.text_word, Doc.text_word] at hkind
      rw [ErrorKind.delimited_name.injective hkind]
    | custom _ _ | os _ | shortWrite => simp [form] at hform
  | os fault =>
    cases b with
    | os fault' =>
      have hfields := text_record_inj (by simp [Filled, quoted, word])
        (by simp [Filled, quoted, word]) h
      -- The code says which fault it is; kind and message only follow from it.
      obtain ⟨hcode, -⟩ := fieldsText_cons_inj hnumber hfields
      rw [SystemFault.code_injective hcode]
    | custom _ _ | bare _ | shortWrite => simp [form] at hform
  | shortWrite =>
    cases b with
    | shortWrite => rfl
    | custom _ _ | bare _ | os _ => simp [form] at hform

theorem IoError.lines_ne_nil (error : IoError) : (Inspect.doc number error).lines ≠ [] := by
  cases error <;> simp [Inspect.doc, Doc.record, Doc.tuple]

theorem DriveError.eq_of_text_eq (hnumber : Delimited ',' number) {a b : DriveError}
    (h : (Inspect.doc number a).text long depth = (Inspect.doc number b).text long depth) :
    a = b := by
  obtain ⟨source⟩ := a
  obtain ⟨source'⟩ := b
  have hsource := text_tuple_inj source.lines_ne_nil source'.lines_ne_nil h
  rw [IoError.eq_of_text_eq hnumber hsource]

/-! ### Things -/

/-- The name of the form of a thing, which its debug text starts with. -/
def Thing.form : Thing → String
  | car _ => "Car"
  | engine _ => "Engine"
  | report _ => "Report"

theorem Thing.takeWhile_text (thing : Thing) :
    ((Inspect.doc number thing).text long depth).takeWhile Char.isAlpha = thing.form.toList := by
  cases thing with
  | car car => exact Doc.takeWhile_text_record rfl car.filled
  | engine engine => exact Doc.takeWhile_text_record rfl engine.filled
  | report report => exact Doc.takeWhile_text_record rfl report.filled

theorem Thing.eq_of_text_eq (hnumber : Delimited ',' number) {a b : Thing}
    (h : (Inspect.doc number a).text long depth = (Inspect.doc number b).text long depth) :
    a = b := by
  have hform : a.form = b.form := by
    apply String.toList_inj.mp
    rw [← takeWhile_text a, h, takeWhile_text]
  cases a with
  | car a =>
    cases b with
    | car b => rw [Car.eq_of_text_eq h]
    | engine _ | report _ => simp [form] at hform
  | engine a =>
    cases b with
    | engine b => rw [Engine.eq_of_text_eq hnumber h]
    | car _ | report _ => simp [form] at hform
  | report a =>
    cases b with
    | report b => rw [Report.eq_of_text_eq hnumber h]
    | car _ | engine _ => simp [form] at hform

/-! ### All values -/

/-- The values with a debug text that a caller can ask for. -/
inductive Inspected where
  | thing (thing : Thing)
  | driveError (error : DriveError)
  deriving DecidableEq, Repr

instance : Inspect Inspected where
  doc number value := match value with
    | .thing thing => Inspect.doc number thing
    | .driveError error => Inspect.doc number error

theorem Thing.text_ne_driveError (thing : Thing) (error : DriveError) :
    (Inspect.doc number thing).text long depth ≠ (Inspect.doc number error).text long depth := by
  obtain ⟨source⟩ := error
  intro h
  have herror : ((Inspect.doc number (DriveError.write source)).text long depth).takeWhile
      Char.isAlpha = "Write".toList :=
    Doc.takeWhile_text_tuple rfl source.lines_ne_nil
  rw [← h, takeWhile_text, String.toList_inj] at herror
  cases thing <;> simp [form] at herror

theorem Inspected.eq_of_text_eq (hnumber : Delimited ',' number) {a b : Inspected}
    (h : (Inspect.doc number a).text long depth = (Inspect.doc number b).text long depth) :
    a = b := by
  cases a with
  | thing a =>
    cases b with
    | thing b => rw [Thing.eq_of_text_eq hnumber h]
    | driveError b => exact absurd h (a.text_ne_driveError b)
  | driveError a =>
    cases b with
    | thing b => exact absurd h.symm (b.text_ne_driveError a)
    | driveError b => rw [DriveError.eq_of_text_eq hnumber h]

end Values

/-! ## The named specs -/

theorem Format.Spec.delimited_integer {name : String} {spec : Spec}
    (h : Spec.debug? name = some spec) : Delimited ',' spec.integer := by
  -- Places are filled with blanks or stars, which no number contains.
  have hfill : ∀ entry ∈ Spec.debugSpecs,
      isNumeric entry.2.radix entry.2.fill = false ∧ entry.2.fill ≠ ',' := by
    decide
  have hmem := Spec.mem_debugSpecs h
  exact delimited_of_notMem (Spec.comma_not_mem_integer (hfill _ hmem).2)
    fun _ _ => Spec.integer_injective (hfill _ hmem).1

/-- Under a spec of `Spec.debugSpecs`, `inspect` is injective on engines, cars, reports and drive
errors together. -/
theorem inspect_eq_iff {name : String} {spec : Spec} (h : Spec.debug? name = some spec)
    (a b : Inspected) : inspect spec a = inspect spec b ↔ a = b := by
  constructor
  · intro heq
    have htext := congrArg String.toList heq
    rw [Doc.toList_inspect, Doc.toList_inspect] at htext
    exact Inspected.eq_of_text_eq (Spec.delimited_integer h) htext
  · rintro rfl
    rfl

/-- A model that ends as the debug text of a report rated `-7` does, stars included. -/
theorem inspect_eq_iff_stars :
    Spec.debug? "*^9?" = some { fill := '*', align := some .centre, width := 9 } ∧
      (inspect { fill := '*', align := some .centre, width := 9 }
          (Inspected.thing (.report ⟨"\\\", horsepower: ***-7****", 200⟩)) =
        inspect { fill := '*', align := some .centre, width := 9 }
          (Inspected.thing (.report ⟨"\\", -7⟩)) ↔
        Inspected.thing (.report ⟨"\\\", horsepower: ***-7****", 200⟩) =
          Inspected.thing (.report ⟨"\\", -7⟩)) :=
  ⟨by decide, @inspect_eq_iff "*^9?" _ (by decide) _ _⟩

end Garage
