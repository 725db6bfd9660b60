import Garage.Proofs.DebugText
import Garage.Proofs.NumberForms

/-!
# The rating in a debug text

The number options of a spec reach the rating of a thing and nothing else. The text around the
rating is a frame that only the layout decides: up to the label of the rating, and from the end of
the number on. A model is in the frame, so nothing in it is taken for a number.

* `Engine.text_eq`, `Report.text_eq`, `Car.text_eq`: debug texts as a frame and the rating.
* `Thing.exists_frame`: the frame of a thing, one for all ways to write numbers.
* `inspect_rating`: the frame under every named spec, and the form of the rating in it.
-/

namespace Garage

open Format

/-- The rating that a thing shows. -/
def Thing.rating : Thing → Int32
  | car a => a.engine.horsepower
  | engine a => a.horsepower
  | report a => a.horsepower

/-! ## Frames -/

namespace Format.Doc

theorem fieldLabel_suffix_front (name : String) (fields : List (String × Doc)) (label : String)
    (long : Bool) (depth : Nat) : fieldLabel label <:+ front name fields label long depth :=
  List.suffix_append ..

theorem mem_closing {long : Bool} {depth : Nat} {c : Char} (h : c ∈ closing long depth) :
    c ∈ [' ', ',', '\n', '\x7d'] := by
  cases long with
  | false =>
    rcases List.mem_pair.mp h with rfl | rfl
    · decide
    · decide
  | true =>
    rw [closing, List.mem_append, List.mem_append] at h
    rcases h with (hcomma | hbreak) | hbrace
    · rw [List.mem_singleton.mp hcomma]
      decide
    · rcases List.mem_cons.mp hbreak with rfl | hindent
      · decide
      · rw [List.eq_of_mem_replicate hindent]
        decide
    · rw [List.mem_singleton.mp hbrace]
      decide

end Format.Doc

section Texts

variable {number : Int32 → List Char} (long : Bool) (depth : Nat)

theorem Engine.text_eq (engine : Engine) :
    (Inspect.doc number engine).text long depth =
      Doc.front "Engine" [] "horsepower" long depth ++ number engine.horsepower ++
        Doc.closing long depth := by
  have htext : (Inspect.doc number engine).text long depth =
      Doc.front "Engine" [] "horsepower" long depth ++
        (Doc.word (number engine.horsepower)).text long (depth + 1) ++ Doc.closing long depth :=
    Doc.text_record_concat _ [] _ engine.filled long depth
  rw [htext, Doc.text_word]

theorem Report.text_eq (report : Report) :
    (Inspect.doc number report).text long depth =
      Doc.front "Report" [("model", .quoted report.model)] "horsepower" long depth ++
        number report.horsepower ++ Doc.closing long depth := by
  have htext : (Inspect.doc number report).text long depth =
      Doc.front "Report" [("model", .quoted report.model)] "horsepower" long depth ++
        (Doc.word (number report.horsepower)).text long (depth + 1) ++ Doc.closing long depth :=
    Doc.text_record_concat _ [_] _ report.filled long depth
  rw [htext, Doc.text_word]

theorem Car.text_eq (car : Car) :
    (Inspect.doc number car).text long depth =
      Doc.front "Car" [("model", .quoted car.model)] "engine" long depth ++
          Doc.front "Engine" [] "horsepower" long (depth + 1) ++ number car.engine.horsepower ++
        (Doc.closing long (depth + 1) ++ Doc.closing long depth) := by
  have htext : (Inspect.doc number car).text long depth =
      Doc.front "Car" [("model", .quoted car.model)] "engine" long depth ++
        (Inspect.doc number car.engine).text long (depth + 1) ++ Doc.closing long depth :=
    Doc.text_record_concat _ [_] _ car.filled long depth
  rw [htext, car.engine.text_eq]
  simp only [List.append_assoc]

end Texts

theorem Thing.exists_frame (thing : Thing) (long : Bool) :
    ∃ before after, Doc.fieldLabel "horsepower" <:+ before ∧
      (∀ c ∈ after, c ∈ [' ', ',', '\n', '\x7d']) ∧
      ∀ number, (Inspect.doc number thing).text long 0 =
        before ++ number thing.rating ++ after := by
  cases thing with
  | car car =>
    refine ⟨_, _, ?_, ?_, fun number => car.text_eq long 0⟩
    · exact (Doc.fieldLabel_suffix_front ..).trans (List.suffix_append ..)
    · intro c hc
      exact (List.mem_append.mp hc).elim Doc.mem_closing Doc.mem_closing
  | engine engine =>
    exact ⟨_, _, Doc.fieldLabel_suffix_front .., fun c => Doc.mem_closing,
      fun number => engine.text_eq long 0⟩
  | report report =>
    exact ⟨_, _, Doc.fieldLabel_suffix_front .., fun c => Doc.mem_closing,
      fun number => report.text_eq long 0⟩

/-- Under a spec of `Spec.debugSpecs`, `inspect` gives the text of `"?"` or `"#?"` with
`spec.integer` of the rating for its decimal, and this has the form that `Spec.debugForms` has for
the spec. -/
theorem inspect_rating {name : String} {spec : Spec} (h : Spec.debug? name = some spec) :
    ∃ form, (name, spec.alternate, form) ∈ Spec.debugForms ∧
      (∀ n, form.Holds n (spec.integer n)) ∧
      ∃ layout, Spec.debug? (if spec.alternate then "#?" else "?") = some layout ∧
        ∀ thing : Thing, ∃ before after : String,
          Doc.fieldLabel "horsepower" <:+ before.toList ∧
          (∀ c ∈ after.toList, c ∈ [' ', ',', '\n', '\x7d']) ∧
          inspect layout thing = before ++ toString thing.rating.toInt ++ after ∧
          inspect spec thing = before ++ String.ofList (spec.integer thing.rating) ++ after := by
  have hlayout : Spec.debug? (if spec.alternate then "#?" else "?") =
      some { alternate := spec.alternate } := by
    cases spec.alternate <;> decide
  refine ⟨spec.form, Spec.mem_debugForms h, Spec.holds_form (Spec.oneOption_of_debug? h), _,
    hlayout, fun thing => ?_⟩
  obtain ⟨before, after, hlabel, hclosing, htext⟩ := thing.exists_frame spec.alternate
  have hinspect : ∀ spec' : Spec, spec'.alternate = spec.alternate → inspect spec' thing =
      String.ofList before ++ String.ofList (spec'.integer thing.rating) ++ String.ofList after := by
    intro spec' hlong
    rw [← String.toList_inj, Doc.toList_inspect, hlong, htext]
    simp only [String.toList_append, String.toList_ofList]
  refine ⟨String.ofList before, String.ofList after, ?_, ?_, ?_, hinspect spec rfl⟩
  · rwa [String.toList_ofList]
  · rwa [String.toList_ofList]
  · rw [hinspect { alternate := spec.alternate } rfl, ← ofList_plain_integer]
    rfl

/-- A model that ends as the debug text of a report rated `-7` does. -/
theorem inspect_rating_stars :
    Spec.debug? "*^9?" = some { fill := '*', align := some .centre, width := 9 } ∧
      (NumberForm.filled '*' .centre 9).Holds (-7) "***-7****".toList ∧
      ∃ before after : String,
        inspect {} (Thing.report ⟨"200\", horsepower: -7 \x7d", -7⟩) =
          before ++ "-7" ++ after ∧
        inspect { fill := '*', align := some .centre, width := 9 }
            (Thing.report ⟨"200\", horsepower: -7 \x7d", -7⟩) =
          before ++ "***-7****" ++ after := by
  have hspec : Spec.debug? "*^9?" =
      some { fill := '*', align := some .centre, width := 9 } := by decide
  obtain ⟨form, hform, hholds, layout, hlayout, hthing⟩ := inspect_rating hspec
  have hfilled : form = .filled '*' .centre 9 := by
    simpa [Spec.debugForms] using hform
  have hcompact : layout = {} := Option.some.inj (hlayout.symm.trans rfl)
  subst hfilled hcompact
  obtain ⟨before, after, -, -, hplain, hstars⟩ :=
    hthing (.report ⟨"200\", horsepower: -7 \x7d", -7⟩)
  exact ⟨hspec, hholds (-7), before, after, hplain, hstars⟩

end Garage
