import Garage.Proofs.DebugText
import Garage.Proofs.Driving

/-!
# What the caller of a failed drive is told

A drive whose line does not fit fails with the error of the sink itself, wherever in the line the
room ends. On its way to the caller the error passes the loop over the bytes, which also meets
interruptions, and the writing of fragments, which could do no more than say that it failed; neither
puts an error of its own in its place.

* `Refusal.kind_error_ne`: the error of a full sink is no interruption.
* `FormatterError`: what a text that failed on its own would leave. No error of an output has its
  debug text (`DriveError.inspect_ne_formatterError`).
* `DriveError.inspect_write_eq_iff`: the debug text of a drive error tells its source.
-/

namespace Garage

open Format

theorem Refusal.kind_error_ne (refusal : Refusal) : refusal.error.kind ≠ .interrupted := by
  cases refusal with
  | takeNothing => decide
  | fail error hk => exact hk

/-- The error of writing a text that failed on its own, with no error of the output behind it. -/
structure FormatterError where
  kind : ErrorKind
  deriving DecidableEq, Repr

instance : Inspect FormatterError where
  doc _ error := .tuple "Write" (.record "Error"
    [("kind", .word error.kind.name.toList), ("message", .quoted "formatter error")])

theorem DriveError.text_ne_formatterError {number : Int32 → List Char} {long : Bool} {depth : Nat}
    (error : DriveError) (other : FormatterError) :
    (Inspect.doc number error).text long depth ≠ (Inspect.doc number other).text long depth := by
  obtain ⟨source⟩ := error
  intro h
  have hfilled : Doc.Filled [("kind", Doc.word other.kind.name.toList),
      ("message", Doc.quoted "formatter error")] := by
    simp [Doc.Filled, Doc.quoted, Doc.word]
  have hsource := Doc.text_tuple_inj source.lines_ne_nil (by simp [Doc.record]) h
  have hform : source.form = "Error" := by
    apply String.toList_inj.mp
    rw [← source.takeWhile_text, hsource]
    exact Doc.takeWhile_text_record rfl hfilled
  cases source with
  | custom _ _ | bare _ | os _ => simp [IoError.form] at hform
  | shortWrite =>
    -- The forms agree, and the kinds may; the messages do not.
    have hfields := Doc.text_record_inj (by simp [Doc.Filled, Doc.quoted, Doc.word]) hfilled hsource
    obtain ⟨-, hrest⟩ := Doc.fieldsText_cons_inj ErrorKind.delimited_name hfields
    have hmessage := Doc.fieldsText_singleton_inj delimited_quote.injective hrest
    exact absurd hmessage (by decide)

theorem DriveError.inspect_ne_formatterError (spec : Spec) (error : DriveError)
    (other : FormatterError) : inspect spec error ≠ inspect spec other :=
  fun h => error.text_ne_formatterError other (Doc.text_eq_of_inspect_eq h)

theorem DriveError.inspect_write_eq_iff {name : String} {spec : Spec}
    (h : Spec.debug? name = some spec) (a b : IoError) :
    inspect spec (write a) = inspect spec (write b) ↔ a = b := by
  constructor
  · intro heq
    exact write.inj (eq_of_text_eq (Spec.delimited_integer h) (Doc.text_eq_of_inspect_eq heq))
  · rintro rfl
    rfl

/-- If the line is longer than the room, the source of the `DriveError` is the error of `refusal`,
or `.shortWrite` for `.takeNothing`. It is no interruption, and under a spec of `Spec.debugSpecs`
its debug text is that of no other source and of no `FormatterError`. -/
theorem Car.driveTo_refused {car : Car} {sink : Sink} {room : Nat} (hroom : sink.room = some room)
    (hlt : room < car.lineBytes.length) :
    ∃ source, (car.driveTo sink).value.1 = .error (.write source) ∧
      (∀ error hk, sink.script.refusal = .fail error hk → source = error) ∧
      (sink.script.refusal = .takeNothing →
        source = .shortWrite ∧ source.kind = .writeZero ∧ source.osCode? = none ∧
          display .plain source = "failed to write whole buffer") ∧
      source.kind ≠ .interrupted ∧
      ∀ name spec, Spec.debug? name = some spec →
        (∀ error : IoError,
          inspect spec (DriveError.write source) = inspect spec (DriveError.write error) ↔
            source = error) ∧
        ∀ kind, inspect spec (DriveError.write source) ≠ inspect spec (FormatterError.mk kind) := by
  have hfits : ¬ sink.Fits car.lineBytes.length :=
    fun h => Nat.not_le_of_lt hlt (h room hroom)
  refine ⟨sink.script.refusal.error, driveTo_error hfits, ?_, ?_, Refusal.kind_error_ne _, ?_⟩
  · intro error hk hrefusal
    rw [hrefusal]
    rfl
  · intro hrefusal
    rw [hrefusal]
    exact ⟨rfl, rfl, rfl, rfl⟩
  · intro name spec hspec
    exact ⟨fun error => DriveError.inspect_write_eq_iff hspec _ error,
      fun kind => DriveError.inspect_ne_formatterError spec _ ⟨kind⟩⟩

/-- The room ends within `'🚗'`, and the message of the error is that of an interruption. -/
theorem Car.driveTo_refused_amid_character :
    ∃ sink : Sink, sink.script.chunk = some 3 ∧ sink.script.interruptEvery = 2 ∧
      sink.room = some 12 ∧ 12 < (Car.ofModel "ab🚗").lineBytes.length ∧
      ((Car.ofModel "ab🚗").driveTo sink).value.1 =
        .error (.write (.custom .brokenPipe "operation interrupted")) ∧
      Spec.debug? "#x?" = some { alternate := true, radix := .lowerHex } ∧
      inspect { alternate := true, radix := .lowerHex }
          (DriveError.write (.custom .brokenPipe "operation interrupted")) ≠
        inspect { alternate := true, radix := .lowerHex }
          (DriveError.write (.bare .interrupted)) := by
  have hroom : (Sink.mk ⟨some 3, by simp, 2, by decide,
      .fail (.custom .brokenPipe "operation interrupted") (by decide)⟩ (some 13) #[0x0A] 1 0).room =
        some 12 := rfl
  have hlt : 12 < (Car.ofModel "ab🚗").lineBytes.length := by
    rw [length_lineBytes]
    decide
  obtain ⟨source, hresult, hown, -, -, hdebug⟩ := driveTo_refused hroom hlt
  obtain rfl := hown _ _ rfl
  have hspec : Spec.debug? "#x?" = some { alternate := true, radix := .lowerHex } := by decide
  obtain ⟨htext, -⟩ := hdebug "#x?" _ hspec
  exact ⟨_, rfl, rfl, hroom, hlt, hresult, hspec, mt (htext _).mp (by decide)⟩

end Garage
