import Mathlib.Data.List.DropRight
import Garage.Proofs.DriveLog

/-!
# Whole characters

A sink counts bytes, so it may cut a line amid a character. That is all it can do to the text: what
it holds is the beginning of the lines in UTF-8, and without three bytes at most it can be read.

* `driveText`: the lines of cars as a text. Its bytes are the log of the drives
  (`utf8_driveText`).
* `readable_sinkAfter`: what can be read of a sink after every call of a run.
-/

namespace Garage

open Format

/-- The lines of drives as a text. -/
def driveText (cars : List Car) : String :=
  String.join (cars.map fun car => display .plain car.report ++ "\n")

theorem driveText_cons (car : Car) (cars : List Car) :
    driveText (car :: cars) = display .plain car.report ++ "\n" ++ driveText cars := by
  rw [driveText, List.map_cons, String.join_cons]
  rfl

theorem utf8_driveText (cars : List Car) : utf8 (driveText cars).toList = driveLog cars := by
  induction cars with
  | nil => rfl
  | cons car rest ih =>
    have hline : utf8 (display .plain car.report ++ "\n").toList = car.lineBytes := by
      rw [String.toList_append]
      exact car.report.lineBytes_eq_utf8.symm
    rw [driveText_cons, String.toList_append, utf8_append, hline, ih, driveLog_cons]

/-- Less three bytes at most, `held` is the UTF-8 encoding of a prefix of `driveText`, and of
`driveText` itself as long as no call has an `.error`. -/
theorem readable_sinkAfter (script : Script) (limit : Option Nat) (cars : List Car) (k : Nat) :
    (∃ dropped ≤ 3, ∃ text : String, text.toList <+: (driveText (cars.take k)).toList ∧
      String.fromUTF8?
          ⟨((sinkAfter cars (.fresh script limit) k).held.toList.rdrop dropped).toArray⟩ =
        some text) ∧
    ((∀ i < k, ∀ error, (driveEach cars (.fresh script limit)).value.1[i]? ≠ some (.error error)) →
      String.fromUTF8? ⟨(sinkAfter cars (.fresh script limit) k).held⟩ =
        some (driveText (cars.take k))) := by
  constructor
  · have hprefix : (sinkAfter cars (.fresh script limit) k).held.toList <+:
        utf8 (driveText (cars.take k)).toList := by
      rw [held_sinkAfter_fresh, utf8_driveText, upTo_eq_take]
      exact List.take_prefix _ _
    obtain ⟨text, cut, htext, hcut, hheld⟩ := exists_text_of_prefix_utf8 hprefix
    refine ⟨cut.length, hcut, String.ofList text, ?_, ?_⟩
    · rwa [String.toList_ofList]
    · rw [hheld, List.rdrop_append_length, fromUTF8?_utf8]
  · intro hok
    have hfits := (Sink.fits_fresh script limit _).mp (fits_driveLog hok)
    have hheld : (sinkAfter cars (.fresh script limit) k).held =
        (utf8 (driveText (cars.take k)).toList).toArray := by
      rw [← Array.toList_inj, held_sinkAfter_fresh, upTo_of_length_le hfits, utf8_driveText]
    rw [hheld, fromUTF8?_utf8, String.ofList_toList]

end Garage
