import Garage.Proofs.Writing

/-!
# Bytes in fragments

Bytes that are handed over in fragments meet other calls than in one piece, and other interruptions.
Nothing of this shows: the writer hears the same, and the sink is the same but for the number of
calls made.

* `Sink.interruptedCalls`: the calls that were interrupted on the way.
* `Sink.writeEach_writeAll_flatten`: fragments next to one piece.
-/

namespace Garage

open Format

namespace Sink

/-- The numbers of the calls between two states of a sink that were interrupted. -/
def interruptedCalls (before after : Sink) : List Nat :=
  (List.range' (before.calls + 1) (after.calls - before.calls)).filter before.script.interrupts

/-- `writeAll` on one fragment after the other and on their concatenation have one result and leave
one sink but for `calls`. The calls can differ, and so can `interruptedCalls`. -/
theorem writeEach_writeAll_flatten :
    (∀ (sink : Sink) (fragments : List (List UInt8)),
      (writeEach writeAll sink fragments).1 = (sink.writeAll fragments.flatten).1 ∧
      (writeEach writeAll sink fragments).2.held = (sink.writeAll fragments.flatten).2.held ∧
      ∃ calls, (writeEach writeAll sink fragments).2 =
        { (sink.writeAll fragments.flatten).2 with calls }) ∧
    ∃ (sink : Sink) (fragments : List (List UInt8)),
      (writeEach writeAll sink fragments).2.calls ≠ (sink.writeAll fragments.flatten).2.calls ∧
      sink.interruptedCalls (writeEach writeAll sink fragments).2 ≠
        sink.interruptedCalls (sink.writeAll fragments.flatten).2 := by
  constructor
  · intro sink fragments
    obtain ⟨hresult, hfilled⟩ := writeEach_writeAll_spec sink fragments
    obtain ⟨hresult', hfilled'⟩ := writeAll_spec sink fragments.flatten
    have hsame := hfilled.eq_of_filled hfilled'
    refine ⟨hresult.trans hresult'.symm, ?_, _, hsame⟩
    rw [hsame]
  · -- the second byte alone needs a call of its own, which comes after an interrupted one
    refine ⟨{ script := { interruptEvery := 2 } }, [[1], [], [2]], ?_, ?_⟩
    · decide +kernel
    · decide +kernel

end Sink

end Garage
