import Garage.Proofs.Driving

/-!
# How often a drive calls its sink

A drive repeats the calls that are interrupted, and no number of calls is set to it. On a sink it
comes to its end all the same: the call after an interrupted one takes a byte or ends the writing,
so that a line takes two calls for each of its bytes at most.

* `writeAllWithin`, `writeEachWithin`, `Car.driveToWithin`: the loops on any writer, with a number
  of calls that they may make. It is this number that ends them, whatever the writer does.
* `Sink.calls_writeAll`, `Sink.calls_writeEach`: how many calls bytes take on a sink.
* `Sink.writeAllWithin_eq`, `Sink.writeEachWithin_eq`, `Car.driveToWithin_eq`: with the number of
  calls that are made without one, the loops come to the same; with a smaller one, to nothing.
* `Sink.worst`: a sink on which bytes take as many calls as they can.
* `Sink.interruptAll`: calls of which each is interrupted, as no script has it.
-/

namespace Garage

open Format

/-! ## Loops with a number of calls -/

section Within

variable {σ : Type} (write : σ → List UInt8 → Except IoError Nat × σ)

/-- Writes until all bytes are taken or an error ends it, with so many calls at most: what it came
to and the calls left, or nothing if it was not done with them. -/
def writeAllWithin (calls : Nat) (writer : σ) (bytes : List UInt8) :
    Option ((Except IoError Unit × σ) × Nat) :=
  if bytes = [] then
    some ((.ok (), writer), calls)
  else
    match calls with
    | 0 => none
    | calls + 1 =>
      match write writer bytes with
      | (.ok 0, writer) => some ((.error .shortWrite, writer), calls)
      | (.ok (n + 1), writer) => writeAllWithin calls writer (bytes.drop (n + 1))
      | (.error error, writer) =>
        if error.kind = .interrupted then writeAllWithin calls writer bytes
        else some ((.error error, writer), calls)

/-- Writes fragments in order up to the first error, with so many calls for all of them. -/
def writeEachWithin : Nat → σ → List (List UInt8) → Option ((Except IoError Unit × σ) × Nat)
  | calls, writer, [] => some ((.ok (), writer), calls)
  | calls, writer, fragment :: rest =>
    match writeAllWithin write calls writer fragment with
    | some ((.ok (), writer), calls) => writeEachWithin calls writer rest
    | outcome => outcome

/-- Drives to a writer that may be called so often. -/
def Car.driveToWithin (car : Car) (calls : Nat) (writer : σ) :
    Option (Except DriveError Unit × σ) :=
  (writeEachWithin write calls writer (car.report.lineFragments.map utf8)).map
    fun ((result, writer), _) => (result.mapError .write, writer)

variable {write} {writer : σ} {bytes : List UInt8}

theorem writeAllWithin_nil (calls : Nat) :
    writeAllWithin write calls writer [] = some ((.ok (), writer), calls) := by
  rw [writeAllWithin.eq_def, if_pos rfl]

theorem writeAllWithin_zero (hb : bytes ≠ []) : writeAllWithin write 0 writer bytes = none := by
  rw [writeAllWithin, if_neg hb]

theorem writeAllWithin_succ (hb : bytes ≠ []) (calls : Nat) :
    writeAllWithin write (calls + 1) writer bytes = match write writer bytes with
      | (.ok 0, after) => some ((.error .shortWrite, after), calls)
      | (.ok (n + 1), after) => writeAllWithin write calls after (bytes.drop (n + 1))
      | (.error error, after) =>
        if error.kind = .interrupted then writeAllWithin write calls after bytes
        else some ((.error error, after), calls) := by
  rw [writeAllWithin, if_neg hb]

end Within

namespace Sink

/-! ## The number of calls -/

theorem calls_writeAll_of_ne_nil (sink : Sink) {bytes : List UInt8} :
    bytes ≠ [] → sink.calls < (sink.writeAll bytes).2.calls ∧
      (sink.writeAll bytes).2.calls < sink.calls + 2 * bytes.length + sink.stall := by
  induction sink, bytes using writeAll_induction with
  | nil sink => exact fun hb => absurd rfl hb
  | refused sink bytes hb hr =>
    intro _
    have hpos := List.length_pos_iff.mpr hb
    simp only [calls_called]
    omega
  | interrupted sink bytes hb hs hs' ih =>
    intro _
    have hrest := ih hb
    rw [calls_called] at hrest
    omega
  | taken sink bytes n hpos hn hfits ih =>
    intro _
    have hstall := stall_le_one (sink.took (bytes.take n))
    by_cases hrest : bytes.drop n = []
    · rw [hrest, writeAll_nil, calls_took]
      omega
    · have hlater := ih hrest
      rw [calls_took, List.length_drop] at hlater
      omega

theorem calls_writeAll (sink : Sink) (bytes : List UInt8) :
    sink.calls ≤ (sink.writeAll bytes).2.calls ∧
      (sink.writeAll bytes).2.calls ≤ sink.calls + 2 * bytes.length := by
  by_cases hb : bytes = []
  · rw [hb, writeAll_nil]
    exact ⟨Nat.le_refl _, Nat.le_add_right _ _⟩
  · have hcalls := sink.calls_writeAll_of_ne_nil hb
    have hstall := sink.stall_le_one
    omega

theorem calls_writeEach (sink : Sink) (fragments : List (List UInt8)) :
    sink.calls ≤ (writeEach writeAll sink fragments).2.calls ∧
      (writeEach writeAll sink fragments).2.calls ≤
        sink.calls + 2 * fragments.flatten.length := by
  induction fragments generalizing sink with
  | nil => exact ⟨Nat.le_refl _, Nat.le_add_right _ _⟩
  | cons fragment rest ih =>
    have hfirst := sink.calls_writeAll fragment
    rw [List.flatten_cons, List.length_append, writeEach]
    generalize sink.writeAll fragment = written at hfirst ⊢
    obtain ⟨result, after⟩ := written
    have hrest := ih after
    cases result <;> simp only at hfirst ⊢ <;> omega

/-! ## The loops with a number and without one -/

/-- What writing came to, and the calls left up to the last one allowed, if that was not passed. -/
def inTime (last : Nat) (outcome : Except IoError Unit × Sink) :
    Option ((Except IoError Unit × Sink) × Nat) :=
  if outcome.2.calls ≤ last then some (outcome, last - outcome.2.calls) else none

theorem inTime_add (calls : Nat) (outcome : Except IoError Unit × Sink) :
    inTime (outcome.2.calls + calls) outcome = some (outcome, calls) := by
  rw [inTime, if_pos (Nat.le_add_right _ _), Nat.add_sub_cancel_left]

theorem writeAllWithin_eq (calls : Nat) (sink : Sink) (bytes : List UInt8) :
    writeAllWithin write calls sink bytes = inTime (sink.calls + calls) (sink.writeAll bytes) := by
  have hnil (calls : Nat) (sink : Sink) :
      writeAllWithin write calls sink [] = inTime (sink.calls + calls) (sink.writeAll []) := by
    rw [writeAllWithin_nil, writeAll_nil, ← inTime_add]
  -- each call made is one less to make, so both loops are followed call by call
  induction calls generalizing sink bytes with
  | zero =>
    by_cases hb : bytes = []
    · rw [hb, hnil]
    have hcalls := sink.calls_writeAll_of_ne_nil hb
    rw [writeAllWithin_zero hb, inTime, if_neg (by omega)]
  | succ calls ih =>
    by_cases hb : bytes = []
    · rw [hb, hnil]
    have hsucc : sink.calls + (calls + 1) = sink.calls + 1 + calls := by omega
    rw [writeAllWithin_succ hb, writeAll_eq sink hb, hsucc]
    rcases sink.write_cases hb with ⟨-, hw⟩ | ⟨-, hw⟩ | ⟨n, hpos, -, -, hw⟩
    · rw [hw]
      exact ih sink.called bytes
    · rw [hw, refuse]
      cases sink.script.refusal with
      | takeNothing => exact (inTime_add calls (.error .shortWrite, sink.called)).symm
      | fail error hk =>
        simp only [if_neg hk]
        exact (inTime_add calls (.error error, sink.called)).symm
    · obtain _ | k := n
      · omega
      rw [hw]
      exact ih (sink.took (bytes.take (k + 1))) (bytes.drop (k + 1))

theorem writeEachWithin_eq (calls : Nat) (sink : Sink) (fragments : List (List UInt8)) :
    writeEachWithin write calls sink fragments =
      inTime (sink.calls + calls) (writeEach writeAll sink fragments) := by
  induction fragments generalizing calls sink with
  | nil => rw [writeEachWithin, writeEach, ← inTime_add]
  | cons fragment rest ih =>
    rw [writeEachWithin, writeEach, writeAllWithin_eq]
    generalize sink.writeAll fragment = written
    obtain ⟨result, after⟩ := written
    by_cases hlast : after.calls ≤ sink.calls + calls
    · have hleft : after.calls + (sink.calls + calls - after.calls) = sink.calls + calls := by omega
      rw [inTime, if_pos hlast]
      cases result with
      | error error => simp only [inTime, if_pos hlast]
      | ok => simp only [ih, hleft]
    · -- no later fragment gives calls back
      have hmore := after.calls_writeEach rest
      have hlater : ¬ (writeEach writeAll after rest).2.calls ≤ sink.calls + calls := by omega
      rw [inTime, if_neg hlast]
      cases result with
      | error error => simp only [inTime, if_neg hlast]
      | ok => simp only [inTime, if_neg hlater]

/-! ## The most calls that bytes can take -/

/-- A sink that takes one byte at a time and interrupts every second call, the next one first. -/
def worst (held : List UInt8) (rounds : Nat) : Sink where
  script := { chunk := some 1, interruptEvery := 2 }
  held := held.toArray
  calls := 2 * rounds + 1

theorem writeAll_worst (held : List UInt8) (rounds : Nat) (bytes : List UInt8) :
    (worst held rounds).writeAll bytes =
      (.ok (), worst (held ++ bytes) (rounds + bytes.length)) := by
  induction bytes generalizing held rounds with
  | nil => rw [writeAll_nil, List.append_nil, List.length_nil, Nat.add_zero]
  | cons byte rest ih =>
    have hb : byte :: rest ≠ [] := List.cons_ne_nil _ _
    have hinterrupted : (worst held rounds).write (byte :: rest) =
        (.error (.bare .interrupted), (worst held rounds).called) := by
      have heven : (2 * rounds + 2) % 2 = 0 := by omega
      simp [write, worst, called, Script.interrupts, heven]
    have htaken : (worst held rounds).called.write (byte :: rest) =
        (.ok 1, worst (held ++ [byte]) (rounds + 1)) := by
      have hcalls : 2 * rounds + 1 + 1 = 2 * (rounds + 1) := by omega
      simp [write, worst, called, Script.interrupts, room, allowance, hcalls]
    rw [writeAll_eq _ hb, hinterrupted]
    show (worst held rounds).called.writeAll (byte :: rest) = _
    rw [writeAll_eq _ hb, htaken]
    show (worst (held ++ [byte]) (rounds + 1)).writeAll rest = _
    rw [ih, List.append_assoc, List.singleton_append, List.length_cons, Nat.add_assoc,
      Nat.add_comm 1]

theorem writeEach_worst (held : List UInt8) (rounds : Nat) (fragments : List (List UInt8)) :
    writeEach writeAll (worst held rounds) fragments =
      (.ok (), worst (held ++ fragments.flatten) (rounds + fragments.flatten.length)) := by
  induction fragments generalizing held rounds with
  | nil => rw [writeEach, List.flatten_nil, List.append_nil, List.length_nil, Nat.add_zero]
  | cons fragment rest ih =>
    rw [writeEach, writeAll_worst]
    simp only [ih]
    rw [List.flatten_cons, List.length_append, List.append_assoc, Nat.add_assoc]

/-! ## All calls interrupted -/

/-- A call that is interrupted, whichever it is. -/
def interruptAll (sink : Sink) (_ : List UInt8) : Except IoError Nat × Sink :=
  (.error (.bare .interrupted), sink.called)

theorem writeAllWithin_interruptAll (calls : Nat) (sink : Sink) {bytes : List UInt8}
    (hb : bytes ≠ []) : writeAllWithin interruptAll calls sink bytes = none := by
  induction calls generalizing sink with
  | zero => exact writeAllWithin_zero hb
  | succ calls ih =>
    rw [writeAllWithin_succ hb]
    exact ih sink.called

end Sink

namespace Car

theorem calls_driveTo_le (car : Car) (sink : Sink) :
    (car.driveTo sink).value.2.calls ≤ sink.calls + 2 * car.lineBytes.length := by
  rw [value_driveTo_eq_writeEach, ← flatten_map_lineFragments]
  exact (sink.calls_writeEach _).2

theorem driveToWithin_eq (car : Car) (calls : Nat) (sink : Sink) :
    car.driveToWithin Sink.write calls sink =
      if (car.driveTo sink).value.2.calls ≤ sink.calls + calls then some (car.driveTo sink).value
      else none := by
  rw [driveToWithin, Sink.writeEachWithin_eq, value_driveTo_eq_writeEach, Sink.inTime]
  split <;> rfl

theorem driveToWithin_interruptAll (car : Car) (calls : Nat) (sink : Sink) :
    car.driveToWithin Sink.interruptAll calls sink = none := by
  have hfirst : utf8 "Driving ".toList ≠ [] := by decide
  have hnone := Sink.writeAllWithin_interruptAll calls sink hfirst
  have hfragments : ∃ rest,
      car.report.lineFragments.map utf8 = utf8 "Driving ".toList :: rest := ⟨_, rfl⟩
  obtain ⟨rest, hrest⟩ := hfragments
  rw [driveToWithin, hrest, writeEachWithin, hnone]
  rfl

/-- `Car.driveTo` makes at most `2 * n` calls for a line of `n` bytes, and on some sink as many.
`Car.driveToWithin` comes to the same if it may make as many calls as `Car.driveTo` makes, and so
with `2 * (n + 1)`, and to `none` with fewer. With `Sink.interruptAll` in place of `Sink.write` it
always comes to `none`. -/
theorem driveTo_ends (car : Car) :
    (∀ sink : Sink,
      (car.driveTo sink).value.2.calls ≤ sink.calls + 2 * car.lineBytes.length ∧
      (∀ more, car.driveToWithin Sink.write (2 * (car.lineBytes.length + 1) + more) sink =
        some (car.driveTo sink).value) ∧
      ∀ calls, car.driveToWithin Sink.write calls sink =
        if (car.driveTo sink).value.2.calls ≤ sink.calls + calls then
          some (car.driveTo sink).value
        else none) ∧
    (∃ sink : Sink,
      (car.driveTo sink).value.2.calls = sink.calls + 2 * car.lineBytes.length) ∧
    ∀ calls sink, car.driveToWithin Sink.interruptAll calls sink = none := by
  refine ⟨?_, ?_, car.driveToWithin_interruptAll⟩
  · intro sink
    have hcalls := car.calls_driveTo_le sink
    refine ⟨hcalls, ?_, fun calls => car.driveToWithin_eq calls sink⟩
    intro more
    rw [driveToWithin_eq, if_pos (by omega)]
  · refine ⟨.worst [] 0, ?_⟩
    rw [value_driveTo_eq_writeEach, Sink.writeEach_worst, flatten_map_lineFragments]
    simp only [Sink.worst]
    omega

end Car

end Garage
