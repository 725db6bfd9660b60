import Garage.Proofs.Filling
import Garage.Proofs.Utf8

/-!
# Writing to a sink

One call, the loop around it, and the loop for fragments handed over one after the other. The loop
fills the sink and tells its writer the verdict, and so do the fragments, as if they were one piece.

* `Sink.write_cases`: the three things that one call can do.
* `Sink.writeAll_induction`: what these three keep holds of the loop.
* `Sink.writeAll_spec`, `Sink.writeEach_writeAll_spec`: the loop and the fragments in terms of
  `Sink.verdict` and `Sink.Filled`.
-/

namespace Garage

open Format

namespace Sink

/-! ## One call -/

theorem upTo_allowance (sink : Sink) {bytes : List UInt8} (hb : bytes ≠ [])
    (hr : sink.room ≠ some 0) :
    0 < (upTo sink.allowance bytes).length ∧ sink.Fits (upTo sink.allowance bytes).length := by
  have hpos := List.length_pos_iff.mpr hb
  have hchunk := sink.script.chunk_pos
  unfold Fits allowance
  cases hroom : sink.room with
  | none =>
    cases hc : sink.script.chunk with
    | none => simpa [upTo] using hpos
    | some chunk =>
      have := hchunk chunk hc
      simp only [upTo, List.length_take]
      exact ⟨by omega, by simp⟩
  | some room =>
    have hroom0 : room ≠ 0 := fun h => hr (by rw [hroom, h])
    cases hc : sink.script.chunk with
    | none =>
      simp only [upTo, List.length_take, Option.mem_some_iff, forall_eq']
      omega
    | some chunk =>
      have := hchunk chunk hc
      simp only [upTo, List.length_take, Option.mem_some_iff, forall_eq']
      omega

/-- The sink after a call that took nothing. -/
def called (sink : Sink) : Sink :=
  { sink with calls := sink.calls + 1 }

/-- The sink after a call that took some bytes. -/
def took (sink : Sink) (bytes : List UInt8) : Sink :=
  { sink with calls := sink.calls + 1, held := sink.held ++ bytes }

@[simp] theorem calls_called (sink : Sink) : sink.called.calls = sink.calls + 1 := rfl

@[simp] theorem calls_took (sink : Sink) (bytes : List UInt8) :
    (sink.took bytes).calls = sink.calls + 1 := rfl

theorem write_cases (sink : Sink) {bytes : List UInt8} (hb : bytes ≠ []) :
    (sink.stall = 1 ∧ sink.write bytes = (.error (.bare .interrupted), sink.called)) ∨
    (sink.room = some 0 ∧ sink.write bytes = (sink.refuse, sink.called)) ∨
    (∃ n, 0 < n ∧ n ≤ bytes.length ∧ sink.Fits n ∧
      sink.write bytes = (.ok n, sink.took (bytes.take n))) := by
  by_cases hi : sink.script.interrupts (sink.calls + 1) = true
  · left
    exact ⟨if_pos hi, if_pos hi⟩
  right
  by_cases hr : sink.room = some 0
  · left
    refine ⟨hr, ?_⟩
    rw [write, if_neg hi, if_pos ⟨hr, hb⟩]
    rfl
  right
  obtain ⟨hpos, hfits⟩ := upTo_allowance sink hb hr
  refine ⟨_, hpos, length_upTo_le .., hfits, ?_⟩
  rw [write, if_neg hi, if_neg (fun h => hr h.1), ← upTo_eq_take]
  rfl

/-! ## The loop -/

theorem writeAll_nil (sink : Sink) : sink.writeAll [] = (.ok (), sink) := by
  rw [writeAll, if_pos rfl]

theorem writeAll_eq (sink : Sink) {bytes : List UInt8} (hb : bytes ≠ []) :
    sink.writeAll bytes = match sink.write bytes with
      | (.ok 0, after) => (.error .shortWrite, after)
      | (.ok (n + 1), after) => after.writeAll (bytes.drop (n + 1))
      | (.error error, after) =>
        if error.kind = .interrupted then after.writeAll bytes else (.error error, after) := by
  rw [writeAll, if_neg hb]
  split <;> rename_i hw <;> rw [hw]

/-- Induction along the calls of `Sink.writeAll`. -/
theorem writeAll_induction {motive : Sink → List UInt8 → Except IoError Unit × Sink → Prop}
    (nil : ∀ sink, motive sink [] (.ok (), sink))
    (refused : ∀ sink bytes, bytes ≠ [] → sink.room = some 0 →
      motive sink bytes (.error sink.script.refusal.error, sink.called))
    (interrupted : ∀ sink bytes, bytes ≠ [] → sink.stall = 1 → sink.called.stall = 0 →
      motive sink.called bytes (sink.called.writeAll bytes) →
      motive sink bytes (sink.called.writeAll bytes))
    (taken : ∀ sink bytes n, 0 < n → n ≤ bytes.length → sink.Fits n →
      motive (sink.took (bytes.take n)) (bytes.drop n)
        ((sink.took (bytes.take n)).writeAll (bytes.drop n)) →
      motive sink bytes ((sink.took (bytes.take n)).writeAll (bytes.drop n)))
    (sink : Sink) (bytes : List UInt8) : motive sink bytes (sink.writeAll bytes) := by
  induction hm : 2 * bytes.length + sink.stall using Nat.strongRecOn generalizing sink bytes with
  | ind m ih =>
    by_cases hb : bytes = []
    · subst hb
      rw [writeAll_nil]
      exact nil sink
    rw [writeAll_eq sink hb]
    rcases write_cases sink hb with ⟨hs, hw⟩ | ⟨hr, hw⟩ | ⟨n, hpos, hn, hfits, hw⟩
    · have hs' := (stall_of_write_interrupted hw rfl).2
      rw [hw]
      exact interrupted sink bytes hb hs hs' (ih _ (by omega) _ _ rfl)
    · have hrefused := refused sink bytes hb hr
      rw [hw]
      unfold refuse
      cases href : sink.script.refusal with
      | takeNothing =>
        rw [href] at hrefused
        exact hrefused
      | fail error hk =>
        rw [href] at hrefused
        simp only [if_neg hk]
        exact hrefused
    · obtain _ | k := n
      · omega
      rw [hw]
      have hstall := stall_le_one (sink.took (bytes.take (k + 1)))
      refine taken sink bytes (k + 1) hpos hn hfits (ih _ ?_ _ _ rfl)
      rw [List.length_drop]
      omega

theorem filled_called (sink : Sink) : sink.Filled [] sink.called :=
  Filled.nil sink _

theorem filled_took {sink : Sink} {bytes : List UInt8} (h : sink.Fits bytes.length) :
    sink.Filled bytes (sink.took bytes) := by
  refine ⟨rfl, rfl, rfl, ?_⟩
  rw [upTo_of_length_le h]
  exact Array.toList_appendList

theorem writeAll_spec (sink : Sink) (bytes : List UInt8) :
    (sink.writeAll bytes).1 = sink.verdict bytes ∧ sink.Filled bytes (sink.writeAll bytes).2 := by
  induction sink, bytes using writeAll_induction with
  | nil sink => exact ⟨sink.verdict_nil.symm, Filled.nil sink sink.calls⟩
  | refused sink bytes hb hr =>
    refine ⟨?_, Filled.of_full hr bytes _⟩
    rw [verdict, if_neg (not_fits_of_full hr hb)]
  | interrupted sink bytes hb hs hs' ih =>
    have hcalled := filled_called sink
    refine ⟨?_, hcalled.trans ih.2⟩
    rw [ih.1, hcalled.verdict_append (Or.inr hb), List.nil_append]
  | taken sink bytes n hpos hn hfits ih =>
    have hlen : (bytes.take n).length = n := List.length_take_of_le hn
    have htook : sink.Filled (bytes.take n) (sink.took (bytes.take n)) :=
      filled_took (by rwa [hlen])
    have hsplit := List.take_append_drop n bytes
    constructor
    · rw [ih.1, htook.verdict_append (Or.inl (by rwa [hlen])), hsplit]
    · have hboth := htook.trans ih.2
      rwa [hsplit] at hboth

/-! ## Fragments -/

theorem writeEach_writeAll_spec (sink : Sink) (fragments : List (List UInt8)) :
    (writeEach writeAll sink fragments).1 = sink.verdict fragments.flatten ∧
      sink.Filled fragments.flatten (writeEach writeAll sink fragments).2 := by
  induction fragments generalizing sink with
  | nil => exact ⟨sink.verdict_nil.symm, Filled.nil sink sink.calls⟩
  | cons fragment rest ih =>
    obtain ⟨hresult, hfilled⟩ := writeAll_spec sink fragment
    rw [List.flatten_cons, writeEach]
    generalize sink.writeAll fragment = written at hresult hfilled ⊢
    obtain ⟨result, after⟩ := written
    simp only at hresult hfilled
    subst hresult
    by_cases hfits : sink.Fits fragment.length
    · rw [verdict, if_pos hfits]
      obtain ⟨hrest, hfilled'⟩ := ih after
      exact ⟨hrest.trans (hfilled.verdict_append (Or.inl hfits)), hfilled.trans hfilled'⟩
    · -- the sink is full: nothing of the rest would have fitted either
      have hall : ¬ sink.Fits (fragment ++ rest.flatten).length :=
        fun h => hfits (fits_mono h (by rw [List.length_append]; omega))
      rw [verdict, if_neg hfits, verdict, if_neg hall]
      exact ⟨rfl, hfilled.trans (Filled.of_full (hfilled.room_eq_zero hfits) _ _)⟩

theorem writeEach_put (sink : Sink) (fragments : List (List Char)) :
    writeEach put sink fragments = writeEach writeAll sink (fragments.map utf8) := by
  induction fragments generalizing sink with
  | nil => rfl
  | cons fragment rest ih =>
    rw [List.map_cons, writeEach, writeEach, put]
    split
    · rfl
    · exact ih _

end Sink

end Garage
