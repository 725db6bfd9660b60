import Garage.Sink

/-!
# Filling a sink

What a sink has taken when it was given bytes, whatever became of the single calls: the first bytes
that fit. Nothing else of the script shows, so neither the chunks nor the interruptions nor the
calls made before matter.

* `Sink.Fits`, `Sink.verdict`: whether a sink has room for so many bytes, and what their writer is
  told.
* `Sink.Filled`: a sink before and after it was given bytes. It composes (`Sink.Filled.trans`), also
  past the point where the sink is full, and the verdicts compose with it
  (`Sink.Filled.verdict_append`). It leaves nothing open but the calls (`Sink.Filled.eq_of_filled`).
-/

namespace Garage

/-- The error of a writer whose bytes a full sink did not take. -/
def Refusal.error : Refusal → IoError
  | takeNothing => .shortWrite
  | fail error _ => error

/-- The first elements up to a limit; all of them without one. -/
def upTo {α : Type} (limit : Option Nat) (l : List α) : List α :=
  match limit with
  | none => l
  | some n => l.take n

theorem upTo_append {α : Type} (limit : Option Nat) (l m : List α) :
    upTo limit (l ++ m) = upTo limit l ++ upTo (limit.map (· - l.length)) m := by
  cases limit with
  | none => rfl
  | some n => exact List.take_append

theorem upTo_of_length_le {α : Type} {limit : Option Nat} {l : List α}
    (h : ∀ n ∈ limit, l.length ≤ n) : upTo limit l = l := by
  cases limit with
  | none => rfl
  | some n => exact List.take_of_length_le (h n rfl)

theorem length_upTo_le {α : Type} (limit : Option Nat) (l : List α) :
    (upTo limit l).length ≤ l.length := by
  cases limit with
  | none => exact Nat.le_refl _
  | some n => exact List.length_take_le' n l

theorem upTo_eq_take {α : Type} (limit : Option Nat) (l : List α) :
    upTo limit l = l.take (upTo limit l).length := by
  cases limit with
  | none => exact List.take_length.symm
  | some n => rw [upTo, List.length_take, List.take_eq_take_min]

namespace Sink

/-- The sink has room for so many bytes. -/
def Fits (sink : Sink) (n : Nat) : Prop := ∀ room ∈ sink.room, n ≤ room

instance (sink : Sink) (n : Nat) : Decidable (sink.Fits n) :=
  inferInstanceAs (Decidable (∀ room ∈ sink.room, n ≤ room))

theorem exists_room_lt {sink : Sink} {n : Nat} (h : ¬ sink.Fits n) :
    ∃ room, sink.room = some room ∧ room < n := by
  unfold Fits at h
  cases hroom : sink.room with
  | none => exact absurd (by simp [hroom]) h
  | some room =>
    simp only [hroom, Option.mem_some_iff, forall_eq'] at h
    exact ⟨room, rfl, Nat.lt_of_not_le h⟩

/-- What a writer of bytes is told. -/
def verdict (sink : Sink) (bytes : List UInt8) : Except IoError Unit :=
  if sink.Fits bytes.length then .ok () else .error sink.script.refusal.error

theorem verdict_nil (sink : Sink) : sink.verdict [] = .ok () := by
  apply if_pos
  intro room _
  exact Nat.zero_le room

theorem not_fits_of_full {sink : Sink} (hroom : sink.room = some 0) {bytes : List UInt8}
    (hb : bytes ≠ []) : ¬ sink.Fits bytes.length := by
  have hpos := List.length_pos_iff.mpr hb
  intro hfits
  have hzero := hfits 0 hroom
  omega

theorem fits_mono {sink : Sink} {m n : Nat} (h : sink.Fits n) (hmn : m ≤ n) : sink.Fits m := by
  intro room hroom
  exact Nat.le_trans hmn (h room hroom)

theorem verdict_congr {sink other : Sink} (hroom : other.room = sink.room)
    (hrefusal : other.script.refusal = sink.script.refusal) (bytes : List UInt8) :
    other.verdict bytes = sink.verdict bytes := by
  have hiff : other.Fits bytes.length ↔ sink.Fits bytes.length := by rw [Fits, Fits, hroom]
  rw [verdict, verdict, hrefusal]
  simp only [hiff]

/-- A sink before and after it was given bytes: it holds those that fit, and the calls made are
left open. -/
structure Filled (before : Sink) (bytes : List UInt8) (after : Sink) : Prop where
  script : after.script = before.script
  limit : after.limit = before.limit
  flushes : after.flushes = before.flushes
  held : after.held.toList = before.held.toList ++ upTo before.room bytes

namespace Filled

variable {before middle after : Sink} {bytes more : List UInt8}

theorem room (h : before.Filled bytes after) :
    after.room = before.room.map (· - bytes.length) := by
  have hsize : after.held.size = before.held.size + (upTo before.room bytes).length := by
    rw [← Array.length_toList, h.held, List.length_append, Array.length_toList]
  unfold Sink.room
  rw [h.limit, hsize]
  cases hl : before.limit with
  | none => rfl
  | some limit =>
    have hr : before.room = some (limit - before.held.size) := by rw [Sink.room, hl]; rfl
    rw [hr, upTo, List.length_take]
    simp only [Option.map_some, Option.some.injEq]
    omega

theorem nil (before : Sink) (calls : Nat) : before.Filled [] { before with calls } := by
  refine ⟨rfl, rfl, rfl, ?_⟩
  have hnil : upTo before.room ([] : List UInt8) = [] := upTo_of_length_le fun n _ => Nat.zero_le n
  rw [hnil, List.append_nil]

theorem trans (h : before.Filled bytes middle) (h' : middle.Filled more after) :
    before.Filled (bytes ++ more) after := by
  refine ⟨h'.script.trans h.script, h'.limit.trans h.limit, h'.flushes.trans h.flushes, ?_⟩
  rw [h'.held, h.held, h.room, upTo_append, List.append_assoc]

theorem of_full (h : before.room = some 0) (bytes : List UInt8) (calls : Nat) :
    before.Filled bytes { before with calls } := by
  refine ⟨rfl, rfl, rfl, ?_⟩
  rw [h, upTo, List.take_zero, List.append_nil]

theorem room_eq_zero (h : before.Filled bytes after) (hfits : ¬ before.Fits bytes.length) :
    after.room = some 0 := by
  obtain ⟨room, hroom, hlt⟩ := exists_room_lt hfits
  rw [h.room, hroom, Option.map_some, Nat.sub_eq_zero_of_le (Nat.le_of_lt hlt)]

theorem eq_of_filled {other : Sink} (h : before.Filled bytes after)
    (h' : before.Filled bytes other) : after = { other with calls := after.calls } := by
  have hheld : after.held = other.held := by
    rw [← Array.toList_inj, h.held, h'.held]
  have hscript := h.script.trans h'.script.symm
  have hlimit := h.limit.trans h'.limit.symm
  have hflushes := h.flushes.trans h'.flushes.symm
  cases after
  cases other
  simp only at hscript hlimit hheld hflushes
  subst hscript hlimit hheld hflushes
  rfl

theorem verdict_append (h : before.Filled bytes middle)
    (h' : before.Fits bytes.length ∨ more ≠ []) :
    middle.verdict more = before.verdict (bytes ++ more) := by
  have hiff : middle.Fits more.length ↔ before.Fits (bytes ++ more).length := by
    unfold Fits
    rw [h.room, List.length_append]
    cases hr : before.room with
    | none => simp
    | some room =>
      simp only [Fits, hr, Option.mem_some_iff, forall_eq'] at h'
      simp only [Option.map_some, Option.mem_some_iff, forall_eq']
      rcases h' with hfits | hmore
      · omega
      · -- a sink past its limit refuses a byte, but would not refuse nothing
        have hpos := List.length_pos_iff.mpr hmore
        omega
  rw [verdict, verdict, h.script]
  simp only [hiff]

end Filled

end Sink

end Garage
