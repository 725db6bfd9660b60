import Garage.IoError

/-!
# Sinks

A sink is an output with a script: how much it takes at a time, which calls are interrupted, how
much it takes in all, and what it answers once it is full.

* `Sink.write`: one call, which may take only a part of what it is given.
* `Sink.writeAll`: calls until all is taken or an error ends it; an interrupted call is repeated.

The script is never of a kind on which `Sink.writeAll` would not end: every call that is not
interrupted takes a byte or ends the loop, and no two calls in a row are interrupted.
-/

namespace Garage

open Format

/-- The bytes of a text in UTF-8. -/
def utf8 (s : List Char) : List UInt8 :=
  s.flatMap String.utf8EncodeChar

/-- What a full sink answers when it is given a byte. -/
inductive Refusal where
  /-- It takes nothing and reports no error. -/
  | takeNothing
  /-- It reports an error, which is no interruption. -/
  | fail (error : IoError) (kind_ne : error.kind ≠ .interrupted)
  deriving DecidableEq

/-- The refusal by an error, unless it is an interruption. -/
def Refusal.ofError? (error : IoError) : Option Refusal :=
  if h : error.kind ≠ .interrupted then some (.fail error h) else none

structure Script where
  /-- The most bytes that one call takes. -/
  chunk : Option Nat := none
  chunk_pos : ∀ n ∈ chunk, 0 < n := by simp
  /-- Each call whose number is a multiple of it is interrupted; zero for none. -/
  interruptEvery : Nat := 0
  interruptEvery_ne_one : interruptEvery ≠ 1 := by decide
  refusal : Refusal := .takeNothing
  deriving DecidableEq

namespace Script

/-- The script with these parts, unless a call could take nothing or all calls were interrupted. -/
def ofParts? (chunk : Option Nat) (interruptEvery : Nat) (refusal : Refusal) : Option Script :=
  if h : (∀ n ∈ chunk, 0 < n) ∧ interruptEvery ≠ 1 then
    some ⟨chunk, h.1, interruptEvery, h.2, refusal⟩
  else
    none

/-- The call of this number is interrupted. Calls are counted from one. -/
def interrupts (script : Script) (call : Nat) : Bool :=
  script.interruptEvery != 0 && call % script.interruptEvery == 0

theorem interrupts_succ {script : Script} {call : Nat} (h : script.interrupts call) :
    script.interrupts (call + 1) = false := by
  have hne := script.interruptEvery_ne_one
  simp only [interrupts, Bool.and_eq_true, bne_iff_ne, ne_eq, beq_iff_eq] at h
  obtain ⟨h0, hm⟩ := h
  obtain ⟨k, rfl⟩ := Nat.dvd_of_mod_eq_zero hm
  have h1 : 1 % script.interruptEvery = 1 := Nat.mod_eq_of_lt (by omega)
  simp [interrupts, h1]

end Script

structure Sink where
  script : Script := {}
  /-- The most bytes that it holds. -/
  limit : Option Nat := none
  /-- All bytes taken since the sink is there. -/
  held : Array UInt8 := #[]
  calls : Nat := 0
  /-- The flush calls received. Writing makes none. -/
  flushes : Nat := 0
  deriving DecidableEq

namespace Sink

/-- The number of bytes that still fit. -/
def room (sink : Sink) : Option Nat :=
  sink.limit.map (· - sink.held.size)

/-- The most bytes that the next call takes. -/
def allowance (sink : Sink) : Option Nat :=
  match sink.room, sink.script.chunk with
  | none, chunk => chunk
  | room, none => room
  | some room, some chunk => some (min room chunk)

/-- Makes room for more bytes; without a number, lifts the limit. -/
def extend (sink : Sink) (bytes : Option Nat) : Sink :=
  { sink with limit := do return (← sink.limit) + (← bytes) }

/-- What a call of a full sink ends with. -/
def refuse (sink : Sink) : Except IoError Nat :=
  match sink.script.refusal with
  | .takeNothing => .ok 0
  | .fail error _ => .error error

/-- One write call: the number of bytes taken, from the front, or an error. -/
def write (sink : Sink) (bytes : List UInt8) : Except IoError Nat × Sink :=
  let calls := sink.calls + 1
  if sink.script.interrupts calls then
    (.error (.bare .interrupted), { sink with calls })
  else if sink.room = some 0 ∧ bytes ≠ [] then
    (sink.refuse, { sink with calls })
  else
    let taken : List UInt8 := match sink.allowance with
      | none => bytes
      | some n => bytes.take n
    (.ok taken.length, { sink with calls, held := sink.held ++ taken })

/-- One if the next call is interrupted. -/
def stall (sink : Sink) : Nat :=
  if sink.script.interrupts (sink.calls + 1) then 1 else 0

theorem stall_le_one (sink : Sink) : sink.stall ≤ 1 := by
  unfold stall; split <;> omega

theorem kind_ne_of_refuse {sink : Sink} {error : IoError} (h : sink.refuse = .error error) :
    error.kind ≠ .interrupted := by
  unfold refuse at h
  split at h
  · cases h
  · rename_i hk _; cases h; exact hk

theorem stall_of_write_interrupted {sink after : Sink} {bytes : List UInt8} {error : IoError}
    (h : sink.write bytes = (.error error, after)) (hk : error.kind = .interrupted) :
    sink.stall = 1 ∧ after.stall = 0 := by
  unfold write at h
  simp only at h
  split at h
  · rename_i hi
    cases h
    exact ⟨if_pos hi, by simp [stall, Script.interrupts_succ hi]⟩
  · split at h
    · simp only [Prod.mk.injEq] at h
      exact absurd hk (kind_ne_of_refuse h.1)
    · cases h

/-- Writes until all bytes are taken. An interrupted call is repeated; a call that takes nothing
and any other error end it. -/
def writeAll (sink : Sink) (bytes : List UInt8) : Except IoError Unit × Sink :=
  if bytes = [] then
    (.ok (), sink)
  else
    match hw : sink.write bytes with
    | (.ok 0, sink) => (.error .shortWrite, sink)
    | (.ok (n + 1), sink) => sink.writeAll (bytes.drop (n + 1))
    | (.error error, sink) =>
      if error.kind = .interrupted then sink.writeAll bytes else (.error error, sink)
termination_by 2 * bytes.length + sink.stall
decreasing_by
  · have := List.length_pos_iff.mpr (by assumption : bytes ≠ [])
    have := stall_le_one (by assumption)
    grind [List.length_drop]
  · have := stall_of_write_interrupted hw (by assumption)
    omega

def put (sink : Sink) (fragment : List Char) : Except IoError Unit × Sink :=
  sink.writeAll (utf8 fragment)

end Sink

end Garage
