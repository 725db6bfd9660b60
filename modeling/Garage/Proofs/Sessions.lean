import Garage.Session

/-!
# What the steps of a session touch

A step names the id of the thing that it keeps or drops and the id of the sink that it makes,
extends or drives to. What is kept under other ids stays as it is. A step that is denied leaves the
whole session as it is and logs nothing, so it could as well be left out.

* `Step.thingId`, `Step.sinkId`: the ids that a step names for this.
* `Session.Frame`: two sessions that agree but for the ids that some steps name.
* `Session.frame_step`, `Session.step_of_denied`: one step.
* `Session.frame_after`, `Session.run_accepted`: a list of steps.
-/

namespace Garage

/-- The id of the thing that a step keeps or drops. -/
def Step.thingId : Step → Field String
  | new id _ | copy _ id | engineOf _ id | reportOf _ id | call _ id | amend _ _ id | drop id => id
  | _ => none

/-- The id of the sink that a step makes, extends or drives to. -/
def Step.sinkId : Step → Field String
  | sink id _ | extend _ id | driveTo _ id => id
  | _ => none

namespace Session

/-! ## Frames -/

/-- `s'` agrees with `s` on each thing and each sink whose id no step of `steps` names. -/
structure Frame (steps : List Step) (s s' : Session) : Prop where
  things : ∀ id, (∀ step ∈ steps, step.thingId ≠ some id) → s'.things[id]? = s.things[id]?
  sinks : ∀ id, (∀ step ∈ steps, step.sinkId ≠ some id) → s'.sinks[id]? = s.sinks[id]?

namespace Frame

variable {steps more : List Step} {step : Step} {s s' s'' : Session} {id : String}

theorem refl : Frame steps s s :=
  ⟨fun _ _ => rfl, fun _ _ => rfl⟩

theorem trans (h : Frame steps s s') (h' : Frame more s' s'') : Frame (steps ++ more) s s'' := by
  constructor
  · intro id hid
    rw [h'.things id fun step hmem => hid step (List.mem_append_right _ hmem),
      h.things id fun step hmem => hid step (List.mem_append_left _ hmem)]
  · intro id hid
    rw [h'.sinks id fun step hmem => hid step (List.mem_append_right _ hmem),
      h.sinks id fun step hmem => hid step (List.mem_append_left _ hmem)]

theorem keep (h : step.thingId = some id) (thing : Thing) : Frame [step] s (s.keep id thing) := by
  refine ⟨fun other hother => ?_, fun _ _ => rfl⟩
  have hid : id ≠ other := fun heq => hother step List.mem_cons_self (heq ▸ h)
  simp [Session.keep, Std.TreeMap.getElem?_insert, hid]

theorem erase (h : step.thingId = some id) :
    Frame [step] s { s with things := s.things.erase id } := by
  refine ⟨fun other hother => ?_, fun _ _ => rfl⟩
  have hid : id ≠ other := fun heq => hother step List.mem_cons_self (heq ▸ h)
  simp [Std.TreeMap.getElem?_erase, hid]

theorem insertSink (h : step.sinkId = some id) (sink : Sink) :
    Frame [step] s { s with sinks := s.sinks.insert id sink } := by
  refine ⟨fun _ _ => rfl, fun other hother => ?_⟩
  have hid : id ≠ other := fun heq => hother step List.mem_cons_self (heq ▸ h)
  simp [Std.TreeMap.getElem?_insert, hid]

end Frame

/-! ## One step -/

theorem exists_of_bind_eq_ok {α β : Type} {x : Except Denial α} {f : α → Except Denial β} {b : β}
    (h : x >>= f = .ok b) : ∃ a, x = .ok a ∧ f a = .ok b := by
  cases x with
  | error denial => cases h
  | ok a => exact ⟨a, rfl, h⟩

theorem eq_of_read {α : Type} {field : Field α} {a : α} (h : read field = .ok a) :
    field = some a := by
  cases field with
  | none => cases h
  | some b => cases h; rfl

theorem eq_of_find {α : Type} {kept : Std.TreeMap String α} {field : Field String} {id : String}
    {a : α} (h : find kept field = .ok (id, a)) : field = some id := by
  obtain ⟨key, hkey, hfind⟩ := exists_of_bind_eq_ok h
  split at hfind
  · cases hfind
  · cases hfind
    exact eq_of_read hkey

theorem frame_of_perform {s : Session} {step : Step} {outcome : Logged (Answer × Session)}
    (h : s.perform step = .ok outcome) : Frame [step] s outcome.value.2 := by
  cases step with
  | new id blueprint =>
    obtain ⟨key, hkey, h⟩ := exists_of_bind_eq_ok h
    obtain ⟨blueprint, -, h⟩ := exists_of_bind_eq_ok h
    cases h
    refine .keep ?_ _
    exact eq_of_read hkey
  | copy _ id | engineOf _ id | reportOf _ id | call _ id =>
    obtain ⟨_, -, h⟩ := exists_of_bind_eq_ok h
    obtain ⟨key, hkey, h⟩ := exists_of_bind_eq_ok h
    cases h
    refine .keep ?_ _
    exact eq_of_read hkey
  | amend model horsepower id =>
    obtain ⟨_, -, h⟩ := exists_of_bind_eq_ok h
    obtain ⟨_, -, h⟩ := exists_of_bind_eq_ok h
    obtain ⟨⟨key, thing⟩, hfind, h⟩ := exists_of_bind_eq_ok h
    cases thing with
    | car | engine => cases h
    | report report =>
      cases h
      exact .keep (eq_of_find hfind) _
  | view id =>
    obtain ⟨_, -, h⟩ := exists_of_bind_eq_ok h
    cases h
    exact .refl
  | inspect id _ | power id _ =>
    obtain ⟨_, -, h⟩ := exists_of_bind_eq_ok h
    obtain ⟨_, -, h⟩ := exists_of_bind_eq_ok h
    cases h
    exact .refl
  | compare a b =>
    obtain ⟨_, -, h⟩ := exists_of_bind_eq_ok h
    obtain ⟨_, -, h⟩ := exists_of_bind_eq_ok h
    split at h
    · cases h
      exact .refl
    · cases h
  | drop id =>
    obtain ⟨⟨key, thing⟩, hfind, h⟩ := exists_of_bind_eq_ok h
    cases h
    exact .erase (eq_of_find hfind)
  | sink id sink =>
    obtain ⟨key, hkey, h⟩ := exists_of_bind_eq_ok h
    obtain ⟨_, -, h⟩ := exists_of_bind_eq_ok h
    cases h
    refine .insertSink ?_ _
    exact eq_of_read hkey
  | extend bytes sink | driveTo bytes sink =>
    obtain ⟨_, -, h⟩ := exists_of_bind_eq_ok h
    obtain ⟨⟨key, kept⟩, hfind, h⟩ := exists_of_bind_eq_ok h
    cases h
    exact .insertSink (eq_of_find hfind) _
  | drive car outlet =>
    obtain ⟨_, -, h⟩ := exists_of_bind_eq_ok h
    obtain ⟨_, -, h⟩ := exists_of_bind_eq_ok h
    cases h
    exact .refl
  | unreadable => cases h

theorem step_of_denied {s : Session} {step : Step} {denial : Denial}
    (h : (s.step step).value.1 = .error denial) : s.step step = ⟨(.error denial, s), []⟩ := by
  unfold Session.step at h ⊢
  split at h
  · cases h
    rfl
  · cases h

theorem frame_step (s : Session) (step : Step) :
    Frame [step] s (s.step step).value.2 := by
  unfold Session.step
  split
  · exact .refl
  · rename_i outcome hperform
    exact frame_of_perform hperform

/-! ## Steps in order -/

/-- The session after a list of steps. -/
def after (s : Session) (steps : List Step) : Session :=
  steps.foldl (fun s step => (s.step step).value.2) s

theorem run_cons (s : Session) (first : Step) (rest : List Step) :
    s.run (first :: rest) =
      ⟨(s.step first).value.1, (s.step first).events⟩ :: (s.step first).value.2.run rest := rfl

theorem after_cons (s : Session) (first : Step) (rest : List Step) :
    s.after (first :: rest) = (s.step first).value.2.after rest := rfl

theorem frame_after (s : Session) (steps : List Step) : Frame steps s (s.after steps) := by
  induction steps generalizing s with
  | nil => exact .refl
  | cons first rest ih => exact (s.frame_step first).trans (ih _)

/-- The steps of a list that are not denied. -/
def accepted (s : Session) : List Step → List Step
  | [] => []
  | first :: rest =>
    if (s.step first).value.1.isOk then first :: (s.step first).value.2.accepted rest
    else s.accepted rest

/-- `s.accepted steps` leaves the denied steps out. The others keep their answers and events, and
the session after them is the same. -/
theorem run_accepted (s : Session) (steps : List Step) :
    s.run (s.accepted steps) = (s.run steps).filter (·.value.isOk) ∧
      s.after (s.accepted steps) = s.after steps := by
  induction steps generalizing s with
  | nil => exact ⟨rfl, rfl⟩
  | cons first rest ih =>
    rw [accepted, run_cons, after_cons]
    cases hresult : (s.step first).value.1 with
    | ok answer =>
      obtain ⟨hrun, hafter⟩ := ih (s.step first).value.2
      have hok : (Except.ok answer : Except Denial Answer).isOk = true := rfl
      rw [if_pos hok, run_cons, after_cons, hresult, List.filter_cons_of_pos (by exact hok), hrun]
      exact ⟨rfl, hafter⟩
    | error denial =>
      obtain ⟨hrun, hafter⟩ := ih s
      have hdenied : ¬ (Except.error denial : Except Denial Answer).isOk = true := Bool.false_ne_true
      rw [if_neg hdenied, List.filter_cons_of_neg (by exact hdenied), step_of_denied hresult]
      exact ⟨hrun, hafter⟩

end Session

end Garage
