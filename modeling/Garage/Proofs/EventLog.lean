import Garage.Proofs.Runs
import Garage.Proofs.Warnings

/-!
# The log of a run

What a run logs can be read off its acts, and of what becomes of their outputs only the warnings
tell.

* `Act.events`: the events of an act, by its kind, its car and the fate of its line.
* `events_run`: a run logs the events of its acts in order.
* `exists_drive_of_notWritten`: a warning stands right behind the event of the drive it is about.
* `filter_events_run`: but for the warnings, the log tells nothing of the outputs.
-/

namespace Garage

theorem exists_piece_of_flatMap_eq {α β : Type} {f : α → List β} {l : List α} {x : β}
    {before after : List β} (h : l.flatMap f = before ++ x :: after) :
    ∃ done a rest inner outer, l = done ++ a :: rest ∧ f a = inner ++ x :: outer ∧
      before = done.flatMap f ++ inner := by
  induction l generalizing before with
  | nil => exact absurd h.symm (List.append_ne_nil_of_right_ne_nil _ (List.cons_ne_nil _ _))
  | cons a rest ih =>
    rw [List.flatMap_cons] at h
    have hplace : (∃ before', before = f a ++ before' ∧ rest.flatMap f = before' ++ x :: after) ∨
        ∃ outer, f a = before ++ x :: outer := by
      rcases List.append_eq_append_iff.mp h with hlater | ⟨outer, ha, hrest⟩
      · exact .inl hlater
      cases outer with
      | nil => exact .inl ⟨[], by rw [ha, List.append_nil, List.append_nil], hrest.symm⟩
      | cons y outer =>
        rw [(List.cons.inj hrest).1]
        exact .inr ⟨outer, ha⟩
    rcases hplace with ⟨before', rfl, hrest⟩ | ⟨outer, ha⟩
    · obtain ⟨done, b, rest', inner, outer, rfl, hb, rfl⟩ := ih hrest
      refine ⟨a :: done, b, rest', inner, outer, rfl, hb, ?_⟩
      rw [List.flatMap_cons, List.append_assoc]
    · exact ⟨[], a, rest, before, outer, rfl, ha, rfl⟩

theorem countP_flatMap_of_one {α β : Type} {f : α → List β} {p : β → Bool} {q : α → Bool}
    (h : ∀ a, (f a).countP p = if q a then 1 else 0) (l : List α) :
    (l.flatMap f).countP p = l.countP q := by
  induction l with
  | nil => rfl
  | cons a rest ih =>
    rw [List.flatMap_cons, List.countP_append, h, ih, List.countP_cons, Nat.add_comm]

namespace Act

/-- The act builds a car. -/
def builds : Act → Bool
  | build _ => true
  | _ => false

/-- The act drives a car, to a sink or to the program's own output. -/
def drives : Act → Bool
  | driveTo .. => true
  | drive .. => true
  | _ => false

/-- The act drives a car to the program's own output, which does not take the line. -/
def losesLine : Act → Bool
  | drive car outlet => !(car.driveTo outlet.sink).value.1.isOk
  | _ => false

/-- The act logs an event of this level. -/
def logs (level : Level) : Act → Bool :=
  match level with
  | .trace => builds
  | .debug => drives
  | .warn => losesLine

/-- The model of the car that an act is about. -/
def model : Act → String
  | build model => model
  | copy car => car.model
  | report car => car.model
  | call car => car.model
  | driveTo car _ => car.model
  | drive car _ => car.model

/-- The events of an act, in order. -/
def events : Act → List Event
  | build model => [.built model stockHorsepower]
  | driveTo car _ => [.driving car.model]
  | drive car outlet =>
    match (car.driveTo outlet.sink).value.1 with
    | .ok () => [.driving car.model]
    | .error _ => [.driving car.model, .notWritten car.model "failed to write drive report"]
  | _ => []

/-- The act with its output forgotten. -/
def untargeted : Act → Act
  | driveTo car _ => driveTo car 0
  | drive car _ => drive car .working
  | act => act

/-! ## One act -/

theorem events_drive_cases (car : Car) (outlet : Outlet) :
    ((car.driveTo outlet.sink).value.1 = .ok () ∧ losesLine (drive car outlet) = false ∧
      events (drive car outlet) = [.driving car.model]) ∨
    (∃ error, (car.driveTo outlet.sink).value.1 = .error error ∧
      losesLine (drive car outlet) = true ∧
      events (drive car outlet) =
        [.driving car.model, .notWritten car.model "failed to write drive report"]) := by
  simp only [losesLine, events]
  cases (car.driveTo outlet.sink).value.1 with
  | ok => exact .inl ⟨rfl, rfl, rfl⟩
  | error error => exact .inr ⟨error, rfl, rfl, rfl⟩

theorem events_perform (act : Act) (world : World) : (act.perform world).events = act.events := by
  cases act with
  | build | copy | report | call | driveTo => rfl
  | drive car outlet =>
    rw [perform, Logged.events_bind, Logged.events_pure, List.append_nil, Car.events_drive]
    rcases events_drive_cases car outlet with ⟨hresult, -, hevents⟩ | ⟨error, hresult, -, hevents⟩
    · rw [hresult, hevents]
      rfl
    · rw [hresult, hevents, Car.warnings, DriveError.display_eq]

theorem countP_events (level : Level) (act : Act) :
    act.events.countP (·.level = level) = if act.logs level then 1 else 0 := by
  cases act with
  | build | copy | report | call | driveTo => cases level <;> rfl
  | drive car outlet =>
    rcases events_drive_cases car outlet with ⟨-, hlost, hevents⟩ | ⟨-, -, hlost, hevents⟩
    all_goals
      rw [hevents]
      cases level
      · rfl
      · rfl
      · rw [logs, hlost]; rfl

theorem exists_drive_of_losesLine {act : Act} (h : act.losesLine = true) :
    ∃ car outlet source, act = drive car outlet ∧
      (car.driveTo outlet.sink).value.1 = .error source ∧
      act.events = [.driving car.model, .notWritten car.model "failed to write drive report"] := by
  cases act with
  | build | copy | report | call | driveTo => exact absurd h Bool.false_ne_true
  | drive car outlet =>
    rcases events_drive_cases car outlet with ⟨-, hkept, -⟩ | ⟨source, hresult, -, hevents⟩
    · exact absurd (h.symm.trans hkept) Bool.noConfusion
    · exact ⟨car, outlet, source, rfl, hresult, hevents⟩

theorem exists_drive_of_warns {act : Act} {inner outer : List Event} {model error : String}
    (h : act.events = inner ++ .notWritten model error :: outer) :
    ∃ car outlet source, act = drive car outlet ∧
      (car.driveTo outlet.sink).value.1 = .error source ∧
      inner = [.driving car.model] ∧ model = car.model := by
  have hcount := countP_events .warn act
  rw [h, List.countP_append, List.countP_cons_of_pos rfl] at hcount
  have hlost : act.losesLine = true := by
    cases hkept : act.losesLine with
    | true => rfl
    | false =>
      rw [logs, hkept, if_neg Bool.false_ne_true] at hcount
      omega
  obtain ⟨car, outlet, source, hact, hresult, hevents⟩ := exists_drive_of_losesLine hlost
  refine ⟨car, outlet, source, hact, hresult, ?_⟩
  rw [hevents] at h
  cases inner with
  | nil => cases h
  | cons first inner =>
    cases inner with
    | nil =>
      cases h
      exact ⟨rfl, rfl⟩
    | cons second inner =>
      have hnil : [] = inner ++ _ := (List.cons.inj (List.cons.inj h).2).2
      exact absurd hnil.symm (List.append_ne_nil_of_right_ne_nil _ (List.cons_ne_nil _ _))

theorem fields_of_mem_events {act : Act} {event : Event} (h : event ∈ act.events) :
    event.fields.head? = some ("model", .text act.model) := by
  cases act with
  | build | driveTo =>
    rw [List.mem_singleton.mp h]
    rfl
  | copy | report | call => exact absurd h List.not_mem_nil
  | drive car outlet =>
    rcases events_drive_cases car outlet with ⟨-, -, hevents⟩ | ⟨-, -, -, hevents⟩
    · rw [hevents] at h
      rw [List.mem_singleton.mp h]
      rfl
    · rw [hevents, List.mem_cons, List.mem_singleton] at h
      rcases h with rfl | rfl <;> rfl

theorem filter_events_untargeted (act : Act) :
    act.untargeted.events.filter (·.level ≠ .warn) = act.events.filter (·.level ≠ .warn) := by
  have hdrive : ∀ car outlet, (drive car outlet).events.filter (·.level ≠ .warn) =
      [.driving car.model] := by
    intro car outlet
    rcases events_drive_cases car outlet with ⟨-, -, hevents⟩ | ⟨-, -, -, hevents⟩
    all_goals
      rw [hevents]
      rfl
  cases act with
  | build | copy | report | call | driveTo => rfl
  | drive car outlet => rw [untargeted, hdrive, hdrive]

end Act

/-! ## Runs -/

theorem events_run (acts : List Act) (world : World) :
    (run acts world).events = acts.flatMap Act.events := by
  induction acts generalizing world with
  | nil => rfl
  | cons act rest ih => rw [events_run_cons, Act.events_perform, ih, List.flatMap_cons]

theorem exists_drive_of_notWritten {acts : List Act} {world : World} {before after : List Event}
    {model error : String}
    (h : (run acts world).events = before ++ .notWritten model error :: after) :
    ∃ done car outlet source rest, acts = done ++ .drive car outlet :: rest ∧
      (car.driveTo outlet.sink).value.1 = .error source ∧
      before = (run done world).events ++ [.driving car.model] ∧ model = car.model := by
  rw [events_run] at h
  obtain ⟨done, act, rest, inner, outer, hacts, hact, hbefore⟩ := exists_piece_of_flatMap_eq h
  obtain ⟨car, outlet, source, rfl, hresult, rfl, hmodel⟩ := Act.exists_drive_of_warns hact
  rw [← events_run done world] at hbefore
  exact ⟨done, car, outlet, source, rest, hacts, hresult, hbefore, hmodel⟩

theorem filter_events_run (acts : List Act) (world : World) :
    (run acts world).events.filter (·.level ≠ .warn) =
      (acts.map Act.untargeted).flatMap fun act => act.events.filter (·.level ≠ .warn) := by
  rw [events_run, List.filter_flatMap, List.flatMap_map]
  simp only [Act.filter_events_untargeted]

/-- The events of a run are `Act.events` of its acts in order. So their numbers by level are those
of `Act.builds`, `Act.drives` and `Act.losesLine`, each `.notWritten` stands right behind the
`.driving` of the same drive, and runs that agree up to `Act.untargeted` log the same but for
warnings. -/
theorem eventLog_run (acts : List Act) (world : World) :
    (run acts world).events = acts.flatMap Act.events ∧
    (run acts world).events.countP (·.level = .trace) = acts.countP Act.builds ∧
    (run acts world).events.countP (·.level = .debug) = acts.countP Act.drives ∧
    (run acts world).events.countP (·.level = .warn) = acts.countP Act.losesLine ∧
    (∀ before model error after,
      (run acts world).events = before ++ .notWritten model error :: after →
      ∃ done car outlet source rest, acts = done ++ .drive car outlet :: rest ∧
        (car.driveTo outlet.sink).value.1 = .error source ∧
        before = (run done world).events ++ [.driving car.model] ∧ model = car.model) ∧
    (∀ event ∈ (run acts world).events,
      ∃ act ∈ acts, event ∈ act.events ∧
        event.fields.head? = some ("model", .text act.model)) ∧
    (∀ acts' world', acts'.map Act.untargeted = acts.map Act.untargeted →
      (run acts' world').events.filter (·.level ≠ .warn) =
        (run acts world).events.filter (·.level ≠ .warn)) := by
  have hevents := events_run acts world
  refine ⟨hevents, ?_, ?_, ?_, ?_, ?_, ?_⟩
  · rw [hevents]
    exact countP_flatMap_of_one (Act.countP_events .trace) acts
  · rw [hevents]
    exact countP_flatMap_of_one (Act.countP_events .debug) acts
  · rw [hevents]
    exact countP_flatMap_of_one (Act.countP_events .warn) acts
  · intro before model error after h
    exact exists_drive_of_notWritten h
  · intro event hevent
    rw [hevents, List.mem_flatMap] at hevent
    obtain ⟨act, hact, hmem⟩ := hevent
    exact ⟨act, hact, hmem, Act.fields_of_mem_events hmem⟩
  · intro acts' world' h
    rw [filter_events_run, filter_events_run, h]

/-- A run with `.full` logs what the run with `.working` logs, and one `.notWritten`. -/
theorem eventLog_run_full :
    [Act.build "Škoda", .driveTo (.ofModel "Škoda") 3, .drive (.ofModel "Škoda") .working].map
        Act.untargeted =
      [Act.build "Škoda", .driveTo (.ofModel "Škoda") 0, .drive (.ofModel "Škoda") .full].map
        Act.untargeted ∧
    (run [.build "Škoda", .driveTo (.ofModel "Škoda") 0, .drive (.ofModel "Škoda") .full]
      .fresh).events = [.built "Škoda" 200, .driving "Škoda", .driving "Škoda",
        .notWritten "Škoda" "failed to write drive report"] ∧
    (run [.build "Škoda", .driveTo (.ofModel "Škoda") 3, .drive (.ofModel "Škoda") .working]
      .fresh).events.filter (·.level ≠ .warn) =
        [.built "Škoda" 200, .driving "Škoda", .driving "Škoda"] := by
  have htargets :
      [Act.build "Škoda", .driveTo (.ofModel "Škoda") 3, .drive (.ofModel "Škoda") .working].map
          Act.untargeted =
        [Act.build "Škoda", .driveTo (.ofModel "Škoda") 0, .drive (.ofModel "Škoda") .full].map
          Act.untargeted := rfl
  have hfull : (run [.build "Škoda", .driveTo (.ofModel "Škoda") 0, .drive (.ofModel "Škoda") .full]
      .fresh).events = [.built "Škoda" 200, .driving "Škoda", .driving "Škoda",
        .notWritten "Škoda" "failed to write drive report"] := by decide +kernel
  refine ⟨htargets, hfull, ?_⟩
  obtain ⟨-, -, -, -, -, -, hsame⟩ := eventLog_run
    [.build "Škoda", .driveTo (.ofModel "Škoda") 0, .drive (.ofModel "Škoda") .full] .fresh
  rw [hsame _ .fresh htargets, hfull]
  rfl

end Garage
