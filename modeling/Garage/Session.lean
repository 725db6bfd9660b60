import Garage.Power
import Garage.Thing
import Std.Data.TreeMap

/-!
# Sessions

A session keeps things and sinks under ids and is worked on by steps. What is kept is a copy: no
step on one id changes what is kept under another.

* `Session.perform`: what a step does, or why it is denied. The fields of a step are checked in the
  order in which they are listed, so the first fault decides.
* `Session.step`: a denied step changes nothing and logs nothing.
* `Session.run`: the answers and events of a list of steps.
-/

namespace Garage

open Format

/-- A field of a step. Without a value it was missing or could not be read. -/
abbrev Field (α : Type) := Option α

inductive Step where
  | new (id : Field String) (blueprint : Field Blueprint)
  | copy (source id : Field String)
  | engineOf (car id : Field String)
  | reportOf (car id : Field String)
  /-- Keeps what the drive model answers to a car. -/
  | call (car id : Field String)
  /-- Changes fields of a report; a field that is not given stays. -/
  | amend (model : Field (Option String)) (horsepower : Field (Option Int32)) (id : Field String)
  | view (id : Field String)
  | inspect (id : Field String) (spec : Field Spec)
  /-- Reads the power of an engine, or of a car's engine. -/
  | power (id : Field String) (units : Field (List PowerUnit))
  | compare (a b : Field String)
  | drop (id : Field String)
  | sink (id : Field String) (sink : Field Sink)
  /-- Makes room in a sink, or lifts its limit. -/
  | extend (bytes : Field (Option Nat)) (sink : Field String)
  | driveTo (car sink : Field String)
  | drive (car : Field String) (outlet : Field Outlet)
  /-- A step that could not be read. -/
  | unreadable

inductive Denial where
  | badInput
  | noSuchId
  | wrongKind
  deriving DecidableEq, Repr

inductive Answer where
  | thing (thing : Thing)
  | text (text : String)
  | readings (power : Power) (units : List PowerUnit)
  | comparison (comparison : Comparison)
  /-- The ids of the things that are left, in order. -/
  | left (ids : List String)
  | done
  | driven (result : Except DriveError Unit) (sink : Sink)
  | printed (bytes : Array UInt8)

structure Session where
  things : Std.TreeMap String Thing := {}
  sinks : Std.TreeMap String Sink := {}

namespace Session

/-! ## Checks -/

def read {α : Type} : Field α → Except Denial α
  | none => .error .badInput
  | some a => .ok a

/-- What is kept under an id. -/
def find {α : Type} (kept : Std.TreeMap String α) (id : Field String) :
    Except Denial (String × α) := do
  let id ← read id
  match kept[id]? with
  | none => .error .noSuchId
  | some a => .ok (id, a)

def thing (s : Session) (id : Field String) : Except Denial Thing :=
  Prod.snd <$> find s.things id

def car (s : Session) (id : Field String) : Except Denial Car := do
  match ← s.thing id with
  | .car car => .ok car
  | _ => .error .wrongKind

/-- The engine under an id, or the engine of the car under it. -/
def engine (s : Session) (id : Field String) : Except Denial Engine := do
  match ← s.thing id with
  | .engine engine => .ok engine
  | .car car => .ok car.engine
  | .report _ => .error .wrongKind

/-- Keeps a thing under an id, in place of the one that was there. -/
def keep (s : Session) (id : String) (thing : Thing) : Session :=
  { s with things := s.things.insert id thing }

def keepAndView (s : Session) (id : String) (thing : Thing) : Answer × Session :=
  (.thing thing, s.keep id thing)

/-! ## Steps -/

def perform (s : Session) : Step → Except Denial (Logged (Answer × Session))
  | .new id blueprint => do
    let id ← read id
    let blueprint ← read blueprint
    return s.keepAndView id <$> blueprint.build
  | .copy source id => do
    let thing ← s.thing source
    let id ← read id
    return pure (s.keepAndView id thing)
  | .engineOf car id => do
    let car ← s.car car
    let id ← read id
    return pure (s.keepAndView id (.engine car.engine))
  | .reportOf car id => do
    let car ← s.car car
    let id ← read id
    return pure (s.keepAndView id (.report car.report))
  | .call car id => do
    let car ← s.car car
    let id ← read id
    return pure (s.keepAndView id (.report (driveModel.call car)))
  | .amend model horsepower id => do
    let model ← read model
    let horsepower ← read horsepower
    match ← find s.things id with
    | (id, .report report) =>
      let report := ⟨model.getD report.model, horsepower.getD report.horsepower⟩
      return pure (s.keepAndView id (.report report))
    | _ => .error .wrongKind
  | .view id => do
    let thing ← s.thing id
    return pure (.thing thing, s)
  | .inspect id spec => do
    let thing ← s.thing id
    let spec ← read spec
    return pure (.text (Format.inspect spec thing), s)
  | .power id units => do
    let engine ← s.engine id
    let units ← read units
    return pure (.readings engine.power units, s)
  | .compare a b => do
    let a ← s.thing a
    let b ← s.thing b
    match a.compare? b with
    | some comparison => return pure (.comparison comparison, s)
    | none => .error .wrongKind
  | .drop id => do
    let (id, _) ← find s.things id
    let things := s.things.erase id
    return pure (.left things.keys, { s with things })
  | .sink id sink => do
    let id ← read id
    let sink ← read sink
    return pure (.done, { s with sinks := s.sinks.insert id sink })
  | .extend bytes sink => do
    let bytes ← read bytes
    let (id, sink) ← find s.sinks sink
    return pure (.done, { s with sinks := s.sinks.insert id (sink.extend bytes) })
  | .driveTo car sink => do
    let car ← s.car car
    let (id, sink) ← find s.sinks sink
    return (fun (result, sink) =>
      (.driven result sink, { s with sinks := s.sinks.insert id sink })) <$> car.driveTo sink
  | .drive car outlet => do
    let car ← s.car car
    let outlet ← read outlet
    return (fun bytes => (.printed bytes, s)) <$> car.drive outlet
  | .unreadable => .error .badInput

/-- One step. A denied step changes nothing and logs nothing. -/
def step (s : Session) (step : Step) : Logged (Except Denial Answer × Session) :=
  match s.perform step with
  | .error denial => return (.error denial, s)
  | .ok outcome => (fun (answer, s) => (.ok answer, s)) <$> outcome

/-- The answers to a list of steps, each with its events. -/
def run (s : Session) : List Step → List (Logged (Except Denial Answer))
  | [] => []
  | first :: rest =>
    let ⟨(answer, s), events⟩ := s.step first
    ⟨answer, events⟩ :: s.run rest

end Session

end Garage
