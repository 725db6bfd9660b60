import Garage.Drive
import Std.Data.HashSet

/-!
# Things

Cars, engines and reports side by side. Things of different kinds are different, even where their
fields agree.

* `Thing.compare?`: equality and hashes of two things of one kind.
* `census`: a hash set of things, with the places where a new value came.
-/

namespace Garage

open Format

inductive Thing where
  | car (car : Car)
  | engine (engine : Engine)
  | report (report : Report)
  deriving DecidableEq, Hashable, Repr

instance : Inspect Thing where
  doc number thing := match thing with
    | .car car => Inspect.doc number car
    | .engine engine => Inspect.doc number engine
    | .report report => Inspect.doc number report

inductive Blueprint where
  | car (model : String)
  | engine (horsepower : Int32)
  | report (model : String) (horsepower : Int32)
  deriving DecidableEq, Repr

/-- Makes a thing. Only a car is logged. -/
def Blueprint.build : Blueprint → Logged Thing
  | car model => .car <$> Car.build model
  | engine horsepower => return .engine ⟨horsepower⟩
  | report model horsepower => return .report ⟨model, horsepower⟩

/-! ## Comparison -/

inductive Kind where
  | car
  | engine
  | report
  deriving DecidableEq, Repr

def Thing.kind : Thing → Kind
  | car _ => .car
  | engine _ => .engine
  | report _ => .report

/-- How two values of one type compare. -/
structure Comparison where
  equal : Bool
  sameHash : Bool
  deriving DecidableEq, Repr

def Thing.compare? (a b : Thing) : Option Comparison :=
  if a.kind = b.kind then some ⟨a == b, hash a == hash b⟩ else none

/-! ## Distinct values -/

/-- The values seen so far, how many items there were, and the indices at which a new value came,
latest first. -/
structure Census where
  seen : Std.HashSet Thing := {}
  items : Nat := 0
  newest : List Nat := []

namespace Census

def add (c : Census) (thing : Thing) : Census where
  seen := c.seen.insert thing
  items := c.items + 1
  newest := if thing ∈ c.seen then c.newest else c.items :: c.newest

def count (c : Census) : Nat := c.seen.size

/-- The indices at which a new value came, in order. -/
def first (c : Census) : List Nat := c.newest.reverse

end Census

def census (things : List Thing) : Census :=
  things.foldl Census.add {}

end Garage
