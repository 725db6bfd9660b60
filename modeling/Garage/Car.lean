import Garage.Engine
import Garage.Report

/-!
# Cars

A car has a model name, taken as it is, and owns one engine. Every car has the stock engine, and
nothing about a car changes once it is there.
-/

namespace Garage

open Format

structure Car where
  model : String
  engine : Engine
  engine_eq_stock : engine = .stock
  deriving DecidableEq, Repr

instance : Hashable Car where
  hash car := mixHash (hash car.model) (hash car.engine)

/-- The car of a model name, with the stock engine. -/
def Car.ofModel (model : String) : Car :=
  ⟨model, .stock, rfl⟩

/-- What a drive of the car has to tell. -/
def Car.report (car : Car) : Report :=
  ⟨car.model, car.engine.horsepower⟩

instance : Inspect Engine where
  doc number engine := .record "Engine" [("horsepower", .word (number engine.horsepower))]

instance : Inspect Car where
  doc number car := .record "Car"
    [("model", .quoted car.model), ("engine", Inspect.doc number car.engine)]

end Garage
