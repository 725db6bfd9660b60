/-!
# Engines

An engine is its rating, a 32-bit whole number of horsepower. Nothing is refused: a rating may be
zero or negative.
-/

namespace Garage

/-- An engine with a fixed rating. -/
structure Engine where
  horsepower : Int32
  deriving DecidableEq, Hashable, Repr

/-- The rating of the engine fitted to every new car. -/
def stockHorsepower : Int32 := 200

/-- The engine fitted to every new car. -/
def Engine.stock : Engine := ⟨stockHorsepower⟩

end Garage
