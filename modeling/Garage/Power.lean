import Garage.Binary64
import Garage.Engine

/-!
# Power

The power of an engine is a number of watts in double precision, read in any of the units of the
table. Every operation is exact and then rounded once.
-/

namespace Garage

inductive PowerUnit where
  | watt
  | kilowatt
  | megawatt
  | gigawatt
  | milliwatt
  | ergPerSecond
  | footPoundPerSecond
  | horsepower
  | horsepowerBoiler
  | horsepowerElectric
  | horsepowerImperial
  | horsepowerMetric
  | hydraulicHorsepower
  deriving DecidableEq, Repr

namespace PowerUnit

def all : List PowerUnit :=
  [watt, kilowatt, megawatt, gigawatt, milliwatt, ergPerSecond, footPoundPerSecond, horsepower,
   horsepowerBoiler, horsepowerElectric, horsepowerImperial, horsepowerMetric, hydraulicHorsepower]

def name : PowerUnit → String
  | watt => "watt"
  | kilowatt => "kilowatt"
  | megawatt => "megawatt"
  | gigawatt => "gigawatt"
  | milliwatt => "milliwatt"
  | ergPerSecond => "erg_per_second"
  | footPoundPerSecond => "foot_pound_per_second"
  | horsepower => "horsepower"
  | horsepowerBoiler => "horsepower_boiler"
  | horsepowerElectric => "horsepower_electric"
  | horsepowerImperial => "horsepower_imperial"
  | horsepowerMetric => "horsepower_metric"
  | hydraulicHorsepower => "hydraulic_horsepower"

def ofName? (s : String) : Option PowerUnit :=
  all.find? (·.name == s)

/-- The watts in one of a unit, as the table writes them. -/
def decimalWatts : PowerUnit → Rat
  | watt => 1
  | kilowatt => 1000
  | megawatt => 1000000
  | gigawatt => 1000000000
  | milliwatt => mkRat 1 1000
  | ergPerSecond => mkRat 1 10000000
  | footPoundPerSecond => mkRat 1355818 1000000
  | horsepower => mkRat 7456999 10000
  | horsepowerBoiler => mkRat 98095 10
  | horsepowerElectric => 746
  | horsepowerImperial => mkRat 7457 10
  | horsepowerMetric => mkRat 7354988 10000
  | hydraulicHorsepower => mkRat 746043 1000

/-- The watts in one of a unit, in double precision. -/
def watts (u : PowerUnit) : Rat :=
  Binary64.round u.decimalWatts

/-- The units read when none are asked for. -/
def defaults : List PowerUnit :=
  [horsepower, kilowatt, watt]

end PowerUnit

/-- An amount of power, a number of double precision. -/
structure Power where
  watts : Rat
  deriving DecidableEq

/-- The power of an engine of this rating. -/
def Engine.power (engine : Engine) : Power :=
  ⟨Binary64.round (engine.horsepower.toInt * PowerUnit.horsepower.watts)⟩

/-- An amount of power in a unit. For a unit less than a watt the reciprocal is rounded first. -/
def Power.reading (power : Power) (u : PowerUnit) : Rat :=
  if 1 ≤ u.watts then Binary64.round (power.watts / u.watts)
  else Binary64.round (power.watts * Binary64.round (1 / u.watts))

end Garage
