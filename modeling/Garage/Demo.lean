import Garage.Drive

/-!
# The demo

The demo builds one car and drives it to the program's own output.
-/

namespace Garage

/-- What a program leaves behind. -/
structure Outcome where
  exitCode : UInt32
  stdout : Array UInt8
  stderr : Array UInt8
  deriving DecidableEq

/-- The demo drive. Its events go nowhere, and it succeeds whatever becomes of the output. -/
def demo (outlet : Outlet) : Outcome :=
  let drive : Logged (Array UInt8) := do (← Car.build "Tesla Model S").drive outlet
  ⟨0, drive.value, #[]⟩

end Garage
