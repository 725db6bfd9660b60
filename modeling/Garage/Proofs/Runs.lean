import Garage.Proofs.Stepping
import Garage.Run

/-!
# Runs act by act

A run is its acts one after the other: what an act gives back, what it logs and the world it leaves
are those of the act alone in the world that the acts before it left.

* `value_run`, `events_run_cons`: a run by its acts.
* `worldAfter`: the world between two acts of a run.
-/

namespace Garage

/-- The world before anything is done, with sinks that take all they are given. -/
def World.fresh : World := ⟨fun _ => Outlet.working.sink, #[]⟩

theorem value_run (acts : List Act) (world : World) :
    (run acts world).value = stepEach (fun world act => (act.perform world).value) acts world := by
  induction acts generalizing world with
  | nil => rfl
  | cons act rest ih =>
    rw [stepEach, ← ih]
    rfl

theorem events_run_cons (act : Act) (rest : List Act) (world : World) :
    (run (act :: rest) world).events =
      (act.perform world).events ++ (run rest (act.perform world).value.2).events := by
  simp only [run, Logged.events_bind, Logged.events_pure, List.append_nil]

/-- The world after the first acts of a run. -/
def worldAfter (acts : List Act) (world : World) (k : Nat) : World :=
  (run (acts.take k) world).value.2

end Garage
