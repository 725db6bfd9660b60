/-!
# Events

What happens to cars is told to a log. `Logged` is a value together with the events on the way to
it, in order.
-/

namespace Garage

inductive Level where
  | trace
  | debug
  | warn
  deriving DecidableEq, Repr

inductive Event where
  | built (model : String) (horsepower : Int32)
  /-- A car is about to be driven. -/
  | driving (model : String)
  /-- The report of a drive did not reach its output, and the caller is not told. -/
  | notWritten (model : String) (error : String)
  deriving DecidableEq, Repr

inductive FieldValue where
  | text (s : String)
  | number (n : Int32)
  deriving DecidableEq, Repr

namespace Event

def level : Event → Level
  | built .. => .trace
  | driving .. => .debug
  | notWritten .. => .warn

def message : Event → String
  | built .. => "built car"
  | driving .. => "driving"
  | notWritten .. => "drive report not written"

def fields : Event → List (String × FieldValue)
  | built model horsepower => [("model", .text model), ("horsepower", .number horsepower)]
  | driving model => [("model", .text model)]
  | notWritten model error => [("model", .text model), ("error", .text error)]

end Event

/-- A value and the events on the way to it. -/
structure Logged (α : Type) where
  value : α
  events : List Event

namespace Logged

instance : Monad Logged where
  pure a := ⟨a, []⟩
  bind x f :=
    let y := f x.value
    ⟨y.value, x.events ++ y.events⟩

def emit (event : Event) : Logged Unit :=
  ⟨(), [event]⟩

@[simp] theorem value_pure {α : Type} (a : α) : (pure a : Logged α).value = a := rfl

@[simp] theorem events_pure {α : Type} (a : α) : (pure a : Logged α).events = [] := rfl

@[simp] theorem value_bind {α β : Type} (x : Logged α) (f : α → Logged β) :
    (x >>= f).value = (f x.value).value := rfl

@[simp] theorem events_bind {α β : Type} (x : Logged α) (f : α → Logged β) :
    (x >>= f).events = x.events ++ (f x.value).events := rfl

@[simp] theorem value_map {α β : Type} (f : α → β) (x : Logged α) :
    (f <$> x).value = f x.value := rfl

@[simp] theorem events_map {α β : Type} (f : α → β) (x : Logged α) :
    (f <$> x).events = x.events := List.append_nil _

@[simp] theorem events_emit (event : Event) : (emit event).events = [event] := rfl

instance : LawfulMonad Logged := LawfulMonad.mk' Logged
  (by intro α x; simp [Functor.map])
  (by intro α β a f; rfl)
  (by intro α β γ x f g; simp [bind, List.append_assoc])

end Logged

end Garage
