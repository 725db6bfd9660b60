import Garage.Format.Spec

/-!
# Display text

A value is displayed as a list of fragments, handed to a writer one after the other. What becomes
of the spec of the place it is shown in is for the value's type to say: a text and a number follow
it, a type with a fixed wording does not.

* `Display`: the values that can be displayed.
* `writeEach`: hands fragments to a writer and stops at the first error.
* `CharWriter`: a writer with room for so many characters.
-/

namespace Garage.Format

class Display (α : Type) where
  /-- The fragments of the text, in order, under the spec of the place. -/
  fragments : Spec → α → List (List Char)

instance : Display String where
  fragments spec s := [spec.text s.toList]

/-- A number is one fragment, fill and sign included. A writer that is handed these apart takes the
same characters, also if it fails amid them. -/
instance : Display Int32 where
  fragments spec n := [spec.integer n]

def display {α : Type} [Display α] (spec : Spec) (a : α) : String :=
  String.ofList (Display.fragments spec a).flatten

/-! ## Writers -/

/-- Hands fragments to a writer in order, up to the first error. -/
def writeEach {σ φ ε : Type} (put : σ → φ → Except ε Unit × σ) :
    σ → List φ → Except ε Unit × σ
  | writer, [] => (.ok (), writer)
  | writer, fragment :: rest =>
    match put writer fragment with
    | (.error e, writer) => (.error e, writer)
    | (.ok (), writer) => writeEach put writer rest

/-- A writer that takes characters as long as it has room. -/
structure CharWriter where
  room : Nat
  text : List Char := []
  deriving DecidableEq, Repr

/-- Takes what fits of a fragment, and fails if that is not all of it. -/
def CharWriter.put (writer : CharWriter) (fragment : List Char) :
    Except Unit Unit × CharWriter :=
  let writer' := ⟨writer.room - fragment.length, writer.text ++ fragment.take writer.room⟩
  if fragment.length ≤ writer.room then (.ok (), writer') else (.error (), writer')

/-- Displays a value into a writer with room for so many characters: whether all of it was taken,
and what was. -/
def displayWithin {α : Type} [Display α] (room : Nat) (a : α) : Bool × String :=
  match writeEach CharWriter.put { room } (Display.fragments Spec.plain a) with
  | (.ok (), writer) => (true, String.ofList writer.text)
  | (.error (), writer) => (false, String.ofList writer.text)

end Garage.Format
