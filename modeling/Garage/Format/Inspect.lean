import Garage.Format.Quoted
import Garage.Format.Spec

/-!
# Debug text

A debug text names a value's type and fields. It has two layouts of the same content: on one line,
or one field a line, nested by four spaces, with a comma after every field.

* `Doc`: a document with both layouts.
* `Inspect`: the values that have a document. It is built over the way numbers are written, so a
  spec's number options reach the numbers and nothing else.
* `inspect`: the debug text of a value under a spec.
-/

namespace Garage.Format

/-- A document in both layouts. -/
structure Doc where
  flat : List Char
  lines : List (List Char)
  deriving DecidableEq, Repr

namespace Doc

def labelFirst (label : List Char) : List (List Char) → List (List Char)
  | [] => []
  | line :: rest => (label ++ line) :: rest

def closeLast : List (List Char) → List (List Char)
  | [] => []
  | [line] => [line ++ [',']]
  | line :: rest => line :: closeLast rest

/-- The lines of a labelled item inside a longer document: nested, with a comma at the end. -/
def nested (label : List Char) (item : Doc) : List (List Char) :=
  (closeLast (labelFirst label item.lines)).map (List.replicate 4 ' ' ++ ·)

/-- A text that is never broken. -/
def word (text : List Char) : Doc :=
  ⟨text, [text]⟩

def quoted (s : String) : Doc :=
  word (quote s.toList)

def tuple (name : String) (item : Doc) : Doc where
  flat := name.toList ++ ['('] ++ item.flat ++ [')']
  lines := (name.toList ++ ['(']) :: nested [] item ++ [[')']]

def fieldLabel (name : String) : List Char :=
  name.toList ++ [':', ' ']

def record (name : String) (fields : List (String × Doc)) : Doc where
  flat := name.toList ++ [' ', '\x7b', ' '] ++
    List.intercalate [',', ' '] (fields.map fun (field, item) => fieldLabel field ++ item.flat) ++
    [' ', '\x7d']
  lines := (name.toList ++ [' ', '\x7b']) ::
    fields.flatMap (fun (field, item) => nested (fieldLabel field) item) ++ [['\x7d']]

/-- The text of a document, in the long layout if asked for. -/
def layout (doc : Doc) (long : Bool) : List Char :=
  if long then List.intercalate ['\n'] doc.lines else doc.flat

end Doc

/-- Values with a debug text, over a way to write numbers. -/
class Inspect (α : Type) where
  doc : (Int32 → List Char) → α → Doc

/-- The debug text of a value. The spec chooses the layout and how numbers are written. -/
def inspect {α : Type} [Inspect α] (spec : Spec) (a : α) : String :=
  String.ofList ((Inspect.doc spec.integer a).layout spec.alternate)

end Garage.Format
