/-!
# Format specs

A format spec says how a text or a number fills its place: width, fill, alignment, precision, sign,
leading zeros and base. `Spec.text` applies it to a text and `Spec.integer` to a 32-bit integer.

* `displaySpecs`: the specs known for display, by name.
* `debugSpecs`: the specs known for debug text, by name.
-/

namespace Garage.Format

inductive Align where
  | left
  | right
  | centre
  deriving DecidableEq, Repr

/-- The base a number is written in. A number in base sixteen is the unsigned 32-bit word. -/
inductive Radix where
  | decimal
  | lowerHex
  | upperHex
  deriving DecidableEq, Repr

structure Spec where
  fill : Char := ' '
  /-- Without an alignment a text goes to the left and a number to the right. -/
  align : Option Align := none
  /-- A sign is written also for numbers that are not negative. -/
  signed : Bool := false
  /-- Asks for the long form: a mark for the base, one field a line. -/
  alternate : Bool := false
  /-- Numbers are filled with zeros after their sign, whatever the fill and alignment. -/
  zeroPad : Bool := false
  width : Nat := 0
  /-- The most characters of a text that are shown. -/
  precision : Option Nat := none
  radix : Radix := .decimal
  deriving DecidableEq, Repr

namespace Spec

/-- The spec of a placeholder without options. -/
def plain : Spec := {}

/-- Fills a text up to the width; a text that is long enough is left as it is. When a centred text
needs an odd number of fills, the extra one goes to the right. -/
def pad (spec : Spec) (default : Align) (text : List Char) : List Char :=
  let gap := spec.width - text.length
  let before := match spec.align.getD default with
    | .left => 0
    | .right => gap
    | .centre => gap / 2
  List.replicate before spec.fill ++ text ++ List.replicate (gap - before) spec.fill

/-- A text under a spec: cut to the precision, then filled. -/
def text (spec : Spec) (s : List Char) : List Char :=
  spec.pad .left (match spec.precision with
    | none => s
    | some n => s.take n)

def lead (spec : Spec) (n : Int32) : List Char :=
  match spec.radix with
  | .decimal => if n < 0 then ['-'] else if spec.signed then ['+'] else []
  | _ => (if spec.signed then ['+'] else []) ++ (if spec.alternate then ['0', 'x'] else [])

/-- The digits of a number: of its magnitude in base ten, of its 32-bit word in base sixteen. -/
def digits (spec : Spec) (n : Int32) : List Char :=
  match spec.radix with
  | .decimal => Nat.toDigits 10 n.toInt.natAbs
  | .lowerHex => Nat.toDigits 16 n.toUInt32.toNat
  | .upperHex => (Nat.toDigits 16 n.toUInt32.toNat).map Char.toUpper

/-- A number under a spec. Leading zeros stand between the sign and the digits. -/
def integer (spec : Spec) (n : Int32) : List Char :=
  let lead := spec.lead n
  let digits := spec.digits n
  if spec.zeroPad then
    lead ++ List.replicate (spec.width - (lead.length + digits.length)) '0' ++ digits
  else
    spec.pad .right (lead ++ digits)

/-! ## Named specs -/

def displaySpecs : List (String × Spec) :=
  [("", {}),
   (">60", { align := some .right, width := 60 }),
   ("<60", { align := some .left, width := 60 }),
   ("*^60", { fill := '*', align := some .centre, width := 60 }),
   (".5", { precision := some 5 }),
   ("+", { signed := true }),
   ("#", { alternate := true }),
   ("060", { zeroPad := true, width := 60 }),
   ("-^60.3", { fill := '-', align := some .centre, width := 60, precision := some 3 })]

def debugSpecs : List (String × Spec) :=
  [("?", {}),
   ("#?", { alternate := true }),
   (".2?", { precision := some 2 }),
   ("x?", { radix := .lowerHex }),
   ("X?", { radix := .upperHex }),
   ("#x?", { alternate := true, radix := .lowerHex }),
   ("#X?", { alternate := true, radix := .upperHex }),
   ("+?", { signed := true }),
   ("08?", { zeroPad := true, width := 8 }),
   ("6?", { width := 6 }),
   ("#6?", { alternate := true, width := 6 }),
   ("<6?", { align := some .left, width := 6 }),
   ("*^9?", { fill := '*', align := some .centre, width := 9 })]

def display? (name : String) : Option Spec :=
  displaySpecs.lookup name

def debug? (name : String) : Option Spec :=
  debugSpecs.lookup name

end Spec

end Garage.Format
