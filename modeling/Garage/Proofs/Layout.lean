import Mathlib.Data.List.Basic
import Garage.Format.Inspect
import Garage.Proofs.Quoting

/-!
# The text of a document

Both layouts of a document are one text but for the gaps. In the long layout a gap is a line break
that goes back to the depth of the document, and the last item is followed by a comma. So the text
of a tuple or a record is given by the texts of its items, at any depth and in either layout.

* `Doc.text`: the text of a document inside a longer one (`Doc.toList_inspect`).
* `Doc.text_word`, `Doc.text_tuple`, `Doc.text_record`: the texts of documents by their items.
* `Doc.text_record_concat`: the text of a record around that of its last field.
* `Doc.text_tuple_inj`, `Doc.text_record_inj`, `Doc.fieldsText_cons_inj`: from the text of a
  document back to the texts of its items.
-/

namespace Garage.Format

theorem intercalate_cons_eq_flatMap (sep line : List Char) (rest : List (List Char)) :
    sep.intercalate (line :: rest) = line ++ rest.flatMap (sep ++ ·) := by
  induction rest generalizing line with
  | nil => rw [List.intercalate_singleton, List.flatMap_nil, List.append_nil]
  | cons next rest ih =>
    rw [List.intercalate_cons_cons, ih, List.flatMap_cons, List.append_assoc, List.append_assoc]

theorem flatMap_append_mark {α : Type} (mark front : List Char) (f : α → List Char) (first : α)
    (rest : List α) :
    (first :: rest).flatMap (fun a => front ++ f a ++ mark) =
      front ++ (mark ++ front).intercalate ((first :: rest).map f) ++ mark := by
  induction rest generalizing first with
  | nil => simp only [List.flatMap_singleton, List.map_singleton, List.intercalate_singleton]
  | cons next rest ih =>
    rw [List.flatMap_cons, ih]
    simp only [List.map_cons, List.intercalate_cons_cons, List.append_assoc]

namespace Doc

/-- A line break, and the indentation of a depth. -/
def lineBreak (depth : Nat) : List Char :=
  '\n' :: List.replicate (4 * depth) ' '

/-- What stands between two parts of a text: a line break in the long layout. -/
def gap (long : Bool) (depth : Nat) (short : List Char) : List Char :=
  if long then lineBreak depth else short

/-- The comma behind the last item, which only the long layout has. -/
def lastComma (long : Bool) : List Char :=
  if long then [','] else []

/-- The text of a document at a depth of a longer one. -/
def text (doc : Doc) (long : Bool) (depth : Nat) : List Char :=
  if long then (lineBreak depth).intercalate doc.lines else doc.flat

theorem toList_inspect {α : Type} [Inspect α] (spec : Spec) (a : α) :
    (inspect spec a).toList = (Inspect.doc spec.integer a).text spec.alternate 0 :=
  String.toList_ofList

theorem text_eq_of_inspect_eq {α β : Type} [Inspect α] [Inspect β] {spec : Spec} {a : α} {b : β}
    (h : inspect spec a = inspect spec b) :
    (Inspect.doc spec.integer a).text spec.alternate 0 =
      (Inspect.doc spec.integer b).text spec.alternate 0 := by
  rw [← toList_inspect, ← toList_inspect, h]

theorem text_word (s : List Char) (long : Bool) (depth : Nat) : (word s).text long depth = s := by
  cases long with
  | false => rfl
  | true =>
    show (lineBreak depth).intercalate [s] = s
    rw [List.intercalate_singleton]

/-! ## The lines of an item -/

theorem flatMap_indent (depth : Nat) (lines : List (List Char)) :
    (lines.map (List.replicate 4 ' ' ++ ·)).flatMap (lineBreak depth ++ ·) =
      lines.flatMap (lineBreak (depth + 1) ++ ·) := by
  have hindent : lineBreak depth ++ List.replicate 4 ' ' = lineBreak (depth + 1) := by
    rw [lineBreak, List.cons_append, List.replicate_append_replicate]
    rfl
  rw [List.flatMap_map, ← hindent]
  simp only [List.append_assoc]

theorem flatMap_closeLast (sep : List Char) {lines : List (List Char)} (h : lines ≠ []) :
    (closeLast lines).flatMap (sep ++ ·) = lines.flatMap (sep ++ ·) ++ [','] := by
  induction lines with
  | nil => exact absurd rfl h
  | cons line rest ih =>
    cases rest with
    | nil => simp only [closeLast, List.flatMap_singleton, List.append_assoc]
    | cons next rest =>
      rw [closeLast, List.flatMap_cons, ih (List.cons_ne_nil _ _), ← List.append_assoc,
        ← List.flatMap_cons]
      · exact List.cons_ne_nil _ _

theorem labelFirst_ne_nil (label : List Char) {lines : List (List Char)} (h : lines ≠ []) :
    labelFirst label lines ≠ [] := by
  cases lines with
  | nil => exact absurd rfl h
  | cons line rest => exact List.cons_ne_nil _ _

theorem flatMap_labelFirst (sep label : List Char) {lines : List (List Char)} (h : lines ≠ []) :
    (labelFirst label lines).flatMap (sep ++ ·) = sep ++ label ++ sep.intercalate lines := by
  cases lines with
  | nil => exact absurd rfl h
  | cons line rest =>
    rw [labelFirst, List.flatMap_cons, intercalate_cons_eq_flatMap]
    simp only [List.append_assoc]

theorem flatMap_nested (depth : Nat) (label : List Char) {item : Doc} (h : item.lines ≠ []) :
    (nested label item).flatMap (lineBreak depth ++ ·) =
      lineBreak (depth + 1) ++ (label ++ item.text true (depth + 1)) ++ [','] := by
  rw [nested, flatMap_indent, flatMap_closeLast _ (labelFirst_ne_nil label h),
    flatMap_labelFirst _ label h, List.append_assoc (lineBreak (depth + 1))]
  rfl

/-! ## Documents of items -/

theorem text_tuple (name : String) {item : Doc} (h : item.lines ≠ []) (long : Bool) (depth : Nat) :
    (tuple name item).text long depth =
      name.toList ++ ['('] ++ gap long (depth + 1) [] ++ item.text long (depth + 1) ++
        (lastComma long ++ gap long depth [] ++ [')']) := by
  cases long with
  | false => simp [tuple, text, gap, lastComma]
  | true =>
    show (lineBreak depth).intercalate (_ :: (nested [] item ++ _)) = _
    rw [intercalate_cons_eq_flatMap, List.flatMap_append, flatMap_nested depth [] h]
    simp [gap, lastComma]

/-- There are fields, and each has a text. -/
def Filled (fields : List (String × Doc)) : Prop :=
  fields ≠ [] ∧ ∀ field ∈ fields, field.2.lines ≠ []

/-- The fields of a record in order, each under its label, with commas in between. -/
def fieldsText (fields : List (String × Doc)) (long : Bool) (depth : Nat) : List Char :=
  (',' :: gap long depth [' ']).intercalate
    (fields.map fun field => fieldLabel field.1 ++ field.2.text long depth)

theorem text_record (name : String) {fields : List (String × Doc)} (h : Filled fields)
    (long : Bool) (depth : Nat) :
    (record name fields).text long depth =
      name.toList ++ [' ', '\x7b'] ++ gap long (depth + 1) [' '] ++
          fieldsText fields long (depth + 1) ++
        (lastComma long ++ gap long depth [' '] ++ ['\x7d']) := by
  cases long with
  | false => simp [record, text, gap, lastComma, fieldsText]
  | true =>
    obtain ⟨first, rest, rfl⟩ := List.exists_cons_of_ne_nil h.1
    -- The comma that closes each field is the one before the next field, or the last one.
    have hfields :
        ((first :: rest).flatMap fun field => nested (fieldLabel field.1) field.2).flatMap
            (lineBreak depth ++ ·) =
          lineBreak (depth + 1) ++ fieldsText (first :: rest) true (depth + 1) ++ [','] := by
      rw [List.flatMap_assoc,
        List.flatMap_congr fun field hfield => flatMap_nested depth _ (h.2 field hfield)]
      exact flatMap_append_mark [','] (lineBreak (depth + 1)) _ first rest
    show (lineBreak depth).intercalate (_ :: ((first :: rest).flatMap _ ++ _)) = _
    rw [intercalate_cons_eq_flatMap, List.flatMap_append, hfields]
    simp [gap, lastComma]

theorem fieldsText_singleton (field : String × Doc) (long : Bool) (depth : Nat) :
    fieldsText [field] long depth = fieldLabel field.1 ++ field.2.text long depth := by
  rw [fieldsText, List.map_singleton, List.intercalate_singleton]

theorem fieldsText_cons_cons (field next : String × Doc) (rest : List (String × Doc)) (long : Bool)
    (depth : Nat) :
    fieldsText (field :: next :: rest) long depth =
      fieldLabel field.1 ++ (field.2.text long depth ++
        ',' :: (gap long depth [' '] ++ fieldsText (next :: rest) long depth)) := by
  simp only [fieldsText, List.map_cons, List.intercalate_cons_cons, List.append_assoc,
    List.cons_append]

/-! ### The last field -/

/-- What stands before the last field of a record, its label included. -/
def front (name : String) (fields : List (String × Doc)) (label : String) (long : Bool)
    (depth : Nat) : List Char :=
  name.toList ++ [' ', '\x7b'] ++ gap long (depth + 1) [' '] ++
    fields.flatMap (fun field => fieldLabel field.1 ++ (field.2.text long (depth + 1) ++
      ',' :: gap long (depth + 1) [' '])) ++
    fieldLabel label

/-- What stands behind the last field of a record. -/
def closing (long : Bool) (depth : Nat) : List Char :=
  lastComma long ++ gap long depth [' '] ++ ['\x7d']

theorem fieldsText_concat (fields : List (String × Doc)) (last : String × Doc) (long : Bool)
    (depth : Nat) :
    fieldsText (fields ++ [last]) long depth =
      fields.flatMap (fun field => fieldLabel field.1 ++ (field.2.text long depth ++
        ',' :: gap long depth [' '])) ++ (fieldLabel last.1 ++ last.2.text long depth) := by
  induction fields with
  | nil => exact fieldsText_singleton last long depth
  | cons field rest ih =>
    obtain ⟨next, more, hrest⟩ := List.exists_cons_of_ne_nil (List.concat_ne_nil last rest)
    rw [List.cons_append, hrest, fieldsText_cons_cons, ← hrest, ih, List.flatMap_cons]
    simp only [List.append_assoc, List.cons_append]

theorem text_record_concat (name : String) (fields : List (String × Doc)) (label : String)
    {item : Doc} (h : Filled (fields ++ [(label, item)])) (long : Bool) (depth : Nat) :
    (record name (fields ++ [(label, item)])).text long depth =
      front name fields label long depth ++ item.text long (depth + 1) ++ closing long depth := by
  rw [text_record name h, fieldsText_concat, front, closing]
  simp only [List.append_assoc]

/-! ## Reading a document -/

section Documents

variable {name : String} {fields fields' : List (String × Doc)} {item item' : Doc} {α : Type}
  {write : α → List Char} {a b : α} {long : Bool} {depth : Nat}

theorem text_record_inj (h : Filled fields) (h' : Filled fields')
    (heq : (record name fields).text long depth = (record name fields').text long depth) :
    fieldsText fields long (depth + 1) = fieldsText fields' long (depth + 1) := by
  rw [text_record name h, text_record name h'] at heq
  exact List.append_cancel_left (List.append_cancel_right heq)

theorem text_tuple_inj (h : item.lines ≠ []) (h' : item'.lines ≠ [])
    (heq : (tuple name item).text long depth = (tuple name item').text long depth) :
    item.text long (depth + 1) = item'.text long (depth + 1) := by
  rw [text_tuple name h, text_tuple name h'] at heq
  exact List.append_cancel_left (List.append_cancel_right heq)

theorem fieldsText_singleton_inj (h : Function.Injective write) {label : String}
    (heq : fieldsText [(label, word (write a))] long depth =
      fieldsText [(label, word (write b))] long depth) : a = b := by
  rw [fieldsText_singleton, fieldsText_singleton, text_word, text_word] at heq
  exact h (List.append_cancel_left heq)

theorem fieldsText_cons_inj (h : Delimited ',' write) {label : String} {next next' : String × Doc}
    {rest rest' : List (String × Doc)}
    (heq : fieldsText ((label, word (write a)) :: next :: rest) long depth =
      fieldsText ((label, word (write b)) :: next' :: rest') long depth) :
    a = b ∧ fieldsText (next :: rest) long depth = fieldsText (next' :: rest') long depth := by
  rw [fieldsText_cons_cons, fieldsText_cons_cons, text_word, text_word] at heq
  obtain ⟨rfl, hrest⟩ := h (List.append_cancel_left heq)
  exact ⟨rfl, List.append_cancel_left hrest⟩

theorem takeWhile_text_record (hname : name.toList.all Char.isAlpha = true) (h : Filled fields) :
    ((record name fields).text long depth).takeWhile Char.isAlpha = name.toList := by
  rw [text_record name h]
  simp only [List.append_assoc]
  rw [List.takeWhile_append_of_pos (List.all_eq_true.mp hname)]
  exact List.append_nil _

theorem takeWhile_text_tuple (hname : name.toList.all Char.isAlpha = true) (h : item.lines ≠ []) :
    ((tuple name item).text long depth).takeWhile Char.isAlpha = name.toList := by
  rw [text_tuple name h]
  simp only [List.append_assoc]
  rw [List.takeWhile_append_of_pos (List.all_eq_true.mp hname)]
  exact List.append_nil _

end Documents

end Doc

end Garage.Format
