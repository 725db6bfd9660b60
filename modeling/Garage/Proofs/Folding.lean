import Garage.Proofs.DebugText
import Garage.Proofs.Printable

/-!
# Both layouts have one content

The long layout of a debug text folds back to the short one by its lines alone: without their
indentation, and without the comma before a closing brace, they are the pieces of the short text.
This needs no look into the text of a line, so a model may look like layout.

* `foldLines`: folds a text.
* `Doc.Folds`: an item of a longer document whose lines fold to its text on one line. Words do
  (`Doc.Folds.word`), and so does a record if its fields do (`Doc.Folds.record`).
* `Doc.joinLines_record`: the lines of a record fold to its text on one line.
* `foldLines_inspect`: what this says of debug texts.
-/

namespace Garage

open Format

namespace Format

/-! ## Folding -/

def unindent (line : List Char) : List Char :=
  line.dropWhile (· == ' ')

/-- The line starts with a closing brace. -/
def closes (line : List Char) : Bool :=
  line.head? == some '\x7d'

def dropLastComma (line : List Char) : List Char :=
  if line.getLast? = some ',' then line.dropLast else line

/-- Drops the last comma of every line before one that starts with a closing brace. -/
def dropCommas : List (List Char) → List (List Char)
  | [] => []
  | [line] => [line]
  | line :: next :: rest =>
    (if closes next then dropLastComma line else line) :: dropCommas (next :: rest)

/-- Joins lines without indentation by blanks. -/
def joinLines (lines : List (List Char)) : List Char :=
  List.intercalate [' '] (dropCommas lines)

/-- The lines of a text on one line, without indentation and without commas before closing
braces. -/
def foldLines (text : String) : String :=
  String.ofList (joinLines ((text.toList.splitOn '\n').map unindent))

theorem joinLines_cons_cons (line next : List Char) (rest : List (List Char)) :
    joinLines (line :: next :: rest) =
      (if closes next then dropLastComma line else line) ++ ' ' :: joinLines (next :: rest) := by
  have hcons : ∃ first more, dropCommas (next :: rest) = first :: more := by
    cases rest <;> exact ⟨_, _, rfl⟩
  obtain ⟨first, more, hnext⟩ := hcons
  rw [joinLines, joinLines, dropCommas, hnext, List.intercalate_cons_cons, List.append_assoc]
  rfl

theorem dropLastComma_concat (line : List Char) : dropLastComma (line ++ [',']) = line := by
  rw [dropLastComma, List.getLast?_concat, if_pos rfl, List.dropLast_concat]

/-- A text that starts neither with a blank nor with a closing brace. -/
def IsLabel (label : List Char) : Prop :=
  ∃ c ∈ label.head?, c ≠ ' ' ∧ c ≠ '\x7d'

instance (label : List Char) : Decidable (IsLabel label) :=
  Option.decidableExistsMem label.head?

section Label

variable {label : List Char} (h : IsLabel label) (text : List Char)
include h

theorem IsLabel.append : IsLabel (label ++ text) := by
  obtain ⟨c, hc, hne⟩ := h
  refine ⟨c, ?_, hne⟩
  rw [List.head?_append, Option.mem_def.mp hc]
  rfl

theorem IsLabel.unindent_eq : unindent label = label := by
  obtain ⟨c, hc, hblank, -⟩ := h
  obtain ⟨rest, rfl⟩ := List.head?_eq_some_iff.mp hc
  exact List.dropWhile_cons_of_neg (by simpa using hblank)

theorem IsLabel.not_closes : closes label = false := by
  obtain ⟨c, hc, -, hbrace⟩ := h
  rw [closes, Option.mem_def.mp hc]
  simpa using hbrace

end Label

/-! ## Documents -/

namespace Doc

/-- The lines of a nested item without indentation. -/
def nestedLines (label : List Char) (item : Doc) : List (List Char) :=
  (nested label item).map unindent

theorem nestedLines_eq (label : List Char) (item : Doc) :
    nestedLines label item = (closeLast (labelFirst label item.lines)).map unindent := by
  rw [nestedLines, nested, List.map_map]
  rfl

theorem closeLast_concat (lines : List (List Char)) (last : List Char) :
    closeLast (lines ++ [last]) = lines ++ [last ++ [',']] := by
  induction lines with
  | nil => rfl
  | cons line rest ih =>
    obtain ⟨next, more, hrest⟩ := List.exists_cons_of_ne_nil (List.concat_ne_nil last rest)
    rw [List.cons_append, hrest, closeLast, ← hrest, ih, List.cons_append]
    exact List.cons_ne_nil _ _

theorem nestedLines_word {label : List Char} (h : IsLabel label) (text : List Char) :
    nestedLines label (word text) = [label ++ text ++ [',']] := by
  rw [nestedLines_eq]
  show [unindent (label ++ text ++ [','])] = _
  rw [((h.append text).append [',']).unindent_eq]

theorem exists_nestedLines_eq_cons {label : List Char} (h : IsLabel label) {item : Doc}
    (hitem : item.lines ≠ []) : ∃ text more, nestedLines label item = (label ++ text) :: more := by
  obtain ⟨line, rest, hlines⟩ := List.exists_cons_of_ne_nil hitem
  rw [nestedLines_eq, hlines, labelFirst]
  cases rest with
  | nil =>
    refine ⟨line ++ [','], [], ?_⟩
    rw [closeLast, List.append_assoc, List.map_singleton, (h.append _).unindent_eq]
  | cons next rest =>
    refine ⟨line, (closeLast (next :: rest)).map unindent, ?_⟩
    rw [closeLast, List.map_cons, (h.append _).unindent_eq]
    exact List.cons_ne_nil _ _

/-- A document whose lines, nested in a longer document, fold to its text on one line. A comma
follows, unless the line behind it closes the longer document. -/
structure Folds (item : Doc) : Prop where
  lines_ne_nil : item.lines ≠ []
  joinLines_append : ∀ label next rest, IsLabel label →
    joinLines (nestedLines label item ++ next :: rest) =
      label ++ item.flat ++ (if closes next then [] else [',']) ++ ' ' :: joinLines (next :: rest)

theorem Folds.word (text : List Char) : (word text).Folds where
  lines_ne_nil := List.cons_ne_nil _ _
  joinLines_append label next rest h := by
    rw [nestedLines_word h, List.singleton_append, joinLines_cons_cons, dropLastComma_concat]
    by_cases hnext : closes next = true
    · rw [if_pos hnext, if_pos hnext, List.append_nil]
      rfl
    · rw [if_neg hnext, if_neg hnext]
      rfl

/-! ### Records -/

/-- The lines of the fields of a record without indentation. -/
def bodyLines (fields : List (String × Doc)) : List (List Char) :=
  fields.flatMap fun field => nestedLines (fieldLabel field.1) field.2

/-- The fields of a record on one line. -/
def bodyFlat (fields : List (String × Doc)) : List Char :=
  List.intercalate [',', ' '] (fields.map fun field => fieldLabel field.1 ++ field.2.flat)

theorem flat_record (name : String) (fields : List (String × Doc)) :
    (record name fields).flat =
      name.toList ++ [' ', '\x7b', ' '] ++ bodyFlat fields ++ [' ', '\x7d'] := rfl

theorem nestedLines_record {label : List Char} (h : IsLabel label) (name : String)
    (fields : List (String × Doc)) :
    nestedLines label (record name fields) =
      (label ++ (name.toList ++ [' ', '\x7b'])) :: (bodyLines fields ++ [['\x7d', ',']]) := by
  have hlines : labelFirst label (record name fields).lines =
      ((label ++ (name.toList ++ [' ', '\x7b'])) ::
        fields.flatMap fun field => nested (fieldLabel field.1) field.2) ++ [['\x7d']] := rfl
  rw [nestedLines_eq, hlines, closeLast_concat, List.map_append, List.map_cons,
    (h.append _).unindent_eq, List.map_flatMap]
  rfl

section Record

variable {fields : List (String × Doc)} (hne : fields ≠ [])
  (h : ∀ field ∈ fields, IsLabel field.1.toList ∧ field.2.Folds)
include hne h

theorem exists_bodyLines_eq_cons :
    ∃ label text more, IsLabel label ∧ bodyLines fields = (label ++ text) :: more := by
  obtain ⟨field, rest, rfl⟩ := List.exists_cons_of_ne_nil hne
  obtain ⟨hlabel, hfolds⟩ := h field List.mem_cons_self
  obtain ⟨text, more, hlines⟩ :=
    exists_nestedLines_eq_cons (hlabel.append [':', ' ']) hfolds.lines_ne_nil
  refine ⟨_, text, more ++ bodyLines rest, hlabel.append [':', ' '], ?_⟩
  rw [bodyLines, List.flatMap_cons, fieldLabel, hlines]
  rfl

theorem joinLines_bodyLines_append {close : List Char} (hclose : closes close = true)
    (behind : List (List Char)) :
    joinLines (bodyLines fields ++ close :: behind) =
      bodyFlat fields ++ ' ' :: joinLines (close :: behind) := by
  induction fields with
  | nil => exact absurd rfl hne
  | cons field rest ih =>
    obtain ⟨⟨hname, hfolds⟩, hrest⟩ := List.forall_mem_cons.mp h
    have hlabel : IsLabel (fieldLabel field.1) := hname.append [':', ' ']
    cases rest with
    | nil =>
      rw [bodyLines, List.flatMap_singleton, hfolds.joinLines_append _ _ _ hlabel, if_pos hclose,
        List.append_nil, bodyFlat, List.map_singleton, List.intercalate_singleton]
    | cons next rest =>
      obtain ⟨label, text, more, hnext, hbody⟩ :=
        exists_bodyLines_eq_cons (List.cons_ne_nil next rest) hrest
      have hlines : bodyLines (field :: next :: rest) ++ close :: behind =
          nestedLines (fieldLabel field.1) field.2 ++
            (label ++ text) :: (more ++ close :: behind) := by
        rw [bodyLines, List.flatMap_cons, ← bodyLines, hbody, List.append_assoc, List.cons_append]
      have hjoin := ih (List.cons_ne_nil next rest) hrest
      rw [hbody, List.cons_append] at hjoin
      rw [hlines, hfolds.joinLines_append _ _ _ hlabel, (hnext.append text).not_closes, hjoin]
      simp [bodyFlat, List.intercalate_cons_cons]

theorem joinLines_record_append {first close : List Char} (hclose : closes close = true)
    (behind : List (List Char)) :
    joinLines (first :: (bodyLines fields ++ close :: behind)) =
      first ++ ' ' :: (bodyFlat fields ++ ' ' :: joinLines (close :: behind)) := by
  obtain ⟨label, text, more, hlabel, hbody⟩ := exists_bodyLines_eq_cons hne h
  rw [← joinLines_bodyLines_append hne h hclose, hbody, List.cons_append, joinLines_cons_cons,
    (hlabel.append text).not_closes]
  rfl

theorem Folds.record (name : String) : (record name fields).Folds where
  lines_ne_nil := List.cons_ne_nil _ _
  joinLines_append label next behind hlabel := by
    rw [nestedLines_record hlabel, List.cons_append, List.append_assoc, List.singleton_append,
      joinLines_record_append hne h rfl, joinLines_cons_cons, flat_record]
    by_cases hnext : closes next = true
    · have hbrace : dropLastComma ['\x7d', ','] = ['\x7d'] := rfl
      simp only [if_pos hnext, hbrace, List.append_assoc, List.cons_append, List.nil_append]
    · simp only [if_neg hnext, List.append_assoc, List.cons_append, List.nil_append]

theorem joinLines_record {name : String} (hname : IsLabel name.toList) :
    joinLines ((record name fields).lines.map unindent) = (record name fields).flat := by
  have hlines : (record name fields).lines =
      ((name.toList ++ [' ', '\x7b']) ::
        fields.flatMap fun field => nested (fieldLabel field.1) field.2) ++ [['\x7d']] := rfl
  have hmap : (record name fields).lines.map unindent =
      (name.toList ++ [' ', '\x7b']) :: (bodyLines fields ++ [['\x7d']]) := by
    rw [hlines, List.map_append, List.map_cons, (hname.append _).unindent_eq, List.map_flatMap]
    rfl
  have hbrace : joinLines [['\x7d']] = ['\x7d'] := rfl
  rw [hmap, joinLines_record_append hne h rfl, hbrace, flat_record]
  simp only [List.append_assoc, List.cons_append, List.nil_append]

end Record

/-! ### Plain documents -/

/-- A name without control characters that starts neither with a blank nor with a closing brace. -/
def PlainName (name : String) : Prop :=
  Format.Printable name.toList ∧ IsLabel name.toList

instance (name : String) : Decidable (PlainName name) :=
  inferInstanceAs (Decidable (_ ∧ _))

/-- An item of a longer document that has lines without control characters, which fold. -/
structure Plain (item : Doc) : Prop where
  printable : item.Printable
  folds : item.Folds

structure PlainFields (fields : List (String × Doc)) : Prop where
  ne_nil : fields ≠ []
  name : ∀ field ∈ fields, PlainName field.1
  item : ∀ field ∈ fields, field.2.Plain

section Plain

variable {name label : String} {item : Doc} {fields : List (String × Doc)}

theorem PlainFields.singleton (hlabel : PlainName label) (hitem : item.Plain) :
    PlainFields [(label, item)] where
  ne_nil := List.cons_ne_nil _ _
  name := List.forall_mem_singleton.mpr hlabel
  item := List.forall_mem_singleton.mpr hitem

theorem PlainFields.cons (hlabel : PlainName label) (hitem : item.Plain) (h : PlainFields fields) :
    PlainFields ((label, item) :: fields) where
  ne_nil := List.cons_ne_nil _ _
  name := List.forall_mem_cons.mpr ⟨hlabel, h.name⟩
  item := List.forall_mem_cons.mpr ⟨hitem, h.item⟩

theorem PlainFields.folds (h : PlainFields fields) :
    ∀ field ∈ fields, IsLabel field.1.toList ∧ field.2.Folds :=
  fun field hmem => ⟨(h.name field hmem).2, (h.item field hmem).folds⟩

theorem PlainFields.printable (h : PlainFields fields) :
    ∀ field ∈ fields, Format.Printable field.1.toList ∧ field.2.Printable :=
  fun field hmem => ⟨(h.name field hmem).1, (h.item field hmem).printable⟩

theorem Plain.word {text : List Char} (h : Format.Printable text) : (word text).Plain :=
  ⟨.word h, .word text⟩

theorem Plain.record (hname : PlainName name) (h : PlainFields fields) :
    (record name fields).Plain :=
  ⟨.record hname.1 h.printable, .record h.ne_nil h.folds name⟩

end Plain

end Doc

end Format

/-! ## Things -/

section Things

variable {number : Int32 → List Char} (hnumber : ∀ n, Printable (number n))
include hnumber

theorem Thing.exists_record (thing : Thing) :
    ∃ name fields, Inspect.doc number thing = .record name fields ∧ Doc.PlainName name ∧
      Doc.PlainFields fields := by
  have hmodel : ∀ model : String, (Doc.quoted model).Plain :=
    fun model => .word (printable_quote _)
  have hengine : ∀ engine : Engine,
      Doc.PlainFields [("horsepower", .word (number engine.horsepower))] :=
    fun engine => .singleton (by decide) (.word (hnumber _))
  cases thing with
  | car car =>
    exact ⟨_, _, rfl, by decide, .cons (by decide) (hmodel car.model)
      (.singleton (by decide) (.record (by decide) (hengine car.engine)))⟩
  | engine engine => exact ⟨_, _, rfl, by decide, hengine engine⟩
  | report report =>
    exact ⟨_, _, rfl, by decide, .cons (by decide) (hmodel report.model)
      (.singleton (by decide) (.word (hnumber _)))⟩

theorem Thing.plain (thing : Thing) : (Inspect.doc number thing).Plain := by
  obtain ⟨name, fields, hdoc, hname, hfields⟩ := thing.exists_record hnumber
  rw [hdoc]
  exact .record hname hfields

theorem Thing.joinLines_doc (thing : Thing) :
    joinLines ((Inspect.doc number thing).lines.map unindent) =
      (Inspect.doc number thing).flat := by
  obtain ⟨name, fields, hdoc, hname, hfields⟩ := thing.exists_record hnumber
  rw [hdoc]
  exact Doc.joinLines_record hfields.ne_nil hfields.folds hname.2

end Things

/-- The number of lines in the long layout. -/
def Thing.lineCount : Thing → Nat
  | car _ => 6
  | engine _ => 3
  | report _ => 4

theorem Thing.length_lines (number : Int32 → List Char) (thing : Thing) :
    (Inspect.doc number thing).lines.length = thing.lineCount := by
  cases thing <;> rfl

/-! ## Debug texts -/

section Inspect

variable {spec : Spec} (hfill : ¬ IsControl spec.fill) (thing : Thing)
include hfill

theorem printable_inspect (hshort : spec.alternate = false) :
    Printable (inspect spec thing).toList := by
  rw [inspect, String.toList_ofList, Doc.layout, hshort]
  exact (thing.plain (Spec.printable_integer hfill)).printable.flat

variable (hlong : spec.alternate = true)
include hlong

theorem splitOn_inspect :
    (inspect spec thing).toList.splitOn '\n' = (Inspect.doc spec.integer thing).lines := by
  have hplain := thing.plain (Spec.printable_integer hfill)
  have htext : (inspect spec thing).toList =
      List.intercalate ['\n'] (Inspect.doc spec.integer thing).lines := by
    rw [inspect, String.toList_ofList, Doc.layout, if_pos hlong]
  rw [htext, List.splitOn_intercalate _ _ hplain.folds.lines_ne_nil]
  intro line hline hbreak
  exact hplain.printable.lines line hline '\n' hbreak (by decide)

theorem eq_newline_of_isControl {c : Char} (hc : c ∈ (inspect spec thing).toList)
    (hcontrol : IsControl c) : c = '\n' := by
  have hlines := (thing.plain (Spec.printable_integer hfill)).printable.lines
  rw [← splitOn_inspect hfill thing hlong] at hlines
  have hjoined : c ∈ List.intercalate ['\n'] ((inspect spec thing).toList.splitOn '\n') := by
    rwa [List.intercalate_splitOn]
  refine forall_mem_intercalate (p := fun c => IsControl c → c = '\n') ?_ ?_ c hjoined hcontrol
  · exact List.forall_mem_singleton.mpr fun _ => rfl
  · exact fun line hline c hc hcontrol => absurd hcontrol (hlines line hline c hc)

end Inspect

theorem Format.Spec.integer_alternate {spec : Spec} (h : spec.radix = .decimal) (long : Bool) :
    ({ spec with alternate := long } : Spec).integer = spec.integer := by
  funext n
  simp only [integer, lead, digits, pad, h]

theorem foldLines_inspect (spec : Spec) (hradix : spec.radix = .decimal)
    (hfill : ¬ IsControl spec.fill) (thing : Thing) :
    foldLines (inspect { spec with alternate := true } thing) =
      inspect { spec with alternate := false } thing := by
  have hfill' : ¬ IsControl ({ spec with alternate := true } : Spec).fill := hfill
  have hlines := splitOn_inspect hfill' thing rfl
  rw [Spec.integer_alternate hradix true] at hlines
  rw [foldLines, hlines, thing.joinLines_doc (Spec.printable_integer hfill), inspect,
    Spec.integer_alternate hradix false]
  rfl

/-- The long layout has `lineCount` lines and `foldLines` makes the short one of it. Neither has a
control character, the `'\n'` between the lines apart. -/
theorem inspect_layouts {short long : String}
    (h : (short, long) ∈ [("?", "#?"), ("6?", "#6?")]) (thing : Thing) :
    ∃ flat broken : Spec, Spec.debug? short = some flat ∧ Spec.debug? long = some broken ∧
      Printable (inspect flat thing).toList ∧
      (∀ c ∈ (inspect broken thing).toList, IsControl c → c = '\n') ∧
      ((inspect broken thing).toList.splitOn '\n').length = thing.lineCount ∧
      foldLines (inspect broken thing) = inspect flat thing := by
  have hnamed : ∃ width : Nat, Spec.debug? short = some { width } ∧
      Spec.debug? long = some { alternate := true, width } := by
    rcases List.mem_pair.mp h with hpair | hpair
    · obtain ⟨rfl, rfl⟩ := Prod.mk.inj hpair
      exact ⟨0, by decide⟩
    · obtain ⟨rfl, rfl⟩ := Prod.mk.inj hpair
      exact ⟨6, by decide⟩
  obtain ⟨width, hshort, hlong⟩ := hnamed
  have hfill : ¬ IsControl ' ' := by decide
  refine ⟨_, _, hshort, hlong, ?_, ?_, ?_, ?_⟩
  · exact printable_inspect hfill thing rfl
  · exact fun c hc => eq_newline_of_isControl hfill thing rfl hc
  · rw [splitOn_inspect hfill thing rfl, thing.length_lines]
  · exact foldLines_inspect { width } rfl hfill thing

/-- A model that goes on as the long layout of a car does. -/
theorem inspect_layouts_braces :
    ("6?", "#6?") ∈ [("?", "#?"), ("6?", "#6?")] ∧
      Spec.debug? "6?" = some { width := 6 } ∧
      Spec.debug? "#6?" = some { alternate := true, width := 6 } ∧
      ((inspect { alternate := true, width := 6 }
        (Thing.car (.ofModel "M\",\n\x7d,\n    engine: \\  "))).toList.splitOn '\n').length = 6 ∧
      foldLines (inspect { alternate := true, width := 6 }
          (Thing.car (.ofModel "M\",\n\x7d,\n    engine: \\  "))) =
        inspect { width := 6 } (Thing.car (.ofModel "M\",\n\x7d,\n    engine: \\  ")) := by
  have hpair : ("6?", "#6?") ∈ [("?", "#?"), ("6?", "#6?")] := by decide
  have hshort : Spec.debug? "6?" = some { width := 6 } := by decide
  have hlong : Spec.debug? "#6?" = some { alternate := true, width := 6 } := by decide
  obtain ⟨flat, broken, hflat, hbroken, -, -, hcount, hfold⟩ :=
    inspect_layouts hpair (Thing.car (.ofModel "M\",\n\x7d,\n    engine: \\  "))
  obtain rfl := Option.some.inj (hshort.symm.trans hflat)
  obtain rfl := Option.some.inj (hlong.symm.trans hbroken)
  exact ⟨hpair, hshort, hlong, hcount, hfold⟩

end Garage
