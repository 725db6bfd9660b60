import Garage.Format.Quoted
import Garage.Proofs.Hexadecimal

/-!
# Reading quoted text

A quoted text can be read from the front of a longer one: each character has a form that tells where
it ends, and the first free quote closes the text. So the escapes lose nothing, whatever the text
contains and whatever follows it.

* `readEscaped`: reads one character back; nothing is read from the closing quote.
* `readEscaped_escape`: the form of a character is read back, whatever stands behind it.
* `PrefixFree`: texts that can be told from the front of a longer one (`prefixFree_quote`).
* `Delimited`: texts that can be told from the front of a longer one that goes on with a mark.
-/

namespace Garage.Format

/-- Reads one character from the front of the inside of a quoted text: the character and what stands
behind it. -/
def readEscaped : List Char → Option (Char × List Char)
  | [] => none
  | '"' :: _ => none
  | '\\' :: '0' :: rest => some ('\x00', rest)
  | '\\' :: 't' :: rest => some ('\t', rest)
  | '\\' :: 'r' :: rest => some ('\r', rest)
  | '\\' :: 'n' :: rest => some ('\n', rest)
  | '\\' :: 'u' :: '\x7b' :: rest =>
    some (Char.ofNat (hexValue (rest.takeWhile (· != '\x7d'))), (rest.dropWhile (· != '\x7d')).tail)
  | '\\' :: c :: rest => some (c, rest)
  | c :: rest => some (c, rest)

/-! ## One character -/

theorem bne_of_mem_toDigits {n : Nat} {c : Char} (h : c ∈ Nat.toDigits 16 n) :
    (c != '\x7d') = true := by
  obtain ⟨d, hd, rfl⟩ := exists_digitChar_of_mem_toDigits (by decide) h
  have hall : ∀ e < 16, (e.digitChar != '\x7d') = true := by decide
  exact hall d hd

theorem readEscaped_hex (c : Char) (rest : List Char) :
    readEscaped (['\\', 'u', '\x7b'] ++ Nat.toDigits 16 c.toNat ++ ['\x7d'] ++ rest) =
      some (c, rest) := by
  have hdigits : ∀ d ∈ Nat.toDigits 16 c.toNat, (d != '\x7d') = true :=
    fun d hd => bne_of_mem_toDigits hd
  rw [List.append_assoc, List.append_assoc]
  show some (Char.ofNat (hexValue ((Nat.toDigits 16 c.toNat ++ '\x7d' :: rest).takeWhile _)),
    ((Nat.toDigits 16 c.toNat ++ '\x7d' :: rest).dropWhile _).tail) = _
  rw [List.takeWhile_append_of_pos hdigits, List.dropWhile_append_of_pos hdigits]
  show some (Char.ofNat (hexValue (Nat.toDigits 16 c.toNat ++ [])), rest) = _
  rw [List.append_nil, hexValue_toDigits, Char.ofNat_toNat]

theorem readEscaped_of_ne {c : Char} (hquote : c ≠ '"') (hslash : c ≠ '\\') (rest : List Char) :
    readEscaped (c :: rest) = some (c, rest) := by
  unfold readEscaped
  split <;> simp_all

theorem readEscaped_escape (c : Char) (rest : List Char) :
    readEscaped (escape c ++ rest) = some (c, rest) := by
  unfold escape
  split
  · rfl
  · rfl
  · rfl
  · rfl
  · rfl
  · rfl
  · rename_i hquote hslash
    split
    · exact readEscaped_hex c rest
    · exact readEscaped_of_ne hquote hslash rest

/-! ## Whole texts -/

/-- What is written can be told from the front of any longer text. -/
def PrefixFree {α : Type} (write : α → List Char) : Prop :=
  ∀ ⦃a b : α⦄ ⦃r u : List Char⦄, write a ++ r = write b ++ u → a = b ∧ r = u

theorem prefixFree_quote : PrefixFree quote := by
  have hinside : ∀ (s t : List Char) {r u : List Char},
      s.flatMap escape ++ '"' :: r = t.flatMap escape ++ '"' :: u → s = t ∧ r = u := by
    intro s
    induction s with
    | nil =>
      intro t r u h
      cases t with
      | nil => exact ⟨rfl, (List.cons.inj h).2⟩
      | cons d t =>
        have hread := congrArg readEscaped h
        rw [List.flatMap_cons, List.append_assoc, readEscaped_escape] at hread
        cases hread
    | cons c s ih =>
      intro t r u h
      have hread := congrArg readEscaped h
      rw [List.flatMap_cons, List.append_assoc, readEscaped_escape] at hread
      cases t with
      | nil => cases hread
      | cons d t =>
        rw [List.flatMap_cons, List.append_assoc, readEscaped_escape, Option.some.injEq,
          Prod.mk.injEq] at hread
        obtain ⟨rfl, hread⟩ := hread
        obtain ⟨rfl, hru⟩ := ih t hread
        exact ⟨rfl, hru⟩
  intro s t r u h
  simp only [quote, List.append_assoc, List.cons_append, List.nil_append, List.cons.injEq,
    true_and] at h
  exact hinside s t h

/-- What is written can be told from the front of any longer text that goes on with the mark. -/
def Delimited {α : Type} (mark : Char) (write : α → List Char) : Prop :=
  ∀ ⦃a b : α⦄ ⦃r u : List Char⦄, write a ++ mark :: r = write b ++ mark :: u → a = b ∧ r = u

section Delimited

variable {α : Type} {mark : Char} {write : α → List Char}

theorem Delimited.injective (h : Delimited mark write) : Function.Injective write :=
  fun _ _ heq => (h (congrArg (· ++ [mark]) heq)).1

theorem PrefixFree.delimited (h : PrefixFree write) : Delimited mark write := by
  intro a b r u heq
  obtain ⟨rfl, hrest⟩ := h heq
  exact ⟨rfl, (List.cons.inj hrest).2⟩

theorem delimited_of_notMem (hmark : ∀ a, mark ∉ write a) (hinj : Function.Injective write) :
    Delimited mark write := by
  have hwrite : ∀ a r, (write a ++ mark :: r).takeWhile (· != mark) = write a := by
    intro a r
    have hne : ∀ c ∈ write a, (c != mark) = true :=
      fun c hc => bne_iff_ne.mpr (ne_of_mem_of_not_mem hc (hmark a))
    rw [List.takeWhile_append_of_pos hne, List.takeWhile_cons_of_neg (by simp), List.append_nil]
  intro a b r u heq
  have hab : write a = write b := by rw [← hwrite a r, heq, hwrite b u]
  rw [hab] at heq
  exact ⟨hinj hab, (List.cons.inj (List.append_cancel_left heq)).2⟩

end Delimited

theorem delimited_quote : Delimited ',' fun s : String => quote s.toList := by
  intro s t r u heq
  obtain ⟨hst, hru⟩ := prefixFree_quote.delimited heq
  exact ⟨String.toList_inj.mp hst, hru⟩

end Garage.Format
