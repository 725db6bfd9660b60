import Garage.Sink

/-!
# Texts in UTF-8

The facts about UTF-8 that lines of bytes rest on: the bytes are those of the string's own encoding
(`utf8_toList`), they decode to the text (`fromUTF8?_utf8`), so the encoding loses nothing
(`utf8_injective`), a byte below `0x80` stands for an ASCII character and is never a part of a
longer one (`mem_utf8_iff`), and bytes that are cut short lose less than one character
(`exists_text_of_prefix_utf8`).
-/

namespace Garage

@[simp] theorem utf8_nil : utf8 [] = [] := rfl

@[simp] theorem utf8_append (s t : List Char) : utf8 (s ++ t) = utf8 s ++ utf8 t :=
  List.flatMap_append

theorem utf8_flatten (fragments : List (List Char)) :
    utf8 fragments.flatten = (fragments.map utf8).flatten := by
  induction fragments with
  | nil => rfl
  | cons fragment rest ih =>
    rw [List.flatten_cons, utf8_append, ih, List.map_cons, List.flatten_cons]

theorem utf8_eq_utf8Encode (s : List Char) : utf8 s = s.utf8Encode.data.toList :=
  List.toList_data_toByteArray.symm

theorem utf8_toList (s : String) : utf8 s.toList = s.toUTF8.data.toList := by
  rw [utf8_eq_utf8Encode, String.utf8Encode_toList, String.toUTF8_eq_toByteArray]

theorem length_utf8_toList (s : String) : (utf8 s.toList).length = s.utf8ByteSize := by
  rw [utf8_toList, Array.length_toList]
  rfl

theorem fromUTF8?_utf8 (s : List Char) :
    String.fromUTF8? ⟨(utf8 s).toArray⟩ = some (String.ofList s) := by
  have hbytes : (⟨(utf8 s).toArray⟩ : ByteArray) = (String.ofList s).toByteArray := by
    rw [String.toByteArray_ofList, utf8_eq_utf8Encode, Array.toArray_toList]
  rw [hbytes, String.fromUTF8?, dif_pos (String.ofList s).isValidUTF8]
  rfl

theorem utf8_injective {s t : List Char} (h : utf8 s = utf8 t) : s = t := by
  have hdecode := fromUTF8?_utf8 s
  rw [h, fromUTF8?_utf8, Option.some.injEq] at hdecode
  exact String.ofList_inj.mp hdecode.symm

theorem le_of_mem_utf8EncodeChar {c : Char} (hc : 0x80 ≤ c.toNat) {b : UInt8}
    (hb : b ∈ String.utf8EncodeChar c) : 0x80 ≤ b.toNat := by
  have hval : c.val.toNat = c.toNat := rfl
  unfold String.utf8EncodeChar at hb
  simp only [hval, if_neg (show ¬ c.toNat ≤ 127 by omega)] at hb
  split at hb
  · simp only [List.mem_cons, List.not_mem_nil, or_false] at hb
    rcases hb with rfl | rfl <;> rw [UInt8.toNat_ofNat'] <;> omega
  split at hb
  · simp only [List.mem_cons, List.not_mem_nil, or_false] at hb
    rcases hb with rfl | rfl | rfl <;> rw [UInt8.toNat_ofNat'] <;> omega
  · simp only [List.mem_cons, List.not_mem_nil, or_false] at hb
    rcases hb with rfl | rfl | rfl | rfl <;> rw [UInt8.toNat_ofNat'] <;> omega

theorem utf8EncodeChar_of_lt {c : Char} (hc : c.toNat < 0x80) :
    String.utf8EncodeChar c = [UInt8.ofNat c.toNat] :=
  if_pos (Nat.le_of_lt_succ hc)

theorem mem_utf8EncodeChar_iff (c : Char) {b : UInt8} (hb : b.toNat < 0x80) :
    b ∈ String.utf8EncodeChar c ↔ c.toNat = b.toNat := by
  by_cases hc : c.toNat < 0x80
  · rw [utf8EncodeChar_of_lt hc, List.mem_singleton, ← UInt8.toNat_inj, UInt8.toNat_ofNat']
    omega
  · constructor
    · intro h
      have := le_of_mem_utf8EncodeChar (by omega) h
      omega
    · intro h
      omega

theorem mem_utf8_iff (s : List Char) {b : UInt8} (hb : b.toNat < 0x80) :
    b ∈ utf8 s ↔ ∃ c ∈ s, c.toNat = b.toNat := by
  rw [utf8, List.mem_flatMap]
  simp only [mem_utf8EncodeChar_iff _ hb]

/-- `cut` is what `bytes` has of the character behind `text`. -/
theorem exists_text_of_prefix_utf8 {s : List Char} {bytes : List UInt8} (h : bytes <+: utf8 s) :
    ∃ text cut, text <+: s ∧ cut.length ≤ 3 ∧ bytes = utf8 text ++ cut := by
  induction s generalizing bytes with
  | nil =>
    rw [utf8_nil, List.prefix_nil] at h
    exact ⟨[], [], List.nil_prefix, Nat.zero_le 3, h⟩
  | cons c s ih =>
    have hcons : utf8 (c :: s) = String.utf8EncodeChar c ++ utf8 s := List.flatMap_cons
    have hchar := List.prefix_append (String.utf8EncodeChar c) (utf8 s)
    rw [hcons] at h
    rcases Nat.lt_or_ge bytes.length (String.utf8EncodeChar c).length with hlt | hge
    · have hfour := c.utf8Size_le_four
      rw [String.length_utf8EncodeChar] at hlt
      exact ⟨[], bytes, List.nil_prefix, by omega, rfl⟩
    · obtain ⟨rest, rfl⟩ := List.prefix_of_prefix_length_le hchar h hge
      obtain ⟨text, cut, htext, hcut, rfl⟩ := ih ((List.prefix_append_right_inj _).mp h)
      refine ⟨c :: text, cut, List.cons_prefix_cons.mpr ⟨rfl, htext⟩, hcut, ?_⟩
      rw [← List.append_assoc]
      rfl

theorem newline_mem_utf8_iff (s : List Char) : 0x0A ∈ utf8 s ↔ '\n' ∈ s := by
  rw [mem_utf8_iff s (by decide)]
  constructor
  · rintro ⟨c, hc, hn⟩
    rwa [← Char.toNat_inj.mp (hn.trans (rfl : _ = '\n'.toNat))]
  · intro h
    exact ⟨'\n', h, rfl⟩

end Garage
