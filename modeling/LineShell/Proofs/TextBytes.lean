import LineShell.Text.Basic
import Mathlib.Data.List.Basic

/-!
# The bytes of a text

A text is read back from its UTF-8 bytes (`of_utf8?_eq_some_iff`), so no two texts have the same.
Every byte below 128 among them stands for a character of its own, so bytes like the line feed are
found where the text has the character, and nowhere else (`mem_of_mem_bytes`, `get_last?_of_bytes`).
-/

namespace LineShell.Text

/-- The UTF-8 bytes of a text, as a list. -/
def bytes (t : Text) : List UInt8 :=
  (utf8 t).data.toList

variable {c : Char} {b : UInt8} {t : Text}

/-- The bytes of a text are those of its characters, one after the other. -/
theorem bytes_eq_flat_map (t : Text) : t.bytes = t.flatMap String.utf8EncodeChar := by
  simp [bytes, utf8, List.utf8Encode]

/-- The bytes of two texts in a row come one after the other. -/
theorem bytes_append (t u : Text) : bytes (t ++ u) = t.bytes ++ u.bytes := by
  simp only [bytes_eq_flat_map, List.flatMap_append]

/-- Only the empty text has no bytes. -/
theorem bytes_eq_nil_iff : t.bytes = [] ↔ t = [] := by
  rw [bytes_eq_flat_map]
  cases t with
  | nil => simp
  | cons c t => simp [String.utf8EncodeChar_ne_nil]

/-! ## Reading back -/

/-- Bytes are those of at most one text, and it is found. -/
theorem of_utf8?_eq_some_iff {bytes : ByteArray} : ofUtf8? bytes = some t ↔ bytes = utf8 t := by
  unfold ofUtf8? String.fromUTF8?
  split
  · simp only [Option.map_some, Option.some.injEq, utf8]
    constructor
    · rintro rfl
      simp [String.fromUTF8]
    · rintro rfl
      exact String.toList_ofList
  · rename_i hinvalid
    constructor
    · intro h
      cases h
    · rintro rfl
      exact absurd (String.ofList t).isValidUTF8 hinvalid

/-- The bytes that are decoded to a text are its own, and no others are. -/
theorem of_utf8?_list_eq_some_iff {bytes : List UInt8} :
    ofUtf8? ⟨bytes.toArray⟩ = some t ↔ bytes = t.bytes := by
  rw [of_utf8?_eq_some_iff]
  constructor
  · intro h
    rw [Text.bytes, ← h]
  · rintro rfl
    rfl

/-- Two texts with the same bytes are the same. -/
theorem bytes_injective : Function.Injective bytes := by
  intro t u h
  have hdecoded := of_utf8?_list_eq_some_iff.mpr h
  exact Option.some.inj ((of_utf8?_list_eq_some_iff.mpr rfl).symm.trans hdecoded)

/-! ## Characters of one byte -/

/-- Every byte of a character that takes more than one is marked as such. -/
theorem le_of_mem_encode (hc : 128 ≤ c.toNat) (h : b ∈ String.utf8EncodeChar c) : 128 ≤ b.toNat := by
  have hmany : ¬ c.val.toNat ≤ 127 := Nat.not_le.mpr hc
  simp only [String.utf8EncodeChar, if_neg hmany] at h
  have hmarked : ∃ n, b = UInt8.ofNat n ∧ 128 ≤ n ∧ n < 256 := by
    split at h
    · simp only [List.mem_cons, List.not_mem_nil, or_false] at h
      obtain h | h := h
      all_goals exact ⟨_, h, by omega, by omega⟩
    · split at h
      · simp only [List.mem_cons, List.not_mem_nil, or_false] at h
        obtain h | h | h := h
        all_goals exact ⟨_, h, by omega, by omega⟩
      · simp only [List.mem_cons, List.not_mem_nil, or_false] at h
        obtain h | h | h | h := h
        all_goals exact ⟨_, h, by omega, by omega⟩
  obtain ⟨n, rfl, hn, hlt⟩ := hmarked
  rwa [UInt8.toNat_ofNat_of_lt' hlt]

/-- A byte below 128 stands for a character, and for no part of one. -/
theorem eq_of_mem_encode (h : b ∈ String.utf8EncodeChar c) (hb : b.toNat < 128) :
    c = Char.ofNat b.toNat := by
  by_cases hc : 128 ≤ c.toNat
  · have := le_of_mem_encode hc h
    omega
  · have hone : c.val.toNat ≤ 127 := Nat.le_of_lt_succ (Nat.not_le.mp hc)
    simp only [String.utf8EncodeChar, if_pos hone, List.mem_singleton] at h
    have hlt : c.val.toNat < 256 := by omega
    rw [h, UInt8.toNat_ofNat_of_lt' hlt]
    exact (Char.ofNat_toNat c).symm

/-- A byte below 128 among those of a text is a character of it. -/
theorem mem_of_mem_bytes (h : b ∈ t.bytes) (hb : b.toNat < 128) : Char.ofNat b.toNat ∈ t := by
  rw [bytes_eq_flat_map] at h
  obtain ⟨c, hc, hmem⟩ := List.mem_flatMap.mp h
  rwa [← eq_of_mem_encode hmem hb]

/-- A last byte below 128 is the last character. -/
theorem get_last?_of_bytes (h : t.bytes.getLast? = some b) (hb : b.toNat < 128) :
    t.getLast? = some (Char.ofNat b.toNat) := by
  rcases List.eq_nil_or_concat t with rfl | ⟨front, c, rfl⟩
  · rw [bytes_eq_nil_iff.mpr rfl] at h
    cases h
  · have hne : String.utf8EncodeChar c ≠ [] := String.utf8EncodeChar_ne_nil
    rw [List.concat_eq_append, bytes_append, bytes_eq_flat_map [c], List.flatMap_singleton,
      List.getLast?_append_of_ne_nil _ hne] at h
    rw [List.concat_eq_append, List.getLast?_append_of_ne_nil _ (List.cons_ne_nil c []),
      List.getLast?_singleton, eq_of_mem_encode (List.mem_of_getLast? h) hb]

end LineShell.Text
