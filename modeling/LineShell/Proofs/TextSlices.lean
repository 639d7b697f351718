import LineShell.Proofs.TextBytes
import LineShell.Proofs.TextCuts

/-!
# Parts of a text by their bytes

A part of a text can be named by the offsets of its first byte and of the byte after its last.
Such offsets may lie outside of the text, in the wrong order or inside a character, and then
`slice?` gives nothing. They are right for every part that characters make up
(`sliceable_append`), and no byte of one character can be taken for another character below
128 (`exists_get?_bytes`, `ne_of_mem_encode`).
-/

namespace LineShell.Text

/-- Whether a byte goes on with a character that an earlier byte began: its two highest bits are 1 and
0. -/
def isContinuation (b : UInt8) : Bool :=
  128 ≤ b && b < 192

/-- Whether a character begins at the offset, or the text ends there. -/
def isBoundary (t : Text) (offset : Nat) : Bool :=
  match t.bytes[offset]? with
  | some b => !isContinuation b
  | none => offset == t.bytes.length

/-- The offsets bound a part of the text. -/
structure Sliceable (t : Text) (start stop : Nat) : Prop where
  ordered : start ≤ stop
  inside : stop ≤ t.bytes.length
  start_boundary : t.isBoundary start = true
  stop_boundary : t.isBoundary stop = true

instance (t : Text) (start stop : Nat) : Decidable (Sliceable t start stop) :=
  decidable_of_iff (start ≤ stop ∧ stop ≤ t.bytes.length ∧ t.isBoundary start = true ∧
      t.isBoundary stop = true)
    ⟨fun h => ⟨h.1, h.2.1, h.2.2.1, h.2.2.2⟩,
      fun h => ⟨h.ordered, h.inside, h.start_boundary, h.stop_boundary⟩⟩

/-- The part of the text from the byte at `start` up to the one at `stop`, if these bound one. -/
def slice? (t : Text) (start stop : Nat) : Option Text :=
  if Sliceable t start stop then ofUtf8? ⟨((t.bytes.drop start).take (stop - start)).toArray⟩
  else none

variable {c d : Char} {b : UInt8} {t : Text}

/-- The bytes of a text are those of its first character and those of the rest. -/
theorem bytes_cons (c : Char) (t : Text) : bytes (c :: t) = String.utf8EncodeChar c ++ t.bytes := by
  simp [bytes_eq_flat_map]

/-- A text has as many bytes as are counted. -/
theorem length_bytes (t : Text) : t.bytes.length = byteLength t := by
  induction t with
  | nil => rfl
  | cons c t ih =>
      rw [bytes_cons, List.length_append, String.length_utf8EncodeChar, ih]
      rfl

/-! ## Boundaries -/

/-- The first byte of a character does not go on with another one. -/
theorem exists_encode_eq_cons (c : Char) :
    ∃ b rest, String.utf8EncodeChar c = b :: rest ∧ isContinuation b = false := by
  have hbyte {n : Nat} (hn : n < 128 ∨ 192 ≤ n) (hlt : n < 256) :
      isContinuation (UInt8.ofNat n) = false := by
    simp only [isContinuation, Bool.and_eq_false_iff, decide_eq_false_iff_not, UInt8.le_iff_toNat_le,
      UInt8.lt_iff_toNat_lt, UInt8.toNat_ofNat_of_lt' hlt]
    simp
    omega
  simp only [String.utf8EncodeChar]
  split
  · exact ⟨_, _, rfl, hbyte (by omega) (by omega)⟩
  · split
    · exact ⟨_, _, rfl, hbyte (by omega) (by omega)⟩
    · split
      · exact ⟨_, _, rfl, hbyte (by omega) (by omega)⟩
      · exact ⟨_, _, rfl, hbyte (by omega) (by omega)⟩

/-- Behind a text its offsets are counted on. -/
theorem get?_bytes_append (a b : Text) (k : Nat) :
    (bytes (a ++ b))[byteLength a + k]? = b.bytes[k]? := by
  rw [bytes_append, ← length_bytes, List.getElem?_append_right (Nat.le_add_right _ _),
    Nat.add_sub_cancel_left]

/-- A text ends at a boundary of characters. -/
theorem is_boundary_append (a b : Text) : isBoundary (a ++ b) (byteLength a) = true := by
  have hfirst := get?_bytes_append a b 0
  rw [Nat.add_zero] at hfirst
  rw [isBoundary, hfirst]
  cases b with
  | nil => simp [bytes_eq_nil_iff.mpr rfl, length_bytes]
  | cons c b =>
      obtain ⟨first, rest, heq, hfirst⟩ := exists_encode_eq_cons c
      simp [bytes_cons, heq, hfirst]

/-! ## Slices -/

/-- A text between two others can be taken out by the bytes before and after it. -/
theorem sliceable_append (a b c : Text) :
    Sliceable (a ++ b ++ c) (byteLength a) (byteLength (a ++ b)) where
  ordered := by
    rw [byte_length_append]
    exact Nat.le_add_right _ _
  inside := by
    rw [length_bytes, byte_length_append (a ++ b)]
    exact Nat.le_add_right _ _
  start_boundary := by
    rw [List.append_assoc]
    exact is_boundary_append a (b ++ c)
  stop_boundary := is_boundary_append (a ++ b) c

/-- What is between two texts is found by their bytes. -/
theorem slice?_append (a b c : Text) :
    slice? (a ++ b ++ c) (byteLength a) (byteLength (a ++ b)) = some b := by
  rw [slice?, if_pos (sliceable_append a b c), of_utf8?_list_eq_some_iff, byte_length_append,
    Nat.add_sub_cancel_left, bytes_append, bytes_append, List.append_assoc, ← length_bytes,
    ← length_bytes, List.drop_left, List.take_left]

/-- There is no part that ends inside a character. -/
example : slice? ['é'] 0 1 = none := by decide

/-! ## Bytes of one character -/

/-- No byte of another character is that of a character below 128. -/
theorem ne_of_mem_encode (hd : d.toNat < 128) (hne : c ≠ d) (h : b ∈ String.utf8EncodeChar c) :
    b ≠ d.toUInt8 := by
  rintro rfl
  have hbyte : d.toUInt8.toNat = d.toNat := Nat.mod_eq_of_lt (Nat.lt_trans hd (by decide))
  have hsame := eq_of_mem_encode h (hbyte ▸ hd)
  rw [hbyte, Char.ofNat_toNat] at hsame
  exact hne hsame

/-- The bytes of a character in a text, one by one. -/
theorem exists_get?_bytes (a : Text) (c : Char) (t : Text) {k : Nat} (hk : k < c.utf8Size) :
    ∃ b ∈ String.utf8EncodeChar c, (bytes (a ++ c :: t))[byteLength a + k]? = some b := by
  rw [← String.length_utf8EncodeChar] at hk
  refine ⟨_, List.getElem_mem hk, ?_⟩
  rw [get?_bytes_append, bytes_cons, List.getElem?_append_left hk, List.getElem?_eq_getElem hk]

/-- A character below 128 is one byte. -/
theorem get?_bytes_of_lt (a : Text) (hc : c.toNat < 128) (t : Text) :
    (bytes (a ++ c :: t))[byteLength a]? = some c.toUInt8 := by
  have hone : c.val.toNat ≤ 127 := Nat.le_of_lt_succ hc
  have hfirst := get?_bytes_append a (c :: t) 0
  rw [Nat.add_zero] at hfirst
  rw [hfirst, bytes_cons, String.utf8EncodeChar, if_pos hone]
  rfl

/-- The byte of a character below 128 comes next if the character does. -/
theorem get?_bytes_eq_some_iff (hd : d.toNat < 128) (a t : Text) :
    (bytes (a ++ t))[byteLength a]? = some d.toUInt8 ↔ t.head? = some d := by
  cases t with
  | nil => simp [length_bytes]
  | cons c t =>
      obtain ⟨b, hb, hget⟩ := exists_get?_bytes a c t c.utf8Size_pos
      rw [Nat.add_zero] at hget
      rw [List.head?_cons, Option.some.injEq]
      constructor
      · intro heq
        rw [heq] at hget
        by_contra hne
        exact ne_of_mem_encode hd hne hb (Option.some.inj hget).symm
      · rintro rfl
        exact get?_bytes_of_lt a hd t

/-- The byte of a character below 128 comes last if the character does. -/
theorem get?_bytes_pred_eq_some_iff (hd : d.toNat < 128) {a : Text} (ha : a ≠ []) (t : Text) :
    (bytes (a ++ t))[byteLength a - 1]? = some d.toUInt8 ↔ a.getLast? = some d := by
  obtain ⟨front, c, rfl⟩ := (List.eq_nil_or_concat a).resolve_left ha
  have hsize := c.utf8Size_pos
  have hlength : byteLength (front ++ [c]) - 1 = byteLength front + (c.utf8Size - 1) := by
    rw [byte_length_append]
    show byteLength front + (c.utf8Size + 0) - 1 = _
    omega
  obtain ⟨b, hb, hget⟩ := exists_get?_bytes front c t (Nat.sub_lt hsize Nat.one_pos)
  rw [List.concat_eq_append, hlength, List.append_assoc, List.singleton_append, hget,
    List.getLast?_concat, Option.some.injEq, Option.some.injEq]
  constructor
  · rintro rfl
    by_contra hne
    exact ne_of_mem_encode hd hne hb rfl
  · rintro rfl
    have hone : c.val.toNat ≤ 127 := Nat.le_of_lt_succ hd
    rw [String.utf8EncodeChar, if_pos hone] at hb
    exact List.mem_singleton.mp hb

end LineShell.Text
