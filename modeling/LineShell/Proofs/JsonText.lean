import LineShell.Json.Reader
import LineShell.Proofs.TextCuts

/-!
# The text of a JSON value

Reading the text that `Json.render` writes gives the value back, and that text has no control
character in it. This holds of every value whose strings have content and whose numbers are written
as numbers are (`Writable`), so of all that is ever written.

`Escaped` lists how a character can be written in a string, and `unescape_escape` undoes one
character; `Writable.read_back` goes over the value. What is read stops where the text of the
value ends, whatever follows, except that a number must not be followed by another character of
a number (`EndsNumber`).
-/

namespace LineShell.Json

/-! ## Characters in strings -/

/-- How the character `c` can be written in a string: after a backslash by a letter of its own, by
the digits of its code, or as it is. -/
inductive Escaped (c : Char) : Text → Prop where
  | letter {e : Char} : escaped? e = some c → e ≠ 'u' → 0x20 ≤ e.toNat → Escaped c ['\\', e]
  | code : c.toNat < 0x20 →
      Escaped c ['\\', 'u', '0', '0', hexDigit (c.toNat / 16), hexDigit (c.toNat % 16)]
  | plain : 0x20 ≤ c.toNat → c ≠ '"' → c ≠ '\\' → Escaped c [c]

/-- The encoder escapes each character in one of the ways that `Escaped` lists. -/
theorem escaped_escape (c : Char) : Escaped c (escape c) := by
  unfold escape
  -- Seven characters have a letter of their own.
  iterate 7
    split
    · rename_i h
      subst h
      exact .letter rfl (by decide) (by decide)
  split
  · rename_i h
    exact .code h
  · rename_i hquote hbackslash _ _ _ _ _ h
    exact .plain (Nat.le_of_not_lt h) hquote hbackslash

/-- A hexadecimal digit is read as the number it was written for. -/
theorem hex_value?_hex_digit : ∀ n < 16, hexValue? (hexDigit n) = some n := by
  decide

/-- A hexadecimal digit is no control character. -/
theorem le_to_nat_hex_digit : ∀ n < 16, 0x20 ≤ (hexDigit n).toNat := by
  decide

/-- Reading goes on behind an escaped character with that character read. -/
theorem unescape_escape (c : Char) (rest : Text) :
    unescape (escape c ++ rest) =
      (unescape rest).map fun (units, rest) => (.char c :: units, rest) := by
  have h := escaped_escape c
  generalize escape c = written at h
  -- `unescape` tries its cases in order, so each is reached by ruling out those before it.
  cases h with
  | letter hletter hu _ =>
      show unescape ('\\' :: _ :: rest) = _
      rw [unescape.eq_4 _ _ fun _ _ _ _ _ h _ => hu h, hletter]
      cases unescape rest <;> rfl
  | code hcode =>
      have hdigits : hexValue4? '0' '0' (hexDigit (c.toNat / 16)) (hexDigit (c.toNat % 16)) =
          some c.toNat := by
        have hzero : hexValue? '0' = some 0 := by decide
        rw [hexValue4?, hzero, hex_value?_hex_digit (c.toNat / 16) (by omega),
          hex_value?_hex_digit (c.toNat % 16) (by omega)]
        show some (((0 * 16 + 0) * 16 + c.toNat / 16) * 16 + c.toNat % 16) = some c.toNat
        congr 1
        omega
      have hunit : StringUnit.ofCode c.toNat = .char c := by
        rw [StringUnit.ofCode, if_neg (by omega), Char.ofNat_toNat]
      show unescape ('\\' :: 'u' :: '0' :: '0' :: _ :: _ :: rest) = _
      rw [unescape.eq_3, hdigits, ← hunit]
      cases unescape rest <;> rfl
  | plain hcontrol hquote hbackslash =>
      show unescape (c :: rest) = _
      rw [unescape.eq_5 _ _ hquote (fun _ _ _ _ _ h _ => hbackslash h) fun _ _ h _ => hbackslash h,
        if_neg (not_or.mpr ⟨by omega, hbackslash⟩)]
      cases unescape rest <;> rfl

/-- A quoted text is read to its closing quote, with a unit for each character. -/
theorem unescape_quoted (t rest : Text) :
    unescape (t.flatMap escape ++ '"' :: rest) = some (t.map .char, rest) := by
  induction t with
  | nil => exact unescape.eq_2 rest
  | cons c t ih =>
      rw [List.flatMap_cons, List.append_assoc, unescape_escape, ih]
      rfl

/-- Units that are all characters make up the text of these characters: only lone surrogates are
lost. -/
theorem assemble_map_char (t : Text) : assemble (t.map .char) = some t := by
  induction t with
  | nil => rfl
  | cons c t ih =>
      rw [List.map_cons, assemble, ih]
      rfl

/-! ## Values -/

/-- The text of a number. -/
structure NumberText (lexeme : Text) : Prop where
  chars : ∀ c ∈ lexeme, isNumberChar c = true
  number : isNumber lexeme = true

/-- A value that can be written: its strings and keys have content, and its numbers are texts of
numbers. -/
inductive Writable : Json → Prop where
  | null : Writable .null
  | bool (value : Bool) : Writable (.bool value)
  | number {lexeme : Text} : NumberText lexeme → Writable (.number lexeme)
  | string (content : Text) : Writable (.string (some content))
  | array {items : List Json} : (∀ item ∈ items, Writable item) → Writable (.array items)
  | object {members : List (Option Text × Json)} :
      (∀ member ∈ members, member.1.isSome = true) → (∀ member ∈ members, Writable member.2) →
      Writable (.object members)

/-- A text that does not go on with the number before it. -/
def EndsNumber (rest : Text) : Prop :=
  ∀ c ∈ rest.head?, isNumberChar c = false

/-- The value is read from its text, whatever follows, by as much fuel as its text needs. -/
def ReadBack (v : Json) : Prop :=
  ∀ fuel rest, 2 * (render v).length ≤ fuel → EndsNumber rest →
    readValue fuel (render v ++ rest) = some (v, rest)

/-- A text that begins with no blank has none to skip. -/
theorem skip_blanks_cons {c : Char} (h : isBlank c = false) (t : Text) :
    skipBlanks (c :: t) = c :: t := by
  rw [skipBlanks, List.dropWhile_cons, h]
  rfl

/-- A character that no number can have ends one. -/
theorem EndsNumber.cons {c : Char} (h : isNumberChar c = false) (rest : Text) :
    EndsNumber (c :: rest) := by
  rintro d ⟨⟩
  exact h

/-- A number has at least one digit. -/
theorem NumberText.ne_nil {lexeme : Text} (h : NumberText lexeme) : lexeme ≠ [] := by
  rintro rfl
  exact absurd h.number (by decide)

/-- No blank may stand in a number, so a number is not shortened by skipping blanks. -/
theorem is_blank_of_is_number_char {c : Char} (h : isNumberChar c = true) : isBlank c = false := by
  rw [Bool.eq_false_iff]
  intro hblank
  simp only [isBlank, Bool.or_eq_true, beq_iff_eq] at hblank
  rcases hblank with ((rfl | rfl) | rfl) | rfl <;> exact absurd h (by decide)

/-- The text of a value starts with neither a blank nor a closing bracket. -/
theorem Writable.exists_render_eq {v : Json} (h : Writable v) :
    ∃ c t, render v = c :: t ∧ isBlank c = false ∧ c ≠ ']' := by
  cases h with
  | null => exact ⟨'n', _, by rw [render]; rfl, by decide, by decide⟩
  | bool value =>
      cases value with
      | false => exact ⟨'f', _, by rw [render]; rfl, by decide, by decide⟩
      | true => exact ⟨'t', _, by rw [render]; rfl, by decide, by decide⟩
  | @number lexeme hnumber =>
      obtain ⟨c, t, rfl⟩ := List.exists_cons_of_ne_nil hnumber.ne_nil
      have hc := hnumber.chars c List.mem_cons_self
      refine ⟨c, t, by rw [render], is_blank_of_is_number_char hc, ?_⟩
      rintro rfl
      exact absurd hc (by decide)
  | string content => exact ⟨'"', _, by rw [render]; rfl, by decide, by decide⟩
  | array _ => exact ⟨'[', _, by rw [render]; rfl, by decide, by decide⟩
  | object _ _ => exact ⟨'{', _, by rw [render]; rfl, by decide, by decide⟩

/-- The fuel that the text of a value needs is enough to enter it. -/
theorem Writable.exists_fuel {v : Json} (h : Writable v) {fuel : Nat}
    (hfuel : 2 * (render v).length ≤ fuel) : ∃ k, fuel = k + 1 := by
  obtain ⟨c, t, heq, _⟩ := h.exists_render_eq
  rw [heq, List.length_cons] at hfuel
  exact ⟨fuel - 1, by omega⟩

/-- A written number is read back, since what follows cannot go on with it. -/
theorem read_back_number {lexeme : Text} (h : NumberText lexeme) : ReadBack (.number lexeme) := by
  intro fuel rest hfuel hrest
  obtain ⟨fuel, rfl⟩ := (Writable.number h).exists_fuel hfuel
  obtain ⟨c, t, rfl⟩ := List.exists_cons_of_ne_nil h.ne_nil
  have hc := h.chars c List.mem_cons_self
  rw [render, List.cons_append, readValue, skip_blanks_cons (is_blank_of_is_number_char hc)]
  split
  -- No other value starts with a character of a number.
  iterate 6
    · rename_i heq
      obtain rfl := (List.cons.inj heq).1
      exact absurd hc (by decide)
  · obtain ⟨htake, hdrop⟩ := Text.span_append isNumberChar h.chars hrest
    rw [← List.cons_append, htake, hdrop]
    exact if_pos h.number

/-- A written string is read back, whatever its characters are. -/
theorem read_back_string (content : Text) : ReadBack (.string (some content)) := by
  intro fuel rest hfuel _
  obtain ⟨fuel, rfl⟩ := (Writable.string content).exists_fuel hfuel
  rw [render]
  show readValue (fuel + 1) ('"' :: content.flatMap escape ++ ['"'] ++ rest) = _
  rw [List.append_assoc, List.cons_append, readValue, skip_blanks_cons (by decide)]
  show (do
    let (units, rest) ← unescape (content.flatMap escape ++ '"' :: rest)
    return (string (assemble units), rest)) = some (string (some content), rest)
  rw [unescape_quoted]
  show some (string (assemble (content.map .char)), rest) = some (string (some content), rest)
  rw [assemble_map_char]

/-! ## Arrays and objects -/

/-- Two items are written with a comma between them. -/
theorem render_items_cons_cons (item next : Json) (items : List Json) :
    renderItems (item :: next :: items) = render item ++ ',' :: renderItems (next :: items) :=
  renderItems.eq_3 item _ (List.cons_ne_nil next items)

/-- Two members are written with a comma between them. -/
theorem render_members_cons_cons (key : Option Text) (value : Json) (next : Option Text × Json)
    (members : List (Option Text × Json)) :
    renderMembers ((key, value) :: next :: members) =
      quote (key.getD []) ++ ':' :: render value ++ ',' :: renderMembers (next :: members) :=
  renderMembers.eq_3 key value _ (List.cons_ne_nil next members)

/-- An opening bracket begins an array, which is empty if the next character closes it. -/
theorem read_value_bracket (fuel : Nat) (t : Text) :
    readValue (fuel + 1) ('[' :: t) =
      match skipBlanks t with
      | ']' :: rest => some (array [], rest)
      | rest => do
        let (items, rest) ← readItems fuel rest
        return (array items, rest) := by
  rw [readValue, skip_blanks_cons (by decide)]
  rfl

/-- An opening brace begins an object, which is empty if the next character closes it. -/
theorem read_value_brace (fuel : Nat) (t : Text) :
    readValue (fuel + 1) ('{' :: t) =
      match skipBlanks t with
      | '}' :: rest => some (object [], rest)
      | rest => do
        let (members, rest) ← readMembers fuel rest
        return (object members, rest) := by
  rw [readValue, skip_blanks_cons (by decide)]
  rfl

/-- An array whose bracket is followed by neither a blank nor a closing bracket has items. -/
theorem read_value_items (fuel : Nat) {c : Char} (hblank : isBlank c = false) (hc : c ≠ ']')
    (t : Text) :
    readValue (fuel + 1) ('[' :: c :: t) =
      (readItems fuel (c :: t)).map fun (items, rest) => (array items, rest) := by
  rw [read_value_bracket, skip_blanks_cons hblank]
  split
  · rename_i heq
    exact absurd (List.cons.inj heq).1 hc
  · cases readItems fuel (c :: t) <;> rfl

/-- An object whose brace is followed by a quote has members. -/
theorem read_value_members (fuel : Nat) (t : Text) :
    readValue (fuel + 1) ('{' :: '"' :: t) =
      (readMembers fuel ('"' :: t)).map fun (members, rest) => (object members, rest) := by
  rw [read_value_brace, skip_blanks_cons (by decide)]
  show (do
    let (members, rest) ← readMembers fuel ('"' :: t)
    return (object members, rest)) = _
  cases readMembers fuel ('"' :: t) <;> rfl

/-- The items of an array are read from their texts if each is, up to the bracket that closes it. -/
theorem read_items_render {items : List Json} (hne : items ≠ [])
    (hitems : ∀ item ∈ items, ReadBack item) (fuel : Nat) (rest : Text)
    (hfuel : 2 * (renderItems items).length + 1 ≤ fuel) :
    readItems fuel (renderItems items ++ ']' :: rest) = some (items, rest) := by
  induction items generalizing fuel with
  | nil => exact absurd rfl hne
  | cons item items ih =>
      obtain ⟨hitem, hrest⟩ := List.forall_mem_cons.mp hitems
      -- One step of fuel goes to the item itself, and its text leaves enough for the others.
      obtain ⟨fuel, rfl⟩ : ∃ k, fuel = k + 1 := ⟨fuel - 1, by omega⟩
      cases items with
      | nil =>
          rw [renderItems] at hfuel ⊢
          rw [readItems, hitem fuel (']' :: rest) (by omega) (.cons (by decide) rest)]
          rfl
      | cons next items =>
          rw [render_items_cons_cons] at hfuel ⊢
          rw [List.length_append, List.length_cons] at hfuel
          rw [List.append_assoc, List.cons_append, readItems,
            hitem fuel _ (by omega) (.cons (by decide) _)]
          have hmore := ih (List.cons_ne_nil next items) hrest fuel (by omega)
          show (do
            let (items, rest) ← readItems fuel (renderItems (next :: items) ++ ']' :: rest)
            return (item :: items, rest)) = some (item :: next :: items, rest)
          rw [hmore]
          rfl

/-- Written items begin with the first character of a value, so an array that has some is not read
as an empty one. -/
theorem exists_render_items_eq {item : Json} (h : Writable item) (items : List Json) :
    ∃ c t, renderItems (item :: items) = c :: t ∧ isBlank c = false ∧ c ≠ ']' := by
  obtain ⟨c, t, heq, hc⟩ := h.exists_render_eq
  cases items with
  | nil => exact ⟨c, t, by rw [renderItems, heq], hc⟩
  | cons next items =>
      refine ⟨c, t ++ ',' :: renderItems (next :: items), ?_, hc⟩
      rw [render_items_cons_cons, heq, List.cons_append]

/-- A written array is read back if each of its items is. -/
theorem read_back_array {items : List Json} (hwritable : ∀ item ∈ items, Writable item)
    (hitems : ∀ item ∈ items, ReadBack item) : ReadBack (.array items) := by
  intro fuel rest hfuel _
  rw [render] at hfuel ⊢
  simp only [List.length_append, List.length_cons, List.length_nil] at hfuel
  obtain ⟨fuel, rfl⟩ : ∃ k, fuel = k + 1 := ⟨fuel - 1, by omega⟩
  show readValue (fuel + 1) ('[' :: (renderItems items ++ [']']) ++ rest) = _
  rw [List.cons_append, List.append_assoc, List.singleton_append]
  cases items with
  | nil =>
      show readValue (fuel + 1) ('[' :: ']' :: rest) = some (array [], rest)
      rw [read_value_bracket, skip_blanks_cons (by decide)]
      rfl
  | cons item items =>
      have hread := read_items_render (List.cons_ne_nil item items) hitems fuel rest (by omega)
      -- An array that starts with the text of an item is not taken for the empty one.
      obtain ⟨c, t, heq, hblank, hc⟩ :=
        exists_render_items_eq (hwritable item List.mem_cons_self) items
      rw [heq, List.cons_append] at hread ⊢
      rw [read_value_items fuel hblank hc, hread]
      rfl

/-- One step of reading members: a key up to its quote, a colon, a value, and then a comma or the
closing brace. -/
theorem read_members_quote (fuel : Nat) (t : Text) :
    readMembers (fuel + 1) ('"' :: t) = (do
      let (units, rest) ← unescape t
      match skipBlanks rest with
      | ':' :: rest =>
        let (value, rest) ← readValue fuel rest
        match skipBlanks rest with
        | '}' :: rest => return ([(assemble units, value)], rest)
        | ',' :: rest =>
          let (members, rest) ← readMembers fuel rest
          return ((assemble units, value) :: members, rest)
        | _ => none
      | _ => none) := by
  rw [readMembers, skip_blanks_cons (by decide)]
  rfl

/-- One step of reading members, for a key as the encoder writes it. -/
theorem read_members_cons (fuel : Nat) (key t : Text) :
    readMembers (fuel + 1) (quote key ++ ':' :: t) = (do
      let (value, rest) ← readValue fuel t
      match skipBlanks rest with
      | '}' :: rest => return ([(some key, value)], rest)
      | ',' :: rest =>
        let (members, rest) ← readMembers fuel rest
        return ((some key, value) :: members, rest)
      | _ => none) := by
  show readMembers (fuel + 1) ('"' :: (key.flatMap escape ++ ['"']) ++ ':' :: t) = _
  rw [List.cons_append, List.append_assoc, List.singleton_append, read_members_quote,
    unescape_quoted, ← assemble_map_char key]
  rfl

/-- Written members are read back, by induction over them, with two steps of fuel for each
character. -/
theorem read_members_render {members : List (Option Text × Json)} (hne : members ≠ [])
    (hkeys : ∀ member ∈ members, member.1.isSome = true)
    (hvalues : ∀ member ∈ members, ReadBack member.2) (fuel : Nat) (rest : Text)
    (hfuel : 2 * (renderMembers members).length + 1 ≤ fuel) :
    readMembers fuel (renderMembers members ++ '}' :: rest) = some (members, rest) := by
  induction members generalizing fuel with
  | nil => exact absurd rfl hne
  | cons member members ih =>
      obtain ⟨key, value⟩ := member
      obtain ⟨hkey, hmoreKeys⟩ := List.forall_mem_cons.mp hkeys
      obtain ⟨key, rfl⟩ := Option.isSome_iff_exists.mp hkey
      have hvalue : ReadBack value := hvalues _ List.mem_cons_self
      have hmoreValues := (List.forall_mem_cons.mp hvalues).2
      obtain ⟨fuel, rfl⟩ : ∃ k, fuel = k + 1 := ⟨fuel - 1, by omega⟩
      cases members with
      | nil =>
          have heq : renderMembers [(some key, value)] = quote key ++ ':' :: render value := by
            rw [renderMembers]
            rfl
          rw [heq] at hfuel ⊢
          rw [List.length_append, List.length_cons] at hfuel
          rw [List.append_assoc, List.cons_append, read_members_cons,
            hvalue fuel ('}' :: rest) (by omega) (.cons (by decide) rest)]
          rfl
      | cons next members =>
          rw [render_members_cons_cons] at hfuel ⊢
          simp only [List.length_append, List.length_cons, Option.getD_some] at hfuel
          have hmore := ih (List.cons_ne_nil next members) hmoreKeys hmoreValues fuel (by omega)
          simp only [Option.getD_some, List.append_assoc, List.cons_append]
          rw [read_members_cons, hvalue fuel _ (by omega) (.cons (by decide) _)]
          show (do
            let (members, rest) ← readMembers fuel (renderMembers (next :: members) ++ '}' :: rest)
            return ((some key, value) :: members, rest)) = _
          rw [hmore]
          rfl

/-- Written members begin with the quote of the first key. -/
theorem exists_render_members_eq (member : Option Text × Json) (members : List (Option Text × Json)) :
    ∃ t, renderMembers (member :: members) = '"' :: t := by
  obtain ⟨key, value⟩ := member
  cases members with
  | nil => exact ⟨_, by rw [renderMembers]; rfl⟩
  | cons next members => exact ⟨_, by rw [render_members_cons_cons]; rfl⟩

/-- A written object is read back if each of its values is and no key is missing. -/
theorem read_back_object {members : List (Option Text × Json)}
    (hkeys : ∀ member ∈ members, member.1.isSome = true)
    (hvalues : ∀ member ∈ members, ReadBack member.2) : ReadBack (.object members) := by
  intro fuel rest hfuel _
  rw [render] at hfuel ⊢
  simp only [List.length_append, List.length_cons, List.length_nil] at hfuel
  obtain ⟨fuel, rfl⟩ : ∃ k, fuel = k + 1 := ⟨fuel - 1, by omega⟩
  show readValue (fuel + 1) ('{' :: (renderMembers members ++ ['}']) ++ rest) = _
  rw [List.cons_append, List.append_assoc, List.singleton_append]
  cases members with
  | nil =>
      show readValue (fuel + 1) ('{' :: '}' :: rest) = some (object [], rest)
      rw [read_value_brace, skip_blanks_cons (by decide)]
      rfl
  | cons member members =>
      have hread :=
        read_members_render (List.cons_ne_nil member members) hkeys hvalues fuel rest (by omega)
      obtain ⟨t, heq⟩ := exists_render_members_eq member members
      rw [heq, List.cons_append] at hread ⊢
      rw [read_value_members, hread]
      rfl

/-! ## The whole text -/

/-- Every value that can be written is read back from its text. -/
theorem Writable.read_back {v : Json} (h : Writable v) : ReadBack v := by
  induction h with
  | null =>
      intro fuel rest hfuel _
      obtain ⟨fuel, rfl⟩ := Writable.null.exists_fuel hfuel
      show readValue (fuel + 1) ('n' :: 'u' :: 'l' :: 'l' :: rest) = some (.null, rest)
      rw [readValue, skip_blanks_cons (by decide)]
      rfl
  | bool value =>
      intro fuel rest hfuel _
      obtain ⟨fuel, rfl⟩ := (Writable.bool value).exists_fuel hfuel
      cases value with
      | false =>
          show readValue (fuel + 1) ('f' :: 'a' :: 'l' :: 's' :: 'e' :: rest) =
            some (.bool false, rest)
          rw [readValue, skip_blanks_cons (by decide)]
          rfl
      | true =>
          show readValue (fuel + 1) ('t' :: 'r' :: 'u' :: 'e' :: rest) = some (.bool true, rest)
          rw [readValue, skip_blanks_cons (by decide)]
          rfl
  | number h => exact read_back_number h
  | string content => exact read_back_string content
  | array hwritable ih => exact read_back_array hwritable ih
  | object hkeys _ ih => exact read_back_object hkeys ih

/-- The round trip of a whole text: the decoder reads the value that the encoder wrote. -/
theorem Writable.read_render {v : Json} (h : Writable v) : read? (render v) = some v := by
  have hread := h.read_back (2 * (render v).length + 1) [] (by omega) (by rintro c ⟨⟩)
  rw [List.append_nil] at hread
  rw [read?, hread]
  rfl

/-! ## Control characters -/

/-- No control character is in the text. -/
def ControlFree (t : Text) : Prop :=
  ∀ c ∈ t, 0x20 ≤ c.toNat

/-- The empty text has no control character. -/
theorem control_free_nil : ControlFree [] := by
  rintro c ⟨⟩

/-- A text has no control character if neither its first character is one nor the rest has one. -/
theorem control_free_cons {c : Char} {t : Text} :
    ControlFree (c :: t) ↔ 0x20 ≤ c.toNat ∧ ControlFree t :=
  List.forall_mem_cons

/-- Two texts in a row have no control character if neither has one. -/
theorem control_free_append {a b : Text} :
    ControlFree (a ++ b) ↔ ControlFree a ∧ ControlFree b :=
  List.forall_mem_append

/-- A fixed text is checked for control characters by evaluation. -/
theorem control_free_of_all {t : Text} (h : t.all (0x20 ≤ ·.toNat) = true) : ControlFree t :=
  fun c hc => of_decide_eq_true (List.all_eq_true.mp h c hc)

/-- Control characters are escaped, and an escape has none itself. -/
theorem control_free_escape (c : Char) : ControlFree (escape c) := by
  have h := escaped_escape c
  generalize escape c = written at h
  cases h with
  | letter _ _ hletter =>
      exact control_free_cons.mpr ⟨by decide, control_free_cons.mpr ⟨hletter, control_free_nil⟩⟩
  | code hcode =>
      have hhigh := le_to_nat_hex_digit (c.toNat / 16) (by omega)
      have hlow := le_to_nat_hex_digit (c.toNat % 16) (by omega)
      simp only [control_free_cons]
      exact ⟨by decide, by decide, by decide, by decide, hhigh, hlow, control_free_nil⟩
  | plain hcontrol _ _ => exact control_free_cons.mpr ⟨hcontrol, control_free_nil⟩

/-- A quoted text has no control character, whatever the text is. -/
theorem control_free_quote (t : Text) : ControlFree (quote t) := by
  refine control_free_cons.mpr ⟨by decide, control_free_append.mpr ⟨?_, ?_⟩⟩
  · intro c hc
    obtain ⟨d, _, hmem⟩ := List.mem_flatMap.mp hc
    exact control_free_escape d c hmem
  · exact control_free_cons.mpr ⟨by decide, control_free_nil⟩

/-- A number has no control character, its characters being digits, signs, a point or an exponent.
-/
theorem NumberText.control_free {lexeme : Text} (h : NumberText lexeme) : ControlFree lexeme := by
  intro c hc
  have hchar := h.chars c hc
  simp only [isNumberChar, Bool.or_eq_true, beq_iff_eq, Char.isDigit_iff_toNat] at hchar
  rcases hchar with ((((hdigit | rfl) | rfl) | rfl) | rfl) | rfl
  · exact le_trans (by decide) hdigit.1
  all_goals decide

/-- Items without control characters are written without one. -/
theorem control_free_items {items : List Json} (h : ∀ item ∈ items, ControlFree (render item)) :
    ControlFree (renderItems items) := by
  induction items with
  | nil => exact control_free_nil
  | cons item items ih =>
      obtain ⟨hitem, hitems⟩ := List.forall_mem_cons.mp h
      cases items with
      | nil =>
          rw [renderItems]
          exact hitem
      | cons next items =>
          rw [render_items_cons_cons, control_free_append, control_free_cons]
          exact ⟨hitem, by decide, ih hitems⟩

/-- Members whose values have no control characters are written without one, the keys being quoted.
-/
theorem control_free_members {members : List (Option Text × Json)}
    (h : ∀ member ∈ members, ControlFree (render member.2)) :
    ControlFree (renderMembers members) := by
  induction members with
  | nil => exact control_free_nil
  | cons member members ih =>
      obtain ⟨hvalue, hvalues⟩ := List.forall_mem_cons.mp h
      obtain ⟨key, value⟩ := member
      have hmember : ControlFree (quote (key.getD []) ++ ':' :: render value) := by
        rw [control_free_append, control_free_cons]
        exact ⟨control_free_quote _, by decide, hvalue⟩
      cases members with
      | nil =>
          rw [renderMembers]
          exact hmember
      | cons next members =>
          rw [render_members_cons_cons, control_free_append, control_free_cons]
          exact ⟨hmember, by decide, ih hvalues⟩

/-- The encoder writes every value on one line, since it writes no control character at all. -/
theorem Writable.control_free {v : Json} (h : Writable v) : ControlFree (render v) := by
  induction h with
  | null =>
      rw [render]
      exact control_free_of_all rfl
  | bool value =>
      cases value <;> rw [render] <;> exact control_free_of_all rfl
  | number h =>
      rw [render]
      exact h.control_free
  | string content =>
      rw [render]
      exact control_free_quote content
  | array _ ih =>
      rw [render, control_free_append, control_free_cons]
      exact ⟨⟨by decide, control_free_items ih⟩, control_free_cons.mpr ⟨by decide, control_free_nil⟩⟩
  | object _ _ ih =>
      rw [render, control_free_append, control_free_cons]
      exact ⟨⟨by decide, control_free_members ih⟩, control_free_cons.mpr ⟨by decide, control_free_nil⟩⟩

end LineShell.Json
