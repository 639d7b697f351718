import LineShell.Proofs.JsonText
import LineShell.Report.Json
import Mathlib.Algebra.Group.Nat.Defs
import Mathlib.Algebra.Ring.Int.Defs

/-!
# Reports in JSON and back

A report that is written as JSON is read back as it was, whatever its texts hold, and its text is
one line: `json_round_trip`. Its numbers have to fit the widths they are read with (`Report.Fits`),
and `of_json?_to_json_iff` says that no more and no less is needed.

A record is written as those of its fields that are present, in their order (`Json.present`), and
read by their names (`fields?_present`), so a field that is absent is absent again.
-/

namespace LineShell

namespace Json

/-! ## Numbers -/

/-- The decimal digits of a number are digits. -/
theorem is_digit_of_mem_to_digits {n : Nat} {c : Char} (h : c ∈ Nat.toDigits 10 n) :
    c.isDigit = true :=
  Nat.isDigit_of_mem_toDigits (by decide) (by decide) h

/-- No number but zero is written with a leading zero. -/
theorem head?_to_digits_ne_zero {n : Nat} (h : n ≠ 0) : (Nat.toDigits 10 n).head? ≠ some '0' := by
  induction n using Nat.strong_induction_on with
  | _ n ih =>
      rw [Nat.toDigits_eq_if (by decide)]
      split
      · simpa using h
      -- The first digit of `n` is that of `n / 10`.
      · rw [List.head?_append_of_ne_nil _ Nat.toDigits_ne_nil]
        exact ih (n / 10) (by omega) (by omega)

/-- The digits of a natural number are read back as that number. -/
theorem decimal?_to_digits (n : Nat) : Text.decimal? (Nat.toDigits 10 n) = some n := by
  have hall : (Nat.toDigits 10 n).all Char.isDigit = true :=
    List.all_eq_true.mpr fun _ => is_digit_of_mem_to_digits
  have hvalue : Text.decimalValue (Nat.toDigits 10 n) = n := by
    rw [Text.decimalValue, ← Nat.ofDigitChars_eq_foldl, Nat.ofDigitChars_ten_toDigits]
  simp [Text.decimal?, hall, hvalue]

/-- The digits of a natural number are a whole part as the grammar of numbers has it. -/
theorem drop_whole?_to_digits (n : Nat) : dropWhole? (Nat.toDigits 10 n) = some [] := by
  by_cases hzero : n = 0
  · subst hzero
    rfl
  · obtain ⟨c, t, heq⟩ := List.exists_cons_of_ne_nil (Nat.toDigits_ne_nil : Nat.toDigits 10 n ≠ [])
    have hc : c ≠ '0' := by
      rintro rfl
      exact head?_to_digits_ne_zero hzero (by rw [heq]; rfl)
    have hdigits : ∀ d ∈ c :: t, d.isDigit = true := by
      rw [← heq]
      exact fun d => is_digit_of_mem_to_digits
    obtain ⟨hdigit, hmore⟩ := List.forall_mem_cons.mp hdigits
    rw [heq, dropWhole?]
    · rw [dropDigits?, if_pos hdigit, List.dropWhile_eq_nil_iff.mpr hmore]
    · rintro t' heq'
      exact hc (List.cons.inj heq').1

/-- How a whole number is written: its digits, after a `-` if it is negative. -/
theorem to_list_to_string (n : Int) :
    (∃ m : Nat, n = m ∧ (toString n).toList = Nat.toDigits 10 m) ∨
      ∃ m : Nat, n = -(m + 1 : Nat) ∧ (toString n).toList = '-' :: Nat.toDigits 10 (m + 1) := by
  cases n with
  | ofNat m => exact .inl ⟨m, rfl, Nat.toList_repr⟩
  | negSucc m =>
      refine .inr ⟨m, rfl, ?_⟩
      show ("-" ++ (m + 1).repr).toList = _
      rw [String.toList_append, Nat.toList_repr]
      rfl

/-- The digits of a number are characters of a JSON number. -/
theorem is_number_char_of_mem_to_digits {n : Nat} {c : Char} (h : c ∈ Nat.toDigits 10 n) :
    isNumberChar c = true := by
  simp [isNumberChar, is_digit_of_mem_to_digits h]

/-- A natural number is written without a sign. -/
theorem to_digits_ne_minus_cons (n : Nat) (t : Text) : Nat.toDigits 10 n ≠ '-' :: t := by
  intro heq
  have hminus := is_digit_of_mem_to_digits (n := n) (heq ▸ List.mem_cons_self)
  exact absurd hminus (by decide)

/-- Every integer is written as a JSON number. -/
theorem number_text_to_string (n : Int) : NumberText (toString n).toList := by
  rcases to_list_to_string n with ⟨m, -, heq⟩ | ⟨m, -, heq⟩
  · rw [heq]
    refine ⟨fun c => is_number_char_of_mem_to_digits, ?_⟩
    unfold isNumber
    split
    · rename_i hminus
      exact absurd hminus (to_digits_ne_minus_cons m _)
    · show (do dropExponent? (← dropFraction? (← dropWhole? (Nat.toDigits 10 m)))) == some []
      rw [drop_whole?_to_digits]
      rfl
  · rw [heq]
    refine ⟨List.forall_mem_cons.mpr ⟨by decide, fun c => is_number_char_of_mem_to_digits⟩, ?_⟩
    show (do dropExponent? (← dropFraction? (← dropWhole? (Nat.toDigits 10 (m + 1))))) == some []
    rw [drop_whole?_to_digits]
    rfl

/-- Every integer is read back from its digits and its sign. -/
theorem lexeme_int?_to_string (n : Int) : lexemeInt? (toString n).toList = some n := by
  rcases to_list_to_string n with ⟨m, rfl, heq⟩ | ⟨m, rfl, heq⟩
  · rw [heq]
    unfold lexemeInt?
    split
    · rename_i hminus
      exact absurd hminus (to_digits_ne_minus_cons m _)
    · rw [decimal?_to_digits]
      rfl
  · rw [heq, lexemeInt?, decimal?_to_digits]

/-- An integer within the bounds of a width is read back at that width. -/
theorem int_between?_of_int {low high n : Int} (h : low ≤ n ∧ n ≤ high) :
    (ofInt n).intBetween? low high = some n := by
  rw [ofInt, intBetween?, lexeme_int?_to_string]
  exact if_pos h

/-- What is read at a width is within its bounds. -/
theorem int_between?_range {low high n : Int} {value : Json}
    (h : value.intBetween? low high = some n) : low ≤ n ∧ n ≤ high := by
  unfold intBetween? at h
  split at h
  · split at h
    · split at h
      · rename_i hrange
        exact Option.some.inj h ▸ hrange
      · cases h
    · cases h
  · cases h

/-! ## Records -/

/-- The members of an object with the given fields, of which those that have no value
are left out. -/
def present (fields : List (String × Option Json)) : List (Option Text × Json) :=
  fields.filterMap fun (name, value) => value.map (some name.toList, ·)

/-- A field that is present comes before the members of the fields after it; one that is skipped
leaves no trace. -/
theorem present_cons (name : String) (value : Option Json) (fields : List (String × Option Json)) :
    present ((name, value) :: fields) =
      (value.map (some name.toList, ·)).toList ++ present fields := by
  cases value <;> rfl

/-- The members of an object are the fields that are present, under their names. -/
theorem mem_present {fields : List (String × Option Json)} {member : Option Text × Json} :
    member ∈ present fields ↔
      ∃ name value, (name, some value) ∈ fields ∧ (some name.toList, value) = member := by
  simp only [present, List.mem_filterMap, Option.map_eq_some_iff, Prod.exists]
  constructor
  · rintro ⟨name, _, hfield, value, rfl, heq⟩
    exact ⟨name, value, hfield, heq⟩
  · rintro ⟨name, value, hfield, heq⟩
    exact ⟨name, some value, hfield, value, rfl, heq⟩

/-- A name that no field has is the key of no member. -/
theorem filter_present_of_not_mem {name : String} {fields : List (String × Option Json)}
    (h : name ∉ fields.map Prod.fst) : (present fields).filter (·.1 == some name.toList) = [] := by
  refine List.filter_eq_nil_iff.mpr fun member hmember hname => h ?_
  obtain ⟨other, value, hfield, rfl⟩ := mem_present.mp hmember
  have heq : other = name := String.toList_injective (Option.some.inj (beq_iff_eq.mp hname))
  exact heq ▸ List.mem_map_of_mem hfield

/-- Under distinct names, looking a field up among the members finds its value once, or nothing if
it is skipped. -/
theorem filter_present {fields : List (String × Option Json)} (hnames : (fields.map Prod.fst).Nodup)
    {name : String} {value : Option Json} (h : (name, value) ∈ fields) :
    (present fields).filter (·.1 == some name.toList) = (value.map (some name.toList, ·)).toList := by
  induction fields with
  | nil => cases h
  | cons field fields ih =>
      obtain ⟨first, firstValue⟩ := field
      rw [List.map_cons, List.nodup_cons] at hnames
      obtain ⟨hfresh, hnames⟩ := hnames
      rw [present_cons, List.filter_append]
      rcases List.mem_cons.mp h with heq | hmem
      -- No later field has the name of the first one, and the first one has no other name.
      · obtain ⟨rfl, rfl⟩ := Prod.mk.inj heq
        rw [filter_present_of_not_mem hfresh, List.append_nil]
        cases value <;> simp
      · have hne : first ≠ name := by
          rintro rfl
          exact hfresh (List.mem_map.mpr ⟨_, hmem, rfl⟩)
        have hlists : first.toList ≠ name.toList := fun heq => hne (String.toList_injective heq)
        rw [ih hnames hmem]
        cases firstValue <;> simp [hlists]

/-- Reading a field for each name gives the values of the fields, if each of them is read right. -/
theorem map_m_fst {f : String → Option (Option Json)} {fields : List (String × Option Json)}
    (h : ∀ field ∈ fields, f field.1 = some field.2) :
    (fields.map Prod.fst).mapM f = some (fields.map Prod.snd) := by
  induction fields with
  | nil => rfl
  | cons field fields ih =>
      obtain ⟨hfield, hfields⟩ := List.forall_mem_cons.mp h
      rw [List.map_cons, List.mapM_cons, hfield, ih hfields]
      rfl

/-- The fields of a record are found again by their names. -/
theorem fields?_present (fields : List (String × Option Json))
    (hnames : (fields.map Prod.fst).Nodup) :
    (object (present fields)).fields? (fields.map Prod.fst) = some (fields.map Prod.snd) := by
  have hkeys : (present fields).all (·.1.isSome) = true := by
    refine List.all_eq_true.mpr fun member hmember => ?_
    obtain ⟨name, value, _, rfl⟩ := mem_present.mp hmember
    rfl
  rw [fields?, if_pos hkeys]
  refine map_m_fst fun field hfield => ?_
  obtain ⟨name, value⟩ := field
  dsimp only
  rw [filter_present hnames hfield]
  cases value <;> rfl

/-- An object of fields can be written if the value of each field can. -/
theorem writable_present {fields : List (String × Option Json)}
    (h : ∀ field ∈ fields, ∀ value ∈ field.2, Writable value) :
    Writable (.object (present fields)) := by
  refine .object (fun member hmember => ?_) fun member hmember => ?_
  all_goals obtain ⟨name, value, hfield, rfl⟩ := mem_present.mp hmember
  · rfl
  · exact h _ hfield value rfl

/-- A field that may be absent is read as it was, if it is never written as `null`. -/
theorem optional?_map {α : Type} {read : Json → Option α} {write : α → Json} {value : Option α}
    (hread : ∀ x ∈ value, read (write x) = some x) (hnull : ∀ x, write x ≠ .null) :
    optional? read (value.map write) = some value := by
  cases value with
  | none => rfl
  | some x =>
      show optional? read (some (write x)) = some (some x)
      rw [optional?, hread x rfl]
      · rfl
      · exact fun heq => hnull x heq

/-- An optional field that has a value was read from a written one. -/
theorem exists_read_of_optional? {α : Type} {read : Json → Option α} {value : Option Json} {x : α}
    (h : optional? read value = some (some x)) : ∃ written, read written = some x := by
  unfold optional? at h
  split at h
  · cases h
  · cases h
  · obtain ⟨y, hread, ⟨⟩⟩ := Option.map_eq_some_iff.mp h
    exact ⟨_, hread⟩

end Json

/-! ## Reports -/

/-- A string is read back from its JSON value. -/
theorem Report.string?_json_string (s : String) : (Report.jsonString s).string? = some s :=
  congrArg some String.ofList_toList

namespace SourceLocation

/-- The fields of a location. -/
def fields (l : SourceLocation) : List (String × Option Json) :=
  [("line", some (.ofInt l.line)), ("filename", some (Report.jsonString l.file))]

/-- A location is written as the object of its fields. -/
theorem to_json_eq (l : SourceLocation) : l.toJson = .object (Json.present l.fields) :=
  rfl

/-- A location can be written as JSON. -/
theorem writable_to_json (l : SourceLocation) : Json.Writable l.toJson := by
  rw [to_json_eq]
  refine Json.writable_present ?_
  simp only [fields, List.forall_mem_cons, Option.mem_some_iff, forall_eq']
  exact ⟨.number (Json.number_text_to_string _), .string _, by simp⟩

/-- A location is read back, if its line number fits the width it is stored in. -/
theorem of_json?_to_json {l : SourceLocation} (h : l.line < 2 ^ 64) :
    ofJson? l.toJson = some l := by
  have hfields : l.toJson.fields? ["line", "filename"] =
      some [some (.ofInt l.line), some (Report.jsonString l.file)] := by
    rw [l.to_json_eq]
    exact Json.fields?_present l.fields (by simp [fields])
  have hline : (Json.ofInt l.line).intBetween? 0 (Int.pow 2 64 - 1) = some l.line := by
    refine Json.int_between?_of_int ⟨by omega, ?_⟩
    show (l.line : Int) ≤ 2 ^ 64 - 1
    omega
  simp only [ofJson?, hfields, hline, Report.string?_json_string, Option.bind_eq_bind,
    Option.bind_some]
  rfl

/-- A line number that was read fits its width. -/
theorem line_lt_of_of_json? {value : Json} {l : SourceLocation} (h : ofJson? value = some l) :
    l.line < 2 ^ 64 := by
  simp only [ofJson?, Option.bind_eq_bind, Option.bind_eq_some_iff] at h
  obtain ⟨_, -, h⟩ := h
  split at h
  · simp only [Option.bind_eq_some_iff] at h
    obtain ⟨line, hline, file, -, ⟨⟩⟩ := h
    have hrange : 0 ≤ line ∧ line ≤ 2 ^ 64 - 1 := Json.int_between?_range hline
    show line.toNat < 2 ^ 64
    omega
  · cases h

end SourceLocation

namespace Report

/-- The numbers of the report fit the widths they are read with: 32 bits with a sign,
and 64 bits. -/
structure Fits (r : Report) : Prop where
  exitCode : -2 ^ 31 ≤ r.exitCode ∧ r.exitCode < 2 ^ 31
  line : ∀ l ∈ r.location, l.line < 2 ^ 64

/-- The fields of a report. -/
def fields (r : Report) : List (String × Option Json) :=
  [("error_code", some (jsonString r.code)), ("message", some (jsonString r.message)),
    ("exit_code", some (.ofInt r.exitCode)), ("command", r.command.map jsonString),
    ("location", r.location.map SourceLocation.toJson)]

/-- A report is written as the object of its fields. -/
theorem to_json_value_eq (r : Report) : r.toJsonValue = .object (Json.present r.fields) := by
  obtain ⟨code, message, exitCode, command, location⟩ := r
  cases command <;> cases location <;> rfl

/-- A report can be written as JSON. -/
theorem writable_to_json_value (r : Report) : Json.Writable r.toJsonValue := by
  rw [to_json_value_eq]
  refine Json.writable_present ?_
  simp only [fields, List.forall_mem_cons, Option.mem_some_iff, forall_eq']
  -- The last two fields may be absent.
  refine ⟨.string _, .string _, .number (Json.number_text_to_string _), ?_, ?_, by simp⟩
  · rintro value hvalue
    obtain ⟨c, _, rfl⟩ := Option.map_eq_some_iff.mp hvalue
    exact .string _
  · rintro value hvalue
    obtain ⟨l, _, rfl⟩ := Option.map_eq_some_iff.mp hvalue
    exact l.writable_to_json

/-- A report is read back from its JSON value, if its numbers fit the widths they are stored in. -/
theorem of_json_value?_to_json_value {r : Report} (h : r.Fits) :
    ofJsonValue? r.toJsonValue = some r := by
  have hfields : r.toJsonValue.fields? ["error_code", "message", "exit_code", "command", "location"] =
      some [some (jsonString r.code), some (jsonString r.message), some (.ofInt r.exitCode),
        r.command.map jsonString, r.location.map SourceLocation.toJson] := by
    rw [r.to_json_value_eq]
    exact Json.fields?_present r.fields (by simp [fields])
  have hexit : (Json.ofInt r.exitCode).intBetween? (-Int.pow 2 31) (Int.pow 2 31 - 1) =
      some r.exitCode := by
    refine Json.int_between?_of_int ?_
    show -2 ^ 31 ≤ r.exitCode ∧ r.exitCode ≤ 2 ^ 31 - 1
    have hrange := h.exitCode
    omega
  have hcommand : Json.optional? Json.string? (r.command.map jsonString) = some r.command :=
    Json.optional?_map (fun c _ => string?_json_string c) fun _ heq => by cases heq
  have hlocation : Json.optional? SourceLocation.ofJson? (r.location.map SourceLocation.toJson) =
      some r.location :=
    Json.optional?_map (fun l hl => SourceLocation.of_json?_to_json (h.line l hl)) fun _ heq => by
      cases heq
  simp only [ofJsonValue?, hfields, string?_json_string, hexit, hcommand, hlocation,
    Option.bind_eq_bind, Option.bind_some]
  rfl

/-- No other reports are ever read. -/
theorem fits_of_of_json_value? {value : Json} {r : Report} (h : ofJsonValue? value = some r) :
    r.Fits := by
  simp only [ofJsonValue?, Option.bind_eq_bind, Option.bind_eq_some_iff] at h
  obtain ⟨_, -, h⟩ := h
  split at h
  · simp only [Option.bind_eq_some_iff] at h
    obtain ⟨code, -, message, -, exitCode, hexit, command, -, location, hlocation, ⟨⟩⟩ := h
    have hrange : -2 ^ 31 ≤ exitCode ∧ exitCode ≤ 2 ^ 31 - 1 := Json.int_between?_range hexit
    refine ⟨⟨hrange.1, ?_⟩, ?_⟩
    · show exitCode < 2 ^ 31
      omega
    · rintro l ⟨⟩
      obtain ⟨written, hwritten⟩ := Json.exists_read_of_optional? hlocation
      exact SourceLocation.line_lt_of_of_json? hwritten
  · cases h

/-- The text of a report is read as its JSON value. -/
theorem read?_to_json (r : Report) : Json.read? r.toJson.toList = some r.toJsonValue := by
  rw [toJson, String.toList_ofList]
  exact r.writable_to_json_value.read_render

/-- Reading a report from its text is reading it from its JSON value. -/
theorem of_json?_to_json (r : Report) : ofJson? r.toJson = ofJsonValue? r.toJsonValue := by
  show (Json.read? r.toJson.toList).bind ofJsonValue? = _
  rw [r.read?_to_json]
  rfl

/-- Exactly the reports whose numbers fit are read back. -/
theorem of_json?_to_json_iff (r : Report) : ofJson? r.toJson = some r ↔ r.Fits := by
  rw [r.of_json?_to_json]
  exact ⟨fits_of_of_json_value?, of_json_value?_to_json_value⟩

/-- A report's JSON has no control character in it, so it is one line, and the report is read back
from it. -/
theorem json_round_trip (r : Report) (h : r.Fits) :
    (∀ c ∈ r.toJson.toList, 0x20 ≤ c.toNat) ∧ ofJson? r.toJson = some r := by
  constructor
  · rw [toJson, String.toList_ofList]
    exact r.writable_to_json_value.control_free
  · exact r.of_json?_to_json_iff.mpr h

/-- Quotes, a backslash, control characters with and without a letter, and characters beyond ASCII,
in a report that has its numbers at their limits and an empty command. -/
theorem json_round_trip_at_limits :
    let r : Report :=
      ⟨"IO_ERROR", "\"a\\b\"\n\x01\x1f\x7f\x08é😀", -2 ^ 31, some "", some ⟨2 ^ 64 - 1, "\t.rc"⟩⟩
    r.Fits ∧ (∀ c ∈ r.toJson.toList, 0x20 ≤ c.toNat) ∧ ofJson? r.toJson = some r := by
  intro r
  have hfits : r.Fits := by
    refine ⟨by decide, ?_⟩
    rintro l ⟨⟩
    decide
  exact ⟨hfits, json_round_trip r hfits⟩

end Report

end LineShell
