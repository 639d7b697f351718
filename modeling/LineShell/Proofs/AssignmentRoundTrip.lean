import LineShell.Proofs.Bindings
import LineShell.Proofs.SessionFrame
import LineShell.Proofs.SubstitutionMeaning
import LineShell.World

/-!
# Assignments are read back

A value that can be assigned can be written in many ways: with spaces around its name and around
itself, and with a comment behind it. Each of them is read as that assignment, whatever stands in
the value, and a later reference to the name gives the value back (`assignment_round_trip`).

The value may hold `=`, `|`, `<` and `>`, since a line with a `=` is cut at the first one
and nowhere else; it may not hold `#`, where its comment would begin, nor `$`, which would
be expanded first.
-/

namespace LineShell

/-- The text assigns `value` to `name`, with any spaces between its parts and a comment or none. -/
inductive WritesAssignment (name value : Text) : Text → Prop where
  | intro {before left right after comment : Text} : Text.Blank before → Text.Blank left →
      Text.Blank right → Text.Blank after → (∀ c ∈ comment.head?, c = '#') → '$' ∉ comment →
      WritesAssignment name value
        (before ++ (name ++ left ++ '=' :: (right ++ value ++ after ++ comment)))

/-! ## Names -/

/-- Letters and the underscore are characters of names. -/
theorem is_name_char_of_letter {c : Char}
    (h : ('A' ≤ c ∧ c ≤ 'Z') ∨ ('a' ≤ c ∧ c ≤ 'z') ∨ c = '_') : isNameChar c = true := by
  show (decide ('A'.val ≤ c.val ∧ c.val ≤ 'Z'.val) ||
    (decide ('a'.val ≤ c.val) && decide (c.val ≤ 'z'.val)) || c == '_') = true
  simp only [Bool.or_eq_true, Bool.and_eq_true, decide_eq_true_eq, beq_iff_eq, or_assoc]
  exact h

namespace Assignable

variable {name value : Text}

/-- What can be assigned to is the name of a variable. -/
theorem is_variable_name (h : Assignable name value) : isVariableName name = true := by
  simp only [isVariableName, Bool.and_eq_true, Bool.not_eq_true', List.isEmpty_eq_false_iff,
    List.all_eq_true]
  exact ⟨h.name_ne, fun c hc => is_name_char_of_letter (h.letters c hc)⟩

/-- A name has no characters but those of names, so none of `=`, `$`, `#` and the space. -/
theorem not_mem_name (h : Assignable name value) {c : Char} (hc : isNameChar c = false) :
    c ∉ name :=
  not_mem_of_is_variable_name h.is_variable_name hc

end Assignable

/-! ## Trimming around a character -/

namespace Text

/-- What stands before a character other than the space is not trimmed off the end. -/
theorem trim_end_append_cons {c : Char} (hc : c ≠ ' ') (a t : Text) :
    trimEnd (a ++ c :: t) = a ++ c :: trimEnd t := by
  induction a with
  | nil => rw [List.nil_append, trim_end_cons, if_neg (fun h => hc h.2), List.nil_append]
  | cons d a ih =>
      rw [List.cons_append, trim_end_cons, ih, if_neg (by simp)]
      rfl

/-- Whether a text is trimmed at its end makes no difference to what stands before a character. -/
theorem trim_cut_at_trim_end {stop : Char} (hstop : stop ≠ ' ') (t : Text) :
    trim (cutAt stop (trimEnd t)).1 = trim (cutAt stop t).1 := by
  by_cases h : stop ∈ t
  · obtain ⟨before, after, rfl, hbefore⟩ := List.eq_append_cons_of_mem h
    rw [trim_end_append_cons hstop, cut_at_append hbefore, cut_at_append hbefore]
  · obtain ⟨gap, hgap, heq⟩ := exists_blank_trim_end t
    have hend : stop ∉ trimEnd t := fun hmem => h (by rw [heq]; exact List.mem_append_left _ hmem)
    rw [cut_at_eq_self hend, cut_at_eq_self h]
    conv_rhs => rw [heq]
    simpa using (trim_append_blank blank_nil (trimEnd t) hgap).symm

end Text

/-! ## Reading an assignment -/

namespace WritesAssignment

variable {name value text : Text}

/-- A written assignment has no `$` unless its value has one. -/
theorem dollar_not_mem (h : WritesAssignment name value text) (hassign : Assignable name value)
    (hvalue : '$' ∉ value) : '$' ∉ text := by
  obtain ⟨hbefore, hleft, hright, hafter, _, hcomment⟩ := h
  have hblank {gap : Text} (hgap : Text.Blank gap) : '$' ∉ gap := hgap.not_mem (by decide)
  have hname : '$' ∉ name := hassign.not_mem_name (by decide)
  simp [hblank hbefore, hblank hleft, hblank hright, hblank hafter, hname, hvalue, hcomment]

/-- What is left of the text once it is trimmed: the name, and behind the `=` something of which the
value is the part before the comment. -/
theorem exists_trim_eq (h : WritesAssignment name value text) (hassign : Assignable name value) :
    ∃ left rest, Text.Blank left ∧ Text.trim text = name ++ left ++ '=' :: rest ∧
      Text.trim (Text.cutAt '#' rest).1 = value := by
  cases h with
  | @intro before left right after comment hbefore hleft hright hafter hhead _ =>
      refine ⟨left, Text.trimEnd (right ++ value ++ after ++ comment), hleft, ?_, ?_⟩
      · have hstart : (name ++ left ++ '=' :: (right ++ value ++ after ++ comment)).head? ≠
            some ' ' := by
          rw [List.append_assoc, List.head?_append_of_ne_nil _ hassign.name_ne]
          exact fun hspace => hassign.not_mem_name (by decide) (List.mem_of_head? hspace)
        rw [Text.trim, Text.trim_start_blank_append hbefore, Text.trim_start_eq_self hstart,
          Text.trim_end_append_cons (by decide)]
      · have hvalue : '#' ∉ right ++ value ++ after := by
          have hblank {gap : Text} (hgap : Text.Blank gap) : '#' ∉ gap := hgap.not_mem (by decide)
          simp [hblank hright, hblank hafter, hassign.no_comment]
        have hcut : (Text.cutAt '#' (right ++ value ++ after ++ comment)).1 =
            right ++ value ++ after := by
          cases comment with
          | nil => rw [List.append_nil, Text.cut_at_eq_self hvalue]
          | cons c comment =>
              obtain rfl : c = '#' := hhead c rfl
              rw [Text.cut_at_append hvalue]
        rw [Text.trim_cut_at_trim_end (by decide), hcut,
          Text.trim_blank_append hright hassign.trimmed hafter]

/-- The text is read as the assignment, with no warning. -/
theorem parse_line_eq (h : WritesAssignment name value text) (hassign : Assignable name value)
    (hvalue : '$' ∉ value) (listing : Listing) (store : Store) :
    parseLine listing store text = ([], .ok (.assignment name value)) := by
  have hdollar : '$' ∉ Text.trim text := fun hmem =>
    h.dollar_not_mem hassign hvalue ((Text.infix_trim text).subset hmem)
  have htrim : Text.trim (Text.trim text) = Text.trim text := (Text.trimmed_trim text).trim_eq
  obtain ⟨left, rest, hleft, heq, hrest⟩ := h.exists_trim_eq hassign
  have hname : Text.trim (name ++ left) = name := by
    simpa using Text.trim_blank_append Text.blank_nil
      (.of_space_not_mem (hassign.not_mem_name (by decide))) hleft
  have hcut : Text.cutAt '=' (Text.trim text) = (name ++ left, some rest) := by
    have hequals : '=' ∉ name ++ left := by
      simp [hassign.not_mem_name (c := '=') (by decide), hleft.not_mem (c := '=') (by decide)]
    rw [heq, Text.cut_at_append hequals]
  have hassigned : parseAssignment (Text.trim text) = .ok (.assignment name value) := by
    unfold parseAssignment
    simp only [hcut, hname, hassign.is_variable_name, Option.getD_some, hrest, if_true]
    rw [if_neg (by simpa using hassign.name_ne)]
  -- The line is not blank and no comment, for it begins with the name.
  have hhead : ((Text.trim text).isEmpty || (Text.trim text).head? == some '#') = false := by
    obtain ⟨c, tail, rfl⟩ := List.exists_cons_of_ne_nil hassign.name_ne
    have hc : c ≠ '#' := fun heq => hassign.not_mem_name (c := '#') (by decide) (by simp [heq])
    simp [heq, hc]
  have hmem : (Text.trim text).contains '=' = true := by
    rw [List.contains_iff_mem, heq]
    simp
  unfold parseLine
  simp only [hhead, substitute_eq_self hdollar, parseExpanded, htrim, hmem, hassigned, if_true]
  rfl

end WritesAssignment

/-! ## Reading a reference -/

namespace Fragment

/-- The fragments of a text without `$`: one, unless it is empty. -/
def literal : Text → List Fragment
  | [] => []
  | c :: t => [text (c :: t)]

/-- A text without `$` in front of a cutting becomes its first fragment. -/
theorem cuts_literal_append {t rest : Text} {fragments : List Fragment} (ht : '$' ∉ t)
    (hrest : ∀ c ∈ rest.head?, c = '$') (h : Cuts rest fragments) :
    Cuts (t ++ rest) (literal t ++ fragments) := by
  cases t with
  | nil => exact h
  | cons c t => exact .text (List.cons_ne_nil c t) ht hrest h

/-- Literal text has no brace to leave open. -/
theorem is_whole_of_mem_literal {t : Text} {f : Fragment} (h : f ∈ literal t) : f.isWhole = true := by
  cases t with
  | nil => cases h
  | cons c t =>
      obtain rfl : f = text (c :: t) := List.mem_singleton.mp h
      rfl

end Fragment

namespace Expansion

open Fragment

/-- Literal text stands for itself. -/
theorem of_whole_literal (store : Store) (t : Text) : ofWhole store (literal t) = ⟨t, []⟩ := by
  cases t with
  | nil => rfl
  | cons c t => simp [literal, ofWhole, meaning, references, reference?, source]

/-- A reference between two texts without `$` is replaced, and the texts stay as they are. -/
theorem substitute_braced {store : Store} {name value a b : Text} (hname : '}' ∉ name)
    (hvalue : store.get? name = some value) (ha : '$' ∉ a) (hb : '$' ∉ b) :
    substitute store (a ++ ('$' :: '{' :: name ++ '}' :: b)) = .ok ⟨a ++ value ++ b, []⟩ := by
  have hend : Cuts b (literal b ++ []) := by
    simpa using cuts_literal_append hb (by simp) .nil
  have hcuts : Cuts (a ++ ('$' :: '{' :: name ++ '}' :: b))
      (literal a ++ (braced name :: (literal b ++ []))) :=
    cuts_literal_append ha (by simp) (.braced hname hend)
  have hwhole : ∀ f ∈ literal a ++ (braced name :: (literal b ++ [])), f.isWhole = true := by
    intro f hf
    simp only [List.mem_append, List.mem_cons, List.not_mem_nil, or_false] at hf
    rcases hf with hf | rfl | hf
    · exact is_whole_of_mem_literal hf
    · rfl
    · exact is_whole_of_mem_literal hf
  have hreference : ofWhole store [braced name] = ⟨value, []⟩ := by
    simp [ofWhole, meaning, references, reference?, Store.contains, hvalue]
  rw [(Means.whole hcuts hwhole).substitute_eq, List.append_nil, ← List.singleton_append,
    of_whole_append, of_whole_append, of_whole_literal, of_whole_literal, hreference]
  simp [append]

end Expansion

/-! ## There and back -/

variable {σ : Type}

/-- However an assignment is written, it is run as that assignment and changes no other variable;
and from then on a reference to its name stands for its value. -/
theorem assignment_round_trip (host : Host σ) (s : Session σ) {name value text : Text}
    (hassign : Assignable name value) (hvalue : '$' ∉ value)
    (hwrites : WritesAssignment name value text) :
    ∃ s', s.interpretLine host text = (.ok (.assigned name), s') ∧
      s' = { s with store := s'.store } ∧
      (∀ other, s'.store.get? other = if other = name then some value else s.store.get? other) ∧
      ∀ a b, '$' ∉ a → '$' ∉ b →
        substitute s'.store (a ++ ('$' :: '{' :: name ++ '}' :: b)) = .ok ⟨a ++ value ++ b, []⟩ := by
  refine ⟨{ s with store := s.store.set name value }, ?_, rfl, s.store.get?_set name value, ?_⟩
  · have hparse := hwrites.parse_line_eq hassign hvalue (s.listing host) s.store
    simp [Session.interpretLine, hparse, Session.writeAll]
  · intro a b ha hb
    have hget : (s.store.set name value).get? name = some value := by
      rw [Store.get?_set, if_pos rfl]
    exact Expansion.substitute_braced (hassign.not_mem_name (by decide)) hget ha hb

/-- Operators, a second `=` and a tab stand in a value as they are, and a comment may
hold anything but `$`. -/
theorem assignment_round_trip_with_operators :
    let name : Text := ['N', '_']
    let value : Text := ['=', 'a', ' ', '|', '<', '>', '\t']
    let text : Text := [' ', 'N', '_', ' ', '=', ' ', ' '] ++ value ++ [' ', '#', '=', '#', ' ']
    let host := World.host []
    let s : Session World :=
      ⟨.ofList [(['M'], ['m']), (name, ['n'])], .text, none, ⟨World.firstTable none, [], 0⟩,
        World.start .empty .empty, []⟩
    (Assignable name value ∧ '$' ∉ value ∧ WritesAssignment name value text) ∧
    ∃ s', s.interpretLine host text = (.ok (.assigned name), s') ∧
      s' = { s with store := s'.store } ∧
      (∀ other, s'.store.get? other = if other = name then some value else s.store.get? other) ∧
      ∀ a b, '$' ∉ a → '$' ∉ b →
        substitute s'.store (a ++ ('$' :: '{' :: name ++ '}' :: b)) = .ok ⟨a ++ value ++ b, []⟩ := by
  intro name value text host s
  have hassign : Assignable name value := ⟨by decide, by simp [name], by decide, by decide⟩
  have hvalue : '$' ∉ value := by decide
  have hwrites : WritesAssignment name value text :=
    @WritesAssignment.intro name value [' '] [' '] [' ', ' '] [' '] ['#', '=', '#', ' ']
      (by decide) (by decide) (by decide) (by decide) (by simp) (by decide)
  exact ⟨⟨hassign, hvalue, hwrites⟩, assignment_round_trip host s hassign hvalue hwrites⟩

end LineShell
