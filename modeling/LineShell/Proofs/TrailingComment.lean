import LineShell.Proofs.AssignmentRoundTrip
import LineShell.Proofs.LineReading
import LineShell.Proofs.SubstitutionAppend

/-!
# Comments behind a line

A comment may stand behind any line. It is taken off in one of three ways: a line that is nothing
but a comment is blank, the value of an assignment ends at its first `#`, and a pipeline ends at a
`#` that follows a space. `read_trailing_comment` shows that in each of them the line is read as if
the comment was not there, with the same warnings, whatever the line expands to.

`Commented` relates a text to itself with a comment behind it. It is kept by trimming and by
expansion (`Commented.trim`, `Commented.exists_substitute`), so it is enough to look at expanded
lines (`Commented.parse_expanded_eq`). A comment may hold anything but `$`, which would be expanded,
and `=`, which would make the line an assignment.
-/

namespace LineShell

/-- The second text is the first with a comment behind it, which a space comes before unless
there is nothing else. -/
inductive Commented (t : Text) : Text → Prop where
  | intro {gap comment : Text} : Text.Blank gap → (t = [] ∨ gap ≠ []) → '$' ∉ comment →
      '=' ∉ comment → Commented t (t ++ (gap ++ '#' :: comment))

/-! ## Where a comment begins -/

/-- A comment that is in a line already takes what follows along. -/
theorem drop_comment_append {afterSpace : Bool} {line : Text}
    (h : dropComment afterSpace line ≠ line) (more : Text) :
    dropComment afterSpace (line ++ more) = dropComment afterSpace line := by
  induction line generalizing afterSpace with
  | nil => exact absurd rfl h
  | cons c line ih =>
      rw [List.cons_append, dropComment, dropComment]
      split
      · rfl
      · rename_i hc
        rw [dropComment, if_neg hc] at h
        rw [ih fun heq => h (congrArg (c :: ·) heq)]

/-- A `#` behind a text without a comment begins one if the text ends in a space. -/
theorem drop_comment_append_hash {afterSpace : Bool} {line : Text}
    (h : dropComment afterSpace line = line)
    (hend : line.getLast?.elim afterSpace (· == ' ') = true) (comment : Text) :
    dropComment afterSpace (line ++ '#' :: comment) = line := by
  induction line generalizing afterSpace with
  | nil =>
      obtain rfl : afterSpace = true := hend
      rfl
  | cons c line ih =>
      rw [dropComment] at h
      split at h
      · cases h
      · rename_i hc
        rw [List.cons_append, dropComment, if_neg hc, ih (List.cons.inj h).2]
        cases line with
        | nil => exact hend
        | cons d line => rwa [List.getLast?_cons_cons] at hend

namespace Commented

variable {t t' : Text}

/-- A comment behind a line, after a space. -/
theorem of_line {comment : Text} (line : Text) (hdollar : '$' ∉ comment) (hequals : '=' ∉ comment) :
    Commented line (line ++ ' ' :: '#' :: comment) :=
  @intro line [' '] comment (by decide) (.inr (List.cons_ne_nil _ _)) hdollar hequals

/-- Trimming leaves a comment behind the trimmed text. -/
theorem trim (h : Commented t t') : Commented (Text.trim t) (Text.trim t') := by
  cases h with
  | @intro gap comment hgap hspace hdollar hequals =>
      obtain ⟨before, after, hbefore, hafter, heq⟩ := Text.exists_blank_trim t
      obtain ⟨trail, htrail, hcomment⟩ := Text.exists_blank_trim_end comment
      have hcore := Text.trimmed_trim t
      have hsub {c : Char} (hc : c ∉ comment) : c ∉ Text.trimEnd comment := fun hmem =>
        hc (by rw [hcomment]; exact List.mem_append_left _ hmem)
      have hhash : Text.Trimmed ('#' :: Text.trimEnd comment) := by
        have hend : Text.trimEnd ('#' :: comment) = '#' :: Text.trimEnd comment :=
          Text.trim_end_append_cons (by decide) [] comment
        exact ⟨by simp, hend ▸ Text.get_last?_trim_end _⟩
      generalize Text.trim t = core at heq hcore ⊢
      generalize Text.trimEnd comment = kept at *
      subst hcomment
      by_cases hnil : core = []
      · -- There is nothing but spaces before the `#`, and these go.
        have hlead := (hbefore.append hafter).append hgap
        have htext : t ++ (gap ++ '#' :: (kept ++ trail)) =
            (before ++ after ++ gap) ++ ('#' :: kept) ++ trail := by
          simp [heq, hnil]
        rw [htext, Text.trim_blank_append hlead hhash htrail, hnil]
        exact .intro Text.blank_nil (.inl rfl) (hsub hdollar) (hsub hequals)
      · have htext : t ++ (gap ++ '#' :: (kept ++ trail)) =
            before ++ (core ++ ((after ++ gap) ++ '#' :: kept)) ++ trail := by
          simp [heq]
        have hsome : gap ≠ [] := hspace.resolve_left fun hblank => hnil <| by
          rw [hblank] at heq
          simp_all
        rw [htext, Text.trim_blank_append hbefore
          (hcore.append_append hnil (List.cons_ne_nil _ _) hhash (after ++ gap)) htrail]
        exact .intro (hafter.append hgap) (.inr (List.append_ne_nil_of_right_ne_nil _ hsome))
          (hsub hdollar) (hsub hequals)

/-- A text that expands does so with a comment behind it, and the comment stays where it is. -/
theorem exists_substitute {store : Store} {expansion : Expansion} (h : Commented t t')
    (ht : substitute store t = .ok expansion) : ∃ expansion', substitute store t' = .ok expansion' ∧
      expansion'.unresolved = expansion.unresolved ∧ Commented expansion.line expansion'.line := by
  cases h with
  | @intro gap comment hgap hspace hdollar hequals =>
      have hnext : '$' ∉ gap ++ '#' :: comment := by
        simp [hgap.not_mem (c := '$') (by decide), hdollar]
      have hcontinues : Fragment.Continues (gap ++ '#' :: comment) := by
        refine Fragment.Continues.append (fun c hc => ?_) (fun c hc => ?_)
        · rw [hgap c (List.mem_of_head? hc)]
          decide
        · obtain rfl : '#' = c := Option.some.inj hc
          decide
      refine ⟨_, substitute_append ht hcontinues (substitute_eq_self hnext store),
        List.append_nil _, .intro hgap ?_ hdollar hequals⟩
      refine hspace.imp_left fun hnil => ?_
      rw [hnil, substitute_eq_self (by simp)] at ht
      cases ht
      rfl

/-! ## Expanded lines -/

/-- A comment without `=` does not make a line an assignment. -/
theorem mem_equals_iff (h : Commented t t') : '=' ∈ t' ↔ '=' ∈ t := by
  cases h with
  | intro hgap _ _ hequals => simp [hgap.not_mem (c := '=') (by decide), hequals]

/-- The value of an assignment ends before its comment. -/
theorem parse_assignment_eq (h : Commented t t') (hmem : '=' ∈ t) :
    parseAssignment t' = parseAssignment t := by
  cases h with
  | @intro gap comment hgap _ _ _ =>
      obtain ⟨before, after, rfl, hbefore⟩ := List.eq_append_cons_of_mem hmem
      have hvalue : Text.trim (Text.cutAt '#' (after ++ (gap ++ '#' :: comment))).1 =
          Text.trim (Text.cutAt '#' after).1 := by
        by_cases hhash : '#' ∈ after
        · obtain ⟨value, rest, rfl, hvalue⟩ := List.eq_append_cons_of_mem hhash
          rw [List.append_assoc, List.cons_append, Text.cut_at_append hvalue,
            Text.cut_at_append hvalue]
        · have hgap' : '#' ∉ after ++ gap := by
            simp [hhash, hgap.not_mem (c := '#') (by decide)]
          rw [← List.append_assoc, Text.cut_at_append hgap', Text.cut_at_eq_self hhash]
          simpa using Text.trim_append_blank Text.blank_nil after hgap
      unfold parseAssignment
      rw [List.append_assoc, List.cons_append, Text.cut_at_append hbefore,
        Text.cut_at_append hbefore]
      simp only [Option.getD_some, hvalue]

/-- A pipeline ends before its comment. -/
theorem trim_strip_comment (h : Commented t t') :
    Text.trim (stripComment t') = Text.trim (stripComment t) := by
  cases h with
  | @intro gap comment hgap hspace _ _ =>
      by_cases hfree : stripComment t = t
      · have hgapped : CommentFree (t ++ gap) :=
          (hfree ▸ comment_free_strip_comment t).append (.blank hgap)
        have hend : (t ++ gap).getLast?.elim true (· == ' ') = true := by
          rcases List.eq_nil_or_concat gap with rfl | ⟨earlier, c, rfl⟩
          · obtain rfl : t = [] := hspace.resolve_right (fun hne => hne rfl)
            rfl
          · obtain rfl : c = ' ' := hgap c (by simp)
            simp
        rw [← List.append_assoc, stripComment, drop_comment_append_hash hgapped.strip_comment_eq hend,
          hfree]
        simpa using Text.trim_append_blank Text.blank_nil t hgap
      · rw [stripComment, drop_comment_append hfree]
        rfl

/-- An expanded line is read as if no comment was behind it. -/
theorem parse_expanded_eq (h : Commented t t') (listing : Listing) (path : Option Text) :
    parseExpanded listing path t' = parseExpanded listing path t := by
  by_cases hmem : '=' ∈ t
  · rw [parse_expanded_of_equals hmem, parse_expanded_of_equals (h.mem_equals_iff.mpr hmem),
      h.parse_assignment_eq hmem]
  · have hmem' : '=' ∉ t' := fun hc => hmem (h.mem_equals_iff.mp hc)
    rw [parse_expanded_of_no_equals hmem, parse_expanded_of_no_equals hmem', h.trim_strip_comment]

/-! ## Lines -/

/-- Whether a trimmed line is blank or nothing but a comment is the same with a comment behind it: a
line with nothing in it becomes a comment. -/
theorem is_empty_or_head?_eq (h : Commented t t') (ht' : Text.Trimmed t') :
    (t'.isEmpty || t'.head? == some '#') = (t.isEmpty || t.head? == some '#') := by
  cases h with
  | @intro gap comment hgap _ _ _ =>
      cases t with
      | nil =>
          cases gap with
          | nil => rfl
          | cons c gap =>
              obtain rfl : c = ' ' := hgap c List.mem_cons_self
              exact absurd rfl ht'.head
      | cons c t => rfl

/-- A line that expands is read as if no comment was behind it. -/
theorem parse_line_eq {store : Store} {expansion : Expansion} (h : Commented t t')
    (ht : substitute store (Text.trim t) = .ok expansion) (listing : Listing) :
    parseLine listing store t' = parseLine listing store t := by
  obtain ⟨expansion', ht', hunresolved, hline⟩ := h.trim.exists_substitute ht
  unfold parseLine
  simp only [h.trim.is_empty_or_head?_eq (Text.trimmed_trim t'), ht, ht', hunresolved,
    hline.trim.parse_expanded_eq]

end Commented

/-- A comment behind a line that expands changes neither what the line says nor the warnings about
it, whatever kind of line it is and whether or not it can be read. -/
theorem read_trailing_comment {store : Store} {line comment : Text} {expansion : Expansion}
    (hline : substitute store (Text.trim line) = .ok expansion) (hdollar : '$' ∉ comment)
    (hequals : '=' ∉ comment) (listing : Listing) (reader : LineReader) :
    reader.read listing store (line ++ ' ' :: '#' :: comment) = reader.read listing store line := by
  rw [LineReader.read, LineReader.read,
    (Commented.of_line line hdollar hequals).parse_line_eq hline]

/-- The line expands to `c a#b |`, where nothing follows the `|`. The comment behind it may hold
operators and further `#`, and the unknown `U` is warned about once. -/
theorem read_trailing_comment_behind_failing_line :
    let store := Store.ofList [(['P', 'A', 'T', 'H'], ['/', 'd']), (['A'], ['c', ' ', 'a', '#'])]
    let line : Text := [' ', '$', '{', 'A', '}', 'b', ' ', '|', '$', 'U', ' ']
    let comment : Text := ['|', '#', '<', ' ', '#', '}', ' ']
    let listing : Listing := fun directory =>
      if directory = ['/', 'd'] then .ok [.text ['c']] else .error (.system .noEntry)
    let reader : LineReader := ⟨[.unknownVariable ['V']]⟩
    (substitute store (Text.trim line) = .ok ⟨['c', ' ', 'a', '#', 'b', ' ', '|'], [['U']]⟩ ∧
      '$' ∉ comment ∧ '=' ∉ comment) ∧
    reader.read listing store (line ++ ' ' :: '#' :: comment) = reader.read listing store line ∧
    reader.read listing store line =
      (.error (.emptyCommand 2), ⟨[.unknownVariable ['V'], .unknownVariable ['U']]⟩) := by
  intro store line comment listing reader
  have hline : substitute store (Text.trim line) =
      .ok ⟨['c', ' ', 'a', '#', 'b', ' ', '|'], [['U']]⟩ := by
    decide +kernel
  have hdollar : '$' ∉ comment := by decide
  have hequals : '=' ∉ comment := by decide
  have hparse : parseLine listing store line =
      ([.unknownVariable ['U']], .error (.emptyCommand 2)) := by
    decide +kernel
  refine ⟨⟨hline, hdollar, hequals⟩,
    read_trailing_comment hline hdollar hequals listing reader, ?_⟩
  simp only [LineReader.read, hparse]
  rfl

end LineShell
