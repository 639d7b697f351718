import LineShell.Proofs.LineReading
import LineShell.Proofs.SubstitutionMeaning

/-!
# Lines read as their expansions

The references of a line are replaced before anything else in it is looked at. So what a value holds
is read as if it stood in the line: it may bring in a `|`, a redirection, a comment or a `=`, or
nothing at all, and the line is read as if its expansion was typed (`read_expansion`). All that
shows of the references is a warning for each that has no value.

What is typed is looked at once more at its start, where a `#` makes it a comment. An expansion that
begins with `#` is a comment as well, but with a `=` in it, it is an assignment before it can be a
comment. This is the one case in which the two readings differ.
-/

namespace LineShell

variable {listing : Listing} {store : Store} {path : Option Text} {line : Text}
  {expansion : Expansion}

/-! ## Expanded lines -/

/-- An expanded line that begins with `#` is a comment, unless there is a `=` in it. -/
theorem parse_expanded_of_comment (hhead : line.head? = some '#') (hequals : '=' ∉ line) :
    parseExpanded listing path line = ([], .ok .empty) := by
  obtain ⟨rest, rfl⟩ : ∃ rest, line = '#' :: rest := by
    cases line with
    | nil => cases hhead
    | cons c rest => exact ⟨rest, by rw [Option.some.inj hhead]⟩
  have hnone : stripComment ('#' :: rest) = [] := rfl
  rw [parse_expanded_of_no_equals hequals, hnone]
  exact if_pos rfl

/-- A line with a `=` in it is not blank. -/
theorem parse_assignment_ne_empty (line : Text) : parseAssignment line ≠ .ok .empty := by
  unfold parseAssignment
  dsimp only
  split
  · exact nofun
  · split
    · exact nofun
    · exact nofun

/-! ## Lines -/

/-- A line is read by way of its expansion, unless it is a comment. A blank line, which is not
expanded, is no exception, as its expansion is blank. -/
theorem parse_line_eq_parse_expanded (hcomment : (Text.trim line).head? ≠ some '#')
    (hline : substitute store (Text.trim line) = .ok expansion) :
    parseLine listing store line =
      (expansion.unresolved.map .unknownVariable ++
          (parseExpanded listing store.path? (Text.trim expansion.line)).1,
        (parseExpanded listing store.path? (Text.trim expansion.line)).2) := by
  by_cases hblank : Text.trim line = []
  · rw [hblank, substitute_eq_self List.not_mem_nil] at hline
    cases hline
    exact parse_line_blank (.inl hblank)
  · rw [parse_line_eq_of_substitute hblank hcomment, hline]

/-- A line without references is read as it stands. -/
theorem parse_line_of_no_reference (hcomment : (Text.trim line).head? ≠ some '#')
    (hdollar : '$' ∉ line) :
    parseLine listing store line = parseExpanded listing store.path? (Text.trim line) := by
  have hnone : '$' ∉ Text.trim line := fun hmem => hdollar ((Text.mem_trim_iff (by decide)).mp hmem)
  rw [parse_line_eq_parse_expanded hcomment (substitute_eq_self hnone store),
    (Text.trimmed_trim line).trim_eq]
  rfl

/-- A typed line without references is read as an expanded one exactly if it is no comment with
a `=` in it. -/
theorem parse_line_eq_parse_expanded_iff (listing : Listing) (store : Store) (hdollar : '$' ∉ line) :
    parseLine listing store line = parseExpanded listing store.path? (Text.trim line) ↔
      ¬ ((Text.trim line).head? = some '#' ∧ '=' ∈ line) := by
  by_cases hcomment : (Text.trim line).head? = some '#'
  · rw [parse_line_blank (.inr hcomment)]
    by_cases hequals : '=' ∈ line
    · have hassign : '=' ∈ Text.trim line := (Text.mem_trim_iff (by decide)).mpr hequals
      rw [parse_expanded_of_equals hassign]
      constructor
      · intro heq
        exact absurd (congrArg Prod.snd heq).symm (parse_assignment_ne_empty _)
      · intro hnone
        exact absurd ⟨hcomment, hequals⟩ hnone
    · have hassign : '=' ∉ Text.trim line := fun hmem =>
        hequals ((Text.mem_trim_iff (by decide)).mp hmem)
      rw [parse_expanded_of_comment hcomment hassign]
      simp [hequals]
  · rw [parse_line_of_no_reference hcomment hdollar]
    simp [hcomment]

/-- A line that expands to a text without `$` is read as if that text was typed: the result is the
same, and so are the warnings, which come after one for each reference without a value. The two
readings differ only if the text is a comment with a `=` in it; and there they do. -/
theorem read_expansion (hcomment : (Text.trim line).head? ≠ some '#')
    (hline : substitute store (Text.trim line) = .ok expansion) (hdollar : '$' ∉ expansion.line)
    (listing : Listing) (reader : LineReader) :
    ¬ ((Text.trim expansion.line).head? = some '#' ∧ '=' ∈ expansion.line) ↔
      let typed := LineReader.read {} listing store expansion.line
      reader.read listing store line = (typed.1,
        ⟨reader.warnings ++ (expansion.unresolved.map .unknownVariable ++ typed.2.warnings)⟩) := by
  rw [← parse_line_eq_parse_expanded_iff listing store hdollar]
  simp only [LineReader.read, parse_line_eq_parse_expanded hcomment hline]
  generalize parseLine listing store expansion.line = typed
  generalize parseExpanded listing store.path? (Text.trim expansion.line) = expanded
  obtain ⟨warnings, result⟩ := typed
  obtain ⟨warnings', result'⟩ := expanded
  simp [eq_comm, and_comm]

/-- The value of `A` brings in a redirection, a second segment and a comment, in which what
follows the reference ends up; `U` has no value, and the directory that is missing is warned
about for each segment. -/
theorem read_expansion_with_operators :
    let store := Store.ofList [(['P', 'A', 'T', 'H'], ['/', 'x', ':', '/', 'd']),
      (['A'], ['>', 'f', ' ', '|', ' ', 'c', ' ', '#'])]
    let listing : Listing := fun directory =>
      if directory = ['/', 'd'] then .ok [.text ['c']] else .error (.system .noEntry)
    let reader : LineReader := ⟨[.unknownVariable ['V']]⟩
    let missing : Warning := .skippedEntry ⟨['/', 'x'], .system .noEntry⟩
    let line : Text := [' ', '$', '{', 'U', '}', 'c', ' ', '$', 'A', '<']
    let expansion : Expansion := ⟨['c', ' ', '>', 'f', ' ', '|', ' ', 'c', ' ', '#', '<'], [['U']]⟩
    ((Text.trim line).head? ≠ some '#' ∧ substitute store (Text.trim line) = .ok expansion ∧
      '$' ∉ expansion.line) ∧
    reader.read listing store line =
      (.ok (.pipeline ⟨[⟨.external ['/', 'd', '/', 'c'], [['c']], ⟨none, some ['f'], false⟩⟩,
          ⟨.external ['/', 'd', '/', 'c'], [['c']], {}⟩]⟩),
        ⟨[.unknownVariable ['V'], .unknownVariable ['U'], missing, missing]⟩) := by
  intro store listing reader missing line expansion
  have hcomment : (Text.trim line).head? ≠ some '#' := by decide
  have hline : substitute store (Text.trim line) = .ok expansion := by decide +kernel
  have hdollar : '$' ∉ expansion.line := by decide
  have hplain : ¬ ((Text.trim expansion.line).head? = some '#' ∧ '=' ∈ expansion.line) := by decide
  have htyped : parseLine listing store expansion.line = ([missing, missing],
      .ok (.pipeline ⟨[⟨.external ['/', 'd', '/', 'c'], [['c']], ⟨none, some ['f'], false⟩⟩,
        ⟨.external ['/', 'd', '/', 'c'], [['c']], {}⟩]⟩)) := by
    decide +kernel
  refine ⟨⟨hcomment, hline, hdollar⟩, ?_⟩
  rw [(read_expansion hcomment hline hdollar listing reader).mp hplain, LineReader.read, htyped]
  rfl

/-- A comment with a `=` in it says nothing where it is typed, and assigns to no name where a value
brings its `#` in. -/
example :
    let store := Store.ofList [(['H'], [' ', '#'])]
    let listing : Listing := fun _ => .error (.system .noEntry)
    substitute store ['$', '{', 'H', '}', 'a', '='] = .ok ⟨[' ', '#', 'a', '='], []⟩ ∧
      parseLine listing store [' ', '#', 'a', '='] = ([], .ok .empty) ∧
      parseLine listing store ['$', '{', 'H', '}', 'a', '='] =
        ([], .error (.invalidVariableName ['#', 'a'])) := by
  decide +kernel

end LineShell
