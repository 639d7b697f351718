import LineShell.Proofs.SubstitutionMeaning

/-!
# Texts behind a line

What becomes of the expansion of a line when more text follows it. A line can be continued where its
last fragment cannot grow: what follows begins neither with a character of a name nor with `{`, and
no brace is open. Then each part keeps its fragments, but for literal text on both sides of the
place where they meet, which is one fragment of the whole (`Fragment.Cuts.join`). As literal text
means itself, that makes no difference to what the parts mean (`Expansion.of_whole_join`).

So the text behind comes to what it comes to alone, after the expansion of the line in front of it
(`Expansion.followedBy`): if it expands, its expansion goes behind that of the line, and if a brace
in it is not closed, that brace has the bytes of the line before it (`substitute_distributes`).
-/

namespace LineShell

namespace Fragment

/-- Fragments and those behind them. Where literal text meets literal text there is one fragment. -/
def join : List Fragment → List Fragment → List Fragment
  | [], more => more
  | [text content], text next :: more => text (content ++ next) :: more
  | f :: fragments, more => f :: join fragments more

/-- What comes next does not make the last fragment of a line longer. -/
def Continues (next : Text) : Prop :=
  ∀ c ∈ next.head?, isNameChar c = false ∧ c ≠ '{'

/-- A text that can follow any other still can with more behind it. -/
theorem Continues.append {rest next : Text} (hrest : Continues rest) (hnext : Continues next) :
    Continues (rest ++ next) := by
  cases rest with
  | nil => exact hnext
  | cons c rest => exact hrest

/-- A `$` ends whatever comes before it. -/
theorem Continues.of_dollar {next : Text} (h : next.head? = some '$') : Continues next := by
  intro c hc
  obtain rfl : '$' = c := Option.some.inj (h.symm.trans hc)
  decide

variable {a b : Text} {fragments more : List Fragment}

/-- Literal text at the end of a line is joined with what follows. -/
theorem Cuts.join_text {content : Text} (hne : content ≠ []) (hcontent : '$' ∉ content)
    (hmore : Cuts b more) : Cuts (content ++ b) (Fragment.join [Fragment.text content] more) := by
  cases hmore with
  | nil => exact .text hne hcontent (by simp) .nil
  | @text next rest more _ hnext hrest hmore =>
      have hboth : '$' ∉ content ++ next := by simp [hcontent, hnext]
      rw [← List.append_assoc]
      exact .text (List.append_ne_nil_of_left_ne_nil hne next) hboth hrest hmore
  | lone hrest hmore => exact .text hne hcontent (by simp) (.lone hrest hmore)
  | bare hname hrest hmore => exact .text hne hcontent (by simp) (.bare hname hrest hmore)
  | braced hname hmore => exact .text hne hcontent (by simp) (.braced hname hmore)
  | unterminated hrest => exact .text hne hcontent (by simp) (.unterminated hrest)

/-- A line of whole fragments and what continues it are cut one after the other. -/
theorem Cuts.join (ha : Cuts a fragments) (hwhole : ∀ f ∈ fragments, f.isWhole = true)
    (hb : Continues b) (hmore : Cuts b more) : Cuts (a ++ b) (Fragment.join fragments more) := by
  induction ha with
  | nil => exact hmore
  | @text content rest fragments hne hcontent hrest hcuts ih =>
      have hlater := ih (List.forall_mem_cons.mp hwhole).2
      cases rest with
      | nil =>
          obtain rfl : fragments = [] := by rw [hcuts.eq_cut, cut]
          rw [List.append_nil]
          exact .join_text hne hcontent hmore
      | cons c rest =>
          -- Something else comes between the text and the place where the two meet.
          obtain ⟨g, fragments, rfl⟩ : ∃ g fragments', fragments = g :: fragments' := by
            rw [hcuts.eq_cut, cut]
            exact ⟨_, _, rfl⟩
          rw [List.append_assoc, Fragment.join]
          · exact .text hne hcontent hrest hlater
          · simp
  | @lone rest fragments hrest _ ih =>
      rw [List.cons_append, Fragment.join]
      · exact .lone (Continues.append hrest hb) (ih (List.forall_mem_cons.mp hwhole).2)
      · simp
  | @bare name rest fragments hname hrest _ ih =>
      have hstop : ∀ c ∈ (rest ++ b).head?, isNameChar c = false := by
        cases rest with
        | nil => exact fun c hc => (hb c hc).1
        | cons c rest => exact hrest
      rw [List.append_assoc, Fragment.join]
      · exact .bare hname hstop (ih (List.forall_mem_cons.mp hwhole).2)
      · simp
  | @braced name rest fragments hname _ ih =>
      rw [List.append_assoc, List.cons_append, Fragment.join]
      · exact .braced hname (ih (List.forall_mem_cons.mp hwhole).2)
      · simp
  | unterminated _ => cases hwhole _ List.mem_cons_self

/-- Joining fragments keeps what they are written as. -/
theorem sources_join (fragments more : List Fragment) :
    sources (join fragments more) = sources fragments ++ sources more := by
  induction fragments, more using join.induct with
  | case1 more => rfl
  | case2 content next more => simp [join, source]
  | case3 f fragments more hne ih =>
      rw [join, sources_cons, ih, sources_cons, List.append_assoc]
      exact hne

/-- A brace that is not closed stays a fragment of its own. -/
theorem join_append_unterminated (fragments before : List Fragment) (rest : Text) :
    join fragments (before ++ [unterminated rest]) =
      join fragments before ++ [unterminated rest] := by
  induction fragments, before using join.induct with
  | case1 before => rfl
  | case2 content next before => rfl
  | case3 f fragments before hne ih =>
      rw [join, join, ih, List.cons_append]
      · exact hne
      · -- The unterminated brace is no text, so it is behind one if one comes first.
        intro content next more hbefore hf hfragments
        cases before with
        | nil => cases hbefore
        | cons g before =>
            obtain rfl : g = text next := (List.cons.inj hbefore).1
            exact hne content next before rfl hf hfragments

end Fragment

namespace Expansion

open Fragment

variable {fragments more : List Fragment}

/-- The meaning of fragments is that of the first and that of the rest. -/
theorem of_whole_cons (store : Store) (f : Fragment) (fragments : List Fragment) :
    ofWhole store (f :: fragments) = (ofWhole store [f]).append (ofWhole store fragments) :=
  of_whole_append store [f] fragments

/-- Text stands for itself. -/
theorem of_whole_text (store : Store) (content : Text) :
    ofWhole store [text content] = ⟨content, []⟩ := by
  simp [ofWhole, meaning, references, reference?, source]

/-- Expansions can be put together in any grouping. -/
theorem append_assoc (a b c : Expansion) : (a.append b).append c = a.append (b.append c) := by
  simp [append]

/-- Joined fragments mean what the parts mean, one after the other. -/
theorem of_whole_join (store : Store) (fragments more : List Fragment) :
    ofWhole store (join fragments more) = (ofWhole store fragments).append (ofWhole store more) := by
  induction fragments, more using join.induct with
  | case1 more => rfl
  | case2 content next more =>
      have htext : ofWhole store [text (content ++ next)] =
          (ofWhole store [text content]).append (ofWhole store [text next]) := by
        simp only [of_whole_text, append, List.append_nil]
      rw [join, of_whole_cons, htext, append_assoc, ← of_whole_cons]
  | case3 f fragments more hne ih =>
      rw [join, of_whole_cons, ih, of_whole_cons store f fragments, append_assoc]
      exact hne

/-- Joining whole fragments leaves no brace open. -/
theorem whole_join (h : ∀ f ∈ fragments, f.isWhole = true) (hmore : ∀ f ∈ more, f.isWhole = true) :
    ∀ f ∈ join fragments more, f.isWhole = true := by
  induction fragments, more using join.induct with
  | case1 more => exact hmore
  | case2 content next more =>
      rw [join]
      exact List.forall_mem_cons.mpr ⟨rfl, (List.forall_mem_cons.mp hmore).2⟩
  | case3 f fragments more hne ih =>
      obtain ⟨hf, hfragments⟩ := List.forall_mem_cons.mp h
      rw [join]
      · exact List.forall_mem_cons.mpr ⟨hf, ih hfragments hmore⟩
      · exact hne

/-! ## What a text behind comes to -/

/-- What a line comes to whose first `position` bytes give the expansion, by what the rest of
it comes to alone. -/
def followedBy (expansion : Expansion) (position : Nat) :
    Except UnterminatedBrace Expansion → Except UnterminatedBrace Expansion
  | .ok following => .ok (expansion.append following)
  | .error cause => .error ⟨position + cause.position, cause.rest⟩

/-- An expansion is in front of a result only if there is one, and comes first in it. -/
theorem followed_by_eq_ok_iff {expansion whole : Expansion} {position : Nat}
    {result : Except UnterminatedBrace Expansion} :
    expansion.followedBy position result = .ok whole ↔
      ∃ following, result = .ok following ∧ whole = expansion.append following := by
  cases result with
  | ok following => simp [followedBy, eq_comm]
  | error cause => simp [followedBy]

/-- An expansion in front of an error moves its place. -/
theorem followed_by_eq_error_iff {expansion : Expansion} {position : Nat} {e : UnterminatedBrace}
    {result : Except UnterminatedBrace Expansion} :
    expansion.followedBy position result = .error e ↔
      ∃ cause, result = .error cause ∧ e = ⟨position + cause.position, cause.rest⟩ := by
  cases result with
  | ok following => simp [followedBy]
  | error cause => simp [followedBy, eq_comm]

/-- If fragments are joined with those of a text behind them, the text comes to what it comes to
alone. -/
theorem substitute_append_of_join {store : Store} {a b : Text}
    (hwhole : ∀ f ∈ fragments, f.isWhole = true) (hsources : sources fragments = a)
    (hjoin : ∀ more, Cuts b more → Cuts (a ++ b) (join fragments more)) :
    substitute store (a ++ b) =
      (ofWhole store fragments).followedBy (Text.byteLength a) (substitute store b) := by
  have hmeans := means_substitute store b
  generalize substitute store b = result at hmeans ⊢
  cases hmeans with
  | whole hcuts hmore =>
      rw [(Means.whole (hjoin _ hcuts) (whole_join hwhole hmore)).substitute_eq, of_whole_join]
      rfl
  | @unterminated before rest hcuts =>
      have hcuts' := hjoin _ hcuts
      rw [join_append_unterminated] at hcuts'
      rw [(Means.unterminated hcuts').substitute_eq, sources_join, hsources, Text.byte_length_append]
      rfl

end Expansion

section

variable {store : Store} {line next : Text} {expansion following : Expansion}

/-- A line and what continues it are expanded one after the other. -/
theorem substitute_append_eq (hline : substitute store line = .ok expansion)
    (hcontinues : Fragment.Continues next) :
    substitute store (line ++ next) =
      expansion.followedBy (Text.byteLength line) (substitute store next) := by
  have hmeans := Expansion.means_substitute store line
  rw [hline] at hmeans
  cases hmeans with
  | whole hcuts hwhole =>
      exact Expansion.substitute_append_of_join hwhole hcuts.sources_eq
        fun _ hmore => hcuts.join hwhole hcontinues hmore

/-- Two texts that expand do so together, the one behind the other. -/
theorem substitute_append (hline : substitute store line = .ok expansion)
    (hcontinues : Fragment.Continues next) (hnext : substitute store next = .ok following) :
    substitute store (line ++ next) = .ok (expansion.append following) := by
  rw [substitute_append_eq hline hcontinues, hnext]
  rfl

/-- Substitution distributes over a line and what continues it. The whole expands exactly if what
continues the line does, and then to both expansions, one after the other; and otherwise it fails by
the same brace, with the bytes of the line before it. -/
theorem substitute_distributes (hline : substitute store line = .ok expansion)
    (hcontinues : Fragment.Continues next) :
    (∀ whole, substitute store (line ++ next) = .ok whole ↔
      ∃ following, substitute store next = .ok following ∧
        whole = ⟨expansion.line ++ following.line,
          expansion.unresolved ++ following.unresolved⟩) ∧
    ∀ e, substitute store (line ++ next) = .error e ↔
      ∃ cause, substitute store next = .error cause ∧
        e = ⟨Text.byteLength line + cause.position, cause.rest⟩ := by
  rw [substitute_append_eq hline hcontinues]
  exact ⟨fun whole => Expansion.followed_by_eq_ok_iff, fun e => Expansion.followed_by_eq_error_iff⟩

/-- A line with a `$` in a value and in a braced name, and a lone one at its end. Behind it stands
once a text that expands, and once one that begins with a `}` and in which a brace is not closed. -/
theorem substitute_distributes_behind_lone_dollar :
    let store := Store.ofList [(['A'], ['$', 'B'])]
    let line : Text := ['é', '$', 'A', '$', '{', 'U', '$', '}', '$']
    let next : Text := ['.', '$', 'V', '-', '$', 'A']
    let next' : Text := ['}', '$', 'A', '$', '{', 'U']
    (substitute store line = .ok ⟨['é', '$', 'B', '$'], [['U', '$']]⟩ ∧
      Fragment.Continues next ∧ Fragment.Continues next') ∧
    substitute store (line ++ next) =
      .ok ⟨['é', '$', 'B', '$', '.', '-', '$', 'B'], [['U', '$'], ['V']]⟩ ∧
    substitute store (line ++ next') = .error ⟨13, ['$', '{', 'U']⟩ := by
  intro store line next next'
  have hline : substitute store line = .ok ⟨['é', '$', 'B', '$'], [['U', '$']]⟩ := by
    decide +kernel
  have hcontinues : Fragment.Continues next := by
    intro c hc
    obtain rfl : '.' = c := Option.some.inj hc
    decide
  have hcontinues' : Fragment.Continues next' := by
    intro c hc
    obtain rfl : '}' = c := Option.some.inj hc
    decide
  have hnext : substitute store next = .ok ⟨['.', '-', '$', 'B'], [['V']]⟩ := by decide +kernel
  have hnext' : substitute store next' = .error ⟨3, ['$', '{', 'U']⟩ := by decide +kernel
  exact ⟨⟨hline, hcontinues, hcontinues'⟩,
    ((substitute_distributes hline hcontinues).1 _).mpr ⟨_, hnext, rfl⟩,
    ((substitute_distributes hline hcontinues').2 _).mpr ⟨_, hnext', rfl⟩⟩

end

end LineShell
