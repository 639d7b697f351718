import LineShell.Fragment
import LineShell.Proofs.TextCuts

/-!
# What the fragments of a line are

`Fragment.Cuts` says what it is for a line to be cut into fragments, without saying how they are
found: from left to right, with literal text and names as long as they can be, and a braced name up
to the next `}`. Every line is cut in exactly one way, and `Fragment.cut` finds it (`cuts_cut`,
`Cuts.eq_cut`). So a fact about the fragments of a line is proved by induction on `Cuts`, one case
for each kind of fragment, and not on the scanning of the line.
-/

namespace LineShell

/-- Only name characters stand in a name. -/
theorem not_mem_of_is_variable_name {name : Text} {c : Char} (h : isVariableName name = true)
    (hc : isNameChar c = false) : c ∉ name := by
  intro hmem
  simp only [isVariableName, Bool.and_eq_true, List.all_eq_true] at h
  rw [h.2 c hmem] at hc
  cases hc

namespace Fragment

/-- The line is made of the fragments, from left to right. -/
inductive Cuts : Text → List Fragment → Prop where
  | nil : Cuts [] []
  /-- Literal text runs up to the next `$`. -/
  | text {content rest : Text} {fragments : List Fragment} :
      content ≠ [] → '$' ∉ content → (∀ c ∈ rest.head?, c = '$') → Cuts rest fragments →
      Cuts (content ++ rest) (text content :: fragments)
  /-- A `$` that begins no reference stands alone. -/
  | lone {rest : Text} {fragments : List Fragment} :
      (∀ c ∈ rest.head?, isNameChar c = false ∧ c ≠ '{') → Cuts rest fragments →
      Cuts ('$' :: rest) (bare [] :: fragments)
  /-- A bare name runs as far as there are name characters. -/
  | bare {name rest : Text} {fragments : List Fragment} :
      isVariableName name = true → (∀ c ∈ rest.head?, isNameChar c = false) →
      Cuts rest fragments → Cuts ('$' :: name ++ rest) (bare name :: fragments)
  /-- A braced name runs up to the next `}`, whatever it consists of. -/
  | braced {name rest : Text} {fragments : List Fragment} :
      '}' ∉ name → Cuts rest fragments →
      Cuts ('$' :: '{' :: name ++ '}' :: rest) (braced name :: fragments)
  /-- Without a later `}` nothing else follows. -/
  | unterminated {rest : Text} : '}' ∉ rest → Cuts ('$' :: '{' :: rest) [unterminated rest]

/-- What fragments are cut from. -/
def sources (fragments : List Fragment) : Text :=
  fragments.flatMap source

/-- No fragments are written as nothing. -/
@[simp] theorem sources_nil : sources [] = [] := rfl

/-- Fragments are written one after the other. -/
@[simp] theorem sources_cons (f : Fragment) (fragments : List Fragment) :
    sources (f :: fragments) = f.source ++ sources fragments := rfl

/-- No character is lost. -/
theorem Cuts.sources_eq {line : Text} {fragments : List Fragment} (h : Cuts line fragments) :
    sources fragments = line := by
  induction h with
  | nil => rfl
  | text _ _ _ _ ih | lone _ _ ih | bare _ _ _ ih | braced _ _ ih => simp [source, ih]
  | unterminated _ => simp [source]

/-! ## The first fragment -/

/-- A line that does not begin with `$` begins with the text up to the first one. -/
theorem first_text {content rest : Text} {c : Char} (hc : c ≠ '$') (hcontent : '$' ∉ content)
    (hrest : ∀ d ∈ rest.head?, d = '$') :
    first c (content ++ rest) = (text (c :: content), rest) := by
  have hrun : ∀ d ∈ content, (d != '$') = true := by
    intro d hd
    simpa using ne_of_mem_of_not_mem hd hcontent
  have hstop : ∀ d ∈ rest.head?, (d != '$') = false := by
    intro d hd
    simpa using hrest d hd
  obtain ⟨htake, hdrop⟩ := Text.span_append (· != '$') hrun hstop
  unfold first
  rw [if_neg hc, htake, hdrop]

/-- A `$` takes the name characters behind it along, unless a brace comes first. -/
theorem first_name {name rest : Text} (hname : ∀ c ∈ name, isNameChar c = true)
    (hrest : ∀ c ∈ rest.head?, isNameChar c = false)
    (hbrace : (name ++ rest).head? ≠ some '{') :
    first '$' (name ++ rest) = (bare name, rest) := by
  obtain ⟨htake, hdrop⟩ := Text.span_append isNameChar hname hrest
  unfold first
  rw [if_pos rfl]
  split
  · rename_i heq
    rw [heq] at hbrace
    exact absurd rfl hbrace
  · rw [htake, hdrop]

/-- A brace is closed by the first `}`. -/
theorem first_braced {name : Text} (hname : '}' ∉ name) (rest : Text) :
    first '$' ('{' :: name ++ '}' :: rest) = (braced name, rest) := by
  show first '$' ('{' :: (name ++ '}' :: rest)) = _
  simp only [first, if_true, Text.cut_at_append hname]

/-- A brace that nothing closes takes the rest of the line. -/
theorem first_unterminated {rest : Text} (h : '}' ∉ rest) :
    first '$' ('{' :: rest) = (unterminated rest, []) := by
  simp only [first, if_true, Text.cut_at_eq_self h]

/-! ## The cut -/

/-- A way to cut a line is the way in which it is cut. -/
theorem Cuts.eq_cut {line : Text} {fragments : List Fragment} (h : Cuts line fragments) :
    fragments = cut line := by
  induction h with
  | nil => rw [cut]
  | @text content rest fragments hne hcontent hrest _ ih =>
      obtain ⟨c, content, rfl⟩ := List.exists_cons_of_ne_nil hne
      obtain ⟨hc, hcontent⟩ := List.ne_and_not_mem_of_not_mem_cons hcontent
      rw [List.cons_append, cut, first_text (Ne.symm hc) hcontent hrest, ih]
  | @lone rest fragments hrest _ ih =>
      have hname : ∀ c ∈ rest.head?, isNameChar c = false := fun c hc => (hrest c hc).1
      have hbrace : ([] ++ rest).head? ≠ some '{' := fun h => (hrest _ h).2 rfl
      have hfirst : first '$' rest = (.bare [], rest) := first_name (by simp) hname hbrace
      rw [cut, hfirst, ih]
  | @bare name rest fragments hname hrest _ ih =>
      simp only [isVariableName, Bool.and_eq_true, Bool.not_eq_true', List.all_eq_true] at hname
      have hbrace : (name ++ rest).head? ≠ some '{' := by
        -- The name is not empty, so it is one of its own characters that comes first.
        intro h
        cases name with
        | nil => simp at hname
        | cons c name =>
            obtain rfl : c = '{' := by simpa using h
            exact absurd (hname.2 '{' List.mem_cons_self) (by decide)
      rw [List.cons_append, cut, first_name hname.2 hrest hbrace, ih]
  | @braced name rest fragments hname _ ih => rw [List.cons_append, cut, first_braced hname rest, ih]
  | unterminated hrest => rw [cut, first_unterminated hrest, cut]

/-- The first fragment of a line goes before the fragments of what is left of it. -/
theorem Cuts.cons_first {c : Char} {line : Text} {fragments : List Fragment}
    (h : Cuts (first c line).2 fragments) : Cuts (c :: line) ((first c line).1 :: fragments) := by
  by_cases hc : c = '$'
  · subst hc
    by_cases hbrace : line.head? = some '{'
    · obtain ⟨rest, rfl⟩ : ∃ rest, line = '{' :: rest := by
        cases line with
        | nil => cases hbrace
        | cons d rest => exact ⟨rest, by rw [Option.some.inj hbrace]⟩
      by_cases hclose : '}' ∈ rest
      · obtain ⟨name, after, rfl, hname⟩ := List.eq_append_cons_of_mem hclose
        have hfirst := first_braced hname after
        rw [List.cons_append] at hfirst
        rw [hfirst] at h ⊢
        exact .braced hname h
      · rw [first_unterminated hclose] at h ⊢
        obtain rfl : fragments = [] := by rw [h.eq_cut, cut]
        exact .unterminated hclose
    · -- A name is cut off here, which is empty where the `$` stands alone.
      have hname : ∀ d ∈ line.takeWhile isNameChar, isNameChar d = true := fun d hd =>
        List.mem_takeWhile_imp hd
      have hrest := Text.head?_drop_while_eq_false isNameChar line
      have hline : line.takeWhile isNameChar ++ line.dropWhile isNameChar = line :=
        List.takeWhile_append_dropWhile
      generalize line.takeWhile isNameChar = name at *
      generalize line.dropWhile isNameChar = rest at *
      subst hline
      rw [first_name hname hrest hbrace] at h ⊢
      cases name with
      | nil => exact .lone (fun d hd => ⟨hrest d hd, fun heq => hbrace (heq ▸ hd)⟩) h
      | cons d name =>
          refine .bare ?_ hrest h
          simpa [isVariableName] using hname
  · have hcontent : '$' ∉ line.takeWhile (· != '$') := fun hmem => by
      simpa using List.mem_takeWhile_imp hmem
    have hrest := Text.head?_drop_while_eq_false (· != '$') line
    have hline : line.takeWhile (· != '$') ++ line.dropWhile (· != '$') = line :=
      List.takeWhile_append_dropWhile
    generalize line.takeWhile (· != '$') = content at *
    generalize line.dropWhile (· != '$') = rest at *
    subst hline
    have hrest' : ∀ d ∈ rest.head?, d = '$' := fun d hd => by simpa using hrest d hd
    rw [first_text hc hcontent hrest'] at h ⊢
    have hnot : '$' ∉ c :: content := by
      simp [hcontent, Ne.symm hc]
    exact .text (List.cons_ne_nil _ _) hnot hrest' h

/-- Every line is cut into its fragments. -/
theorem cuts_cut (line : Text) : Cuts line (cut line) := by
  induction line using cut.induct with
  | case1 =>
      rw [cut]
      exact .nil
  | case2 c line ih =>
      rw [cut]
      exact .cons_first ih

/-! ## The end of a cut -/

/-- Whether a fragment is whole: all are but a brace that is not closed. -/
def isWhole : Fragment → Bool
  | unterminated _ => false
  | text _ | bare _ | braced _ => true

/-- The fragments are whole, or all but the last of them are. -/
def WholeBeforeLast (fragments : List Fragment) : Prop :=
  (∀ f ∈ fragments, f.isWhole = true) ∨
    ∃ before rest, fragments = before ++ [unterminated rest] ∧ ∀ f ∈ before, f.isWhole = true

/-- One more whole fragment in front leaves only the last that may be open. -/
theorem WholeBeforeLast.cons {f : Fragment} {fragments : List Fragment} (hf : f.isWhole = true)
    (h : WholeBeforeLast fragments) : WholeBeforeLast (f :: fragments) := by
  rcases h with h | ⟨before, rest, rfl, hbefore⟩
  · exact .inl (List.forall_mem_cons.mpr ⟨hf, h⟩)
  · exact .inr ⟨f :: before, rest, rfl, List.forall_mem_cons.mpr ⟨hf, hbefore⟩⟩

/-- A brace that is not closed takes the rest of the line, so it can only be the last fragment. -/
theorem Cuts.whole_before_last {line : Text} {fragments : List Fragment}
    (h : Cuts line fragments) : WholeBeforeLast fragments := by
  induction h with
  | nil => exact .inl (by simp)
  | text _ _ _ _ ih | lone _ _ ih | bare _ _ _ ih | braced _ _ ih => exact ih.cons rfl
  | unterminated _ => exact .inr ⟨[], _, rfl, by simp⟩

end Fragment

end LineShell
