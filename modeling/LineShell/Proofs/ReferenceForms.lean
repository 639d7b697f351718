import LineShell.Proofs.SubstitutionAppend

/-!
# Two ways to write a reference

A variable can be referred to as `$NAME` or as `${NAME}`. Where what follows could not belong to the
name, one can be written for the other (`reference_forms_agree`): the line expands to the same, and
if it does not expand, the brace at fault is the same one, two bytes further on in the longer form.
What stands in front may end in anything that can be expanded, such as a `$` or a name, since both
forms begin with `$`; and what stands behind may begin with anything that is not a name character,
such as a brace.
-/

namespace LineShell

namespace Expansion

open Fragment

variable {store : Store} {name after : Text}

/-- Two expansions in front of a result are one, and the places of errors move by both lengths. -/
theorem followed_by_followed_by (a b : Expansion) (m n : Nat)
    (result : Except UnterminatedBrace Expansion) :
    a.followedBy m (b.followedBy n result) = (a.append b).followedBy (m + n) result := by
  cases result with
  | ok following => simp [followedBy, append_assoc]
  | error cause => simp [followedBy, Nat.add_assoc]

/-- A reference that is a fragment of its own before a text is replaced there, and the text comes to
what it comes to alone. -/
theorem substitute_reference_append {f : Fragment} (hf : f.reference? = some name)
    (hcuts : ∀ more, Cuts after more → Cuts (f.source ++ after) (f :: more)) :
    substitute store (f.source ++ after) =
      (ofReference store name).followedBy (Text.byteLength f.source) (substitute store after) := by
  have hwhole : f.isWhole = true := by
    cases f with
    | unterminated rest => cases hf
    | text content | bare name | braced name => rfl
  have hjoin : ∀ more, join [f] more = f :: more := by
    intro more
    cases f with
    | text content => cases hf
    | bare name | braced name | unterminated rest => rfl
  have hmeaning : ofWhole store [f] = ofReference store name := by
    simp [of_reference_eq, ofWhole, meaning, references, hf]
  rw [← hmeaning]
  refine substitute_append_of_join (by simpa using hwhole) (by simp) fun more hmore => ?_
  rw [hjoin]
  exact hcuts more hmore

/-- A braced reference may stand before anything. -/
theorem substitute_braced_append (hname : '}' ∉ name) (after : Text) :
    substitute store ('$' :: '{' :: name ++ '}' :: after) =
      (ofReference store name).followedBy (Text.byteLength name + 3) (substitute store after) := by
  have hsource : (braced name).source ++ after = '$' :: '{' :: name ++ '}' :: after := by
    simp [source]
  have hlength : Text.byteLength (braced name).source = Text.byteLength name + 3 := by
    show 1 + (1 + Text.byteLength (name ++ ['}'])) = _
    rw [Text.byte_length_append]
    show 1 + (1 + (Text.byteLength name + 1)) = _
    omega
  rw [← hlength, ← hsource]
  refine substitute_reference_append rfl fun more hmore => ?_
  rw [hsource]
  exact .braced hname hmore

/-- A bare reference may stand before anything that its name could not go on with. -/
theorem substitute_bare_append (hname : isVariableName name = true)
    (hafter : ∀ c ∈ after.head?, isNameChar c = false) :
    substitute store ('$' :: name ++ after) =
      (ofReference store name).followedBy (Text.byteLength name + 1) (substitute store after) := by
  have hreference : (bare name).reference? = some name := by
    cases name with
    | nil => cases hname
    | cons c name => rfl
  have hlength : Text.byteLength (bare name).source = Text.byteLength name + 1 := by
    show 1 + Text.byteLength name = _
    omega
  rw [← hlength]
  exact substitute_reference_append hreference fun more hmore => .bare hname hafter hmore

end Expansion

variable {store : Store} {before name after : Text} {expansion : Expansion}

/-- In a line that can be expanded up to a reference, behind which no name character stands, the
reference may have braces or not. Both lines expand to the same, with the same names unknown; or in
both the same brace is not closed, which is two bytes further on where the reference has braces. -/
theorem reference_forms_agree (hbefore : substitute store before = .ok expansion)
    (hname : isVariableName name = true) (hafter : ∀ c ∈ after.head?, isNameChar c = false) :
    (∃ following, substitute store after = .ok following ∧
      let whole := (expansion.append (.ofReference store name)).append following
      substitute store (before ++ ('$' :: '{' :: name ++ '}' :: after)) = .ok whole ∧
        substitute store (before ++ ('$' :: name ++ after)) = .ok whole) ∨
    ∃ cause position, substitute store after = .error cause ∧
      substitute store (before ++ ('$' :: '{' :: name ++ '}' :: after)) =
        .error ⟨position + 2, cause.rest⟩ ∧
      substitute store (before ++ ('$' :: name ++ after)) = .error ⟨position, cause.rest⟩ := by
  have hbrace : '}' ∉ name := not_mem_of_is_variable_name hname (by decide)
  -- The two lines differ by the length of the reference, by which the rest is moved.
  have hbraced : substitute store (before ++ ('$' :: '{' :: name ++ '}' :: after)) =
      (expansion.append (.ofReference store name)).followedBy
        (Text.byteLength before + (Text.byteLength name + 3)) (substitute store after) := by
    rw [substitute_append_eq hbefore (.of_dollar rfl), Expansion.substitute_braced_append hbrace,
      Expansion.followed_by_followed_by]
  have hbare : substitute store (before ++ ('$' :: name ++ after)) =
      (expansion.append (.ofReference store name)).followedBy
        (Text.byteLength before + (Text.byteLength name + 1)) (substitute store after) := by
    rw [substitute_append_eq hbefore (.of_dollar rfl),
      Expansion.substitute_bare_append hname hafter, Expansion.followed_by_followed_by]
  cases hresult : substitute store after with
  | ok following =>
      rw [hresult] at hbraced hbare
      exact .inl ⟨following, rfl, hbraced, hbare⟩
  | error cause =>
      rw [hresult] at hbraced hbare
      refine .inr ⟨cause, _, rfl, ?_, hbare⟩
      have hposition : Text.byteLength before + (Text.byteLength name + 3) + cause.position =
          Text.byteLength before + (Text.byteLength name + 1) + cause.position + 2 := by
        omega
      rw [hbraced, Expansion.followedBy, hposition]

/-- The reference is between a `$` that stands alone and a text that begins with a brace. In the
second text a brace is not closed. -/
theorem reference_forms_agree_between_braces :
    let store := Store.ofList [(['A'], ['$', '{']), (['N', '_'], ['}'])]
    let before : Text := ['$', 'A', '}', '$', '{', '$', '}', '$']
    let name : Text := ['N', '_']
    let after : Text := ['{', '$', 'A', '}']
    let after' : Text := ['{', '}', 'é', '$', '{', 'N']
    let whole : Expansion := ⟨['$', '{', '}', '$', '}', '{', '$', '{', '}'], [['$']]⟩
    (substitute store before = .ok ⟨['$', '{', '}', '$'], [['$']]⟩ ∧ isVariableName name = true ∧
      (∀ c ∈ after.head?, isNameChar c = false) ∧ ∀ c ∈ after'.head?, isNameChar c = false) ∧
    (substitute store (before ++ ('$' :: '{' :: name ++ '}' :: after)) = .ok whole ∧
      substitute store (before ++ ('$' :: name ++ after)) = .ok whole) ∧
    substitute store (before ++ ('$' :: '{' :: name ++ '}' :: after')) =
      .error ⟨17, ['$', '{', 'N']⟩ ∧
    substitute store (before ++ ('$' :: name ++ after')) = .error ⟨15, ['$', '{', 'N']⟩ := by
  intro store before name after after' whole
  have hbefore : substitute store before = .ok ⟨['$', '{', '}', '$'], [['$']]⟩ := by
    decide +kernel
  have hname : isVariableName name = true := by decide
  have hbrace : ∀ c ∈ some '{', isNameChar c = false := by
    intro c hc
    obtain rfl : '{' = c := Option.some.inj hc
    decide
  have hafter : ∀ c ∈ after.head?, isNameChar c = false := hbrace
  have hafter' : ∀ c ∈ after'.head?, isNameChar c = false := hbrace
  have hfollowing : substitute store after = .ok ⟨['{', '$', '{', '}'], []⟩ := by decide +kernel
  have hcause : substitute store after' = .error ⟨4, ['$', '{', 'N']⟩ := by decide +kernel
  refine ⟨⟨hbefore, hname, hafter, hafter'⟩, ?_, ?_⟩
  · rcases reference_forms_agree hbefore hname hafter with ⟨_, hok, hboth⟩ | ⟨_, _, herror, _⟩
    · cases hfollowing.symm.trans hok
      exact hboth
    · cases hfollowing.symm.trans herror
  · have hbare : substitute store (before ++ ('$' :: name ++ after')) =
        .error ⟨15, ['$', '{', 'N']⟩ := by
      decide +kernel
    rcases reference_forms_agree hbefore hname hafter' with ⟨_, hok, _⟩ | ⟨_, _, herror, hboth⟩
    · cases hcause.symm.trans hok
    · cases hcause.symm.trans herror
      cases hbare.symm.trans hboth.2
      exact hboth

end LineShell
