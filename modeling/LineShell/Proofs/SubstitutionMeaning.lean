import LineShell.Expansion
import LineShell.Proofs.LineCutting

/-!
# What a line means

The meaning of a line in a store, read off the fragments that it is cut into: literal text and a
lone `$` mean themselves, a reference means the value of its variable, and a brace that is not
closed makes the whole line meaningless. `Expansion.Means` says so in terms of `Fragment.Cuts`, with
no word on how a line is scanned, and `substitute_means` shows that substitution computes it.

Values enter the meaning as they are. They are not cut, so nothing in them can be a reference.
-/

namespace LineShell

namespace Fragment

/-- The name that a fragment refers to, if it is a reference. -/
def reference? : Fragment → Option Text
  | bare (c :: name) => some (c :: name)
  | braced name => some name
  | text _ | bare [] | unterminated _ => none

/-- What a fragment means: the value of its variable, or nothing if there is none, for a reference,
and itself otherwise. -/
def meaning (store : Store) (f : Fragment) : Text :=
  match f.reference? with
  | some name => (store.get? name).getD []
  | none => f.source

/-- The names that the fragments refer to. -/
def references (fragments : List Fragment) : List Text :=
  fragments.filterMap reference?

end Fragment

/-- A line without references is its own expansion. -/
theorem substitute_eq_self {line : Text} (h : '$' ∉ line) (store : Store) :
    substitute store line = .ok ⟨line, []⟩ :=
  if_neg fun hcontains => h (List.contains_iff_mem.mp hcontains)

namespace Expansion

open Fragment

/-- The fragments' meanings in a row, and the names without a value as often as they occur. -/
def ofWhole (store : Store) (fragments : List Fragment) : Expansion :=
  ⟨fragments.flatMap (meaning store), (references fragments).filter (!store.contains ·)⟩

/-- What a line means in a store. -/
inductive Means (store : Store) (line : Text) : Except UnterminatedBrace Expansion → Prop where
  | whole {fragments : List Fragment} : Cuts line fragments → (∀ f ∈ fragments, f.isWhole = true) →
      Means store line (.ok (ofWhole store fragments))
  | unterminated {before : List Fragment} {rest : Text} :
      Cuts line (before ++ [.unterminated rest]) →
      Means store line (.error ⟨Text.byteLength (sources before), '$' :: '{' :: rest⟩)

variable {store : Store} {line : Text} {fragments : List Fragment}

/-! ## Whole fragments -/

/-- The meaning of fragments in a row is that of one part and that of the other. -/
theorem of_whole_append (store : Store) (a b : List Fragment) :
    ofWhole store (a ++ b) = (ofWhole store a).append (ofWhole store b) := by
  simp [ofWhole, append, references]

/-- A reference stands for the value of its name, or for nothing if it has none, and is then
unresolved. -/
theorem of_reference_eq (store : Store) (name : Text) : ofReference store name =
    ⟨(store.get? name).getD [], [name].filter (!store.contains ·)⟩ := by
  cases h : store.get? name with
  | none => simp [ofReference, Store.contains, h]
  | some value => simp [ofReference, Store.contains, h]

/-- A whole fragment is expanded to what it means. -/
theorem of_fragment_whole {f : Fragment} (hf : f.isWhole = true) (position : Nat) :
    ofFragment store position f = .ok (ofWhole store [f]) := by
  cases f with
  | text content => simp [ofFragment, ofWhole, meaning, references, reference?, source]
  | bare name =>
      cases name with
      | nil => simp [ofFragment, ofWhole, meaning, references, reference?, source]
      | cons c name =>
          simp [ofFragment, ofWhole, meaning, references, reference?, of_reference_eq]
  | braced name => simp [ofFragment, ofWhole, meaning, references, reference?, of_reference_eq]
  | unterminated rest => cases hf

/-- A whole fragment stands before what the fragments behind it come to. -/
theorem of_fragments_cons_whole {f : Fragment} (hf : f.isWhole = true) (position : Nat)
    (fragments : List Fragment) : ofFragments store position (f :: fragments) =
      (ofFragments store (position + Text.byteLength f.source) fragments).map
        (ofWhole store [f]).append := by
  rw [ofFragments, of_fragment_whole hf]
  show (ofFragments store _ fragments >>= fun tail => _) = _
  cases ofFragments store (position + Text.byteLength f.source) fragments <;> rfl

/-- Whole fragments always have a meaning. -/
theorem of_fragments_whole (h : ∀ f ∈ fragments, f.isWhole = true) (position : Nat) :
    ofFragments store position fragments = .ok (ofWhole store fragments) := by
  induction fragments generalizing position with
  | nil => rfl
  | cons f fragments ih =>
      obtain ⟨hf, hfragments⟩ := List.forall_mem_cons.mp h
      have hcons := of_whole_append store [f] fragments
      rw [List.singleton_append] at hcons
      rw [of_fragments_cons_whole hf, ih hfragments, hcons]
      rfl

/-! ## A brace that is not closed -/

/-- The first brace that is not closed ends the expansion, at the place where it stands. -/
theorem of_fragments_unterminated {before : List Fragment} (h : ∀ f ∈ before, f.isWhole = true)
    (position : Nat) (rest : Text) :
    ofFragments store position (before ++ [.unterminated rest]) =
      .error ⟨position + Text.byteLength (sources before), '$' :: '{' :: rest⟩ := by
  induction before generalizing position with
  | nil => rfl
  | cons f before ih =>
      obtain ⟨hf, hbefore⟩ := List.forall_mem_cons.mp h
      rw [List.cons_append, of_fragments_cons_whole hf, ih hbefore, sources_cons,
        Text.byte_length_append, Nat.add_assoc]
      rfl

/-! ## Whole lines -/

/-- A line without `$` is expanded no differently for not being cut. -/
theorem substitute_eq_of_fragments (store : Store) (line : Text) :
    substitute store line = ofFragments store 0 (cut line) := by
  by_cases h : '$' ∈ line
  · exact if_pos (List.contains_iff_mem.mpr h)
  · -- Such a line is a single fragment, or none if it is empty.
    have hcut : ofFragments store 0 (cut line) = .ok ⟨line, []⟩ := by
      cases line with
      | nil =>
          rw [cut]
          rfl
      | cons c line =>
          have hwhole : Cuts (c :: line ++ []) [.text (c :: line)] :=
            .text (List.cons_ne_nil _ _) h (by simp) .nil
          rw [List.append_nil] at hwhole
          rw [← hwhole.eq_cut, of_fragments_whole (by simp [isWhole])]
          simp [ofWhole, meaning, references, reference?, source]
    rw [hcut, substitute_eq_self h]

/-- Substitution gives a line its meaning. -/
theorem means_substitute (store : Store) (line : Text) :
    Means store line (substitute store line) := by
  rw [substitute_eq_of_fragments]
  have hcut := cuts_cut line
  rcases hcut.whole_before_last with hwhole | ⟨before, rest, heq, hbefore⟩
  · rw [of_fragments_whole hwhole]
    exact .whole hcut hwhole
  · rw [heq] at hcut ⊢
    rw [of_fragments_unterminated hbefore, Nat.zero_add]
    exact .unterminated hcut

/-- The meaning of a line is what substitution gives, so it has only one. -/
theorem Means.substitute_eq {result : Except UnterminatedBrace Expansion}
    (h : Means store line result) : substitute store line = result := by
  rw [substitute_eq_of_fragments]
  cases h with
  | whole hcuts hwhole => rw [← hcuts.eq_cut, of_fragments_whole hwhole]
  | @unterminated before rest hcuts =>
      have hbefore : ∀ f ∈ before, f.isWhole = true := by
        rcases hcuts.whole_before_last with hwhole | ⟨whole, rest', heq, hwhole⟩
        · have hlast := hwhole (.unterminated rest) (by simp)
          cases hlast
        · rwa [(List.append_inj' heq rfl).1]
      rw [← hcuts.eq_cut, of_fragments_unterminated hbefore, Nat.zero_add]

end Expansion

/-- Substitution computes what a line means, and nothing else: the line with every reference
replaced if all its braces are closed, and otherwise the place and the text of the first one that is
not. Lines without `$`, which are not cut, are no exception. -/
theorem substitute_means (store : Store) (line : Text) :
    (∀ result, substitute store line = result ↔ Expansion.Means store line result) ∧
    (∀ e, substitute store line = .error e →
      ∃ before, line = before ++ e.rest ∧ e.position = Text.byteLength before) ∧
    substitute store line = Expansion.ofFragments store 0 (Fragment.cut line) := by
  refine ⟨fun result => ⟨?_, Expansion.Means.substitute_eq⟩, ?_, ?_⟩
  · rintro rfl
    exact Expansion.means_substitute store line
  · intro e he
    have hmeans := Expansion.means_substitute store line
    rw [he] at hmeans
    cases hmeans with
    | @unterminated before rest hcuts =>
      refine ⟨Fragment.sources before, ?_, rfl⟩
      rw [← hcuts.sources_eq]
      simp [Fragment.sources, Fragment.source]
  · exact Expansion.substitute_eq_of_fragments store line

end LineShell
