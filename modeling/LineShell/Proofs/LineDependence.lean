import LineShell.Line
import LineShell.Proofs.SubstitutionMeaning

/-!
# What the reading of a line depends on

A line is read in the light of the store, but not of all of it: two stores that agree on the search
path and on the names that the line refers to give it the same reading and the same warnings
(`read_eq_of_agree`). What else is in a store can neither change what a line does nor show in what
is said about it.

The names that count are those of the fragments that the trimmed line is cut into, so a `$` inside a
braced name adds none, and neither does the text of a value.
-/

namespace LineShell

/-- The stores have the same value for each of the names, or both have none. -/
def Store.AgreeOn (a b : Store) (names : List Text) : Prop :=
  ∀ name ∈ names, a.get? name = b.get? name

instance (a b : Store) (names : List Text) : Decidable (a.AgreeOn b names) :=
  List.decidableBAll (fun name => a.get? name = b.get? name) names

variable {a b : Store} {line : Text}

namespace Expansion

open Fragment

/-- A reference depends on the store by the one name that it refers to. -/
theorem of_reference_eq_of_agree {name : Text} (h : a.get? name = b.get? name) :
    ofReference a name = ofReference b name := by
  rw [ofReference, ofReference, h]

/-- A fragment is expanded by the value of the name that it refers to, if it refers to one. -/
theorem of_fragment_eq_of_agree {f : Fragment} (h : ∀ name ∈ f.reference?, a.get? name = b.get? name)
    (position : Nat) : ofFragment a position f = ofFragment b position f := by
  cases f with
  | text content => rfl
  | bare name =>
      cases name with
      | nil => rfl
      | cons c name => exact congrArg Except.ok (of_reference_eq_of_agree (h (c :: name) rfl))
  | braced name => exact congrArg Except.ok (of_reference_eq_of_agree (h name rfl))
  | unterminated rest => rfl

/-- The meaning of fragments depends on the store by the names that they refer to. -/
theorem of_fragments_eq_of_agree {fragments : List Fragment} (h : a.AgreeOn b (references fragments))
    (position : Nat) : ofFragments a position fragments = ofFragments b position fragments := by
  induction fragments generalizing position with
  | nil => rfl
  | cons f rest ih =>
      have hhead : ofFragment a position f = ofFragment b position f := by
        refine of_fragment_eq_of_agree (fun name hname => h name ?_) position
        exact List.mem_filterMap.mpr ⟨f, List.mem_cons_self, hname⟩
      have hrest : a.AgreeOn b (references rest) := by
        intro name hname
        obtain ⟨g, hg, hgname⟩ := List.mem_filterMap.mp hname
        exact h name (List.mem_filterMap.mpr ⟨g, List.mem_cons_of_mem _ hg, hgname⟩)
      rw [ofFragments, ofFragments, hhead, ih hrest]

end Expansion

/-- A line is expanded by the values of the names that it refers to. -/
theorem substitute_eq_of_agree (h : a.AgreeOn b (Fragment.references (Fragment.cut line))) :
    substitute a line = substitute b line := by
  rw [Expansion.substitute_eq_of_fragments, Expansion.substitute_eq_of_fragments]
  exact Expansion.of_fragments_eq_of_agree h 0

/-- Reading a line depends on the store by the search path and the names that it refers to. -/
theorem parse_line_eq_of_agree (hpath : a.path? = b.path?)
    (h : a.AgreeOn b (Fragment.references (Fragment.cut (Text.trim line)))) (listing : Listing) :
    parseLine listing a line = parseLine listing b line := by
  simp only [parseLine, substitute_eq_of_agree h, hpath]

/-- Stores that agree on the search path and on the names that a line refers to give it the same
reading, and its reader the same warnings in the same order. -/
theorem read_eq_of_agree (hpath : a.path? = b.path?)
    (h : a.AgreeOn b (Fragment.references (Fragment.cut (Text.trim line)))) (listing : Listing)
    (reader : LineReader) : reader.read listing a line = reader.read listing b line := by
  simp only [LineReader.read, parse_line_eq_of_agree hpath h listing]

/-- The line refers to `A`, which has the same value in both stores, and to `U$A`, which
has none in either. The variables `B` and `$A`, which one store has and the other has
not, make no difference. -/
theorem read_eq_of_agree_on_two_names :
    let a := Store.ofList [(['P', 'A', 'T', 'H'], ['/', 'd']), (['A'], ['x']), (['B'], ['|'])]
    let b := Store.ofList [(['A'], ['x']), (['$', 'A'], ['<']), (['P', 'A', 'T', 'H'], ['/', 'd'])]
    let line : Text := [' ', 'c', ' ', '$', 'A', '$', '{', 'U', '$', 'A', '}', '$', ' ']
    let listing : Listing := fun directory =>
      if directory = ['/', 'd'] then .ok [.text ['c']] else .error (.system .noEntry)
    let reader : LineReader := ⟨[.unknownVariable ['V']]⟩
    a.path? = b.path? ∧
    a.AgreeOn b (Fragment.references (Fragment.cut (Text.trim line))) ∧
    reader.read listing a line = reader.read listing b line ∧
    reader.read listing b line =
      (.ok (.pipeline ⟨[⟨.external ['/', 'd', '/', 'c'], [['c'], ['x', '$']], {}⟩]⟩),
        ⟨[.unknownVariable ['V'], .unknownVariable ['U', '$', 'A']]⟩) := by
  intro a b line listing reader
  have hpath : a.path? = b.path? := by decide +kernel
  have hagree : a.AgreeOn b (Fragment.references (Fragment.cut (Text.trim line))) := by
    decide +kernel
  have hread : reader.read listing b line =
      (.ok (.pipeline ⟨[⟨.external ['/', 'd', '/', 'c'], [['c'], ['x', '$']], {}⟩]⟩),
        ⟨[.unknownVariable ['V'], .unknownVariable ['U', '$', 'A']]⟩) := by
    have hparse : parseLine listing b line =
        ([.unknownVariable ['U', '$', 'A']],
          .ok (.pipeline ⟨[⟨.external ['/', 'd', '/', 'c'], [['c'], ['x', '$']], {}⟩]⟩)) := by
      decide +kernel
    simp only [LineReader.read, hparse]
    rfl
  exact ⟨hpath, hagree, read_eq_of_agree hpath hagree listing reader, hread⟩

end LineShell
