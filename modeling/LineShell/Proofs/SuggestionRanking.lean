import LineShell.Proofs.PathSearch
import LineShell.Suggestion
import Mathlib.Data.String.Basic

/-!
# Which names are offered

`suggest_law` says which names are offered in place of a command, for any scores that are totally
ordered: the names that qualify have one row in which each outranks all that follow, and the first
three of it are offered. So what is left out ranks behind all that is offered, and search paths that
lead to the same directories offer the same.

`Outranks` is the order of the names, `Ranking` the row. Sorting makes such a row of the candidates
(`exists_ranking`), and there is only one (`Ranking.unique`), whatever order they were collected in.
-/

namespace LineShell.Suggestion

open SearchPath

/-! ## Candidates -/

/-- A name that a command could have been: that of a built-in command, or of an entry of a directory
on the search path that can be listed. -/
inductive Candidate (listing : Listing) (path : Option Text) : Text → Prop where
  | builtin (command : Builtin) : Candidate listing path command.name
  | entry {value directory name : Text} : path = some value → directory ∈ directories value →
      Has listing name directory → Candidate listing path name

/-- Two search paths have the same components, in any order and each any number of times, apart from
empty ones and from directories that cannot be listed. -/
def SameDirectories (listing : Listing) (p q : Text) : Prop :=
  ∀ directory entries, directory ≠ [] → listing directory = .ok entries →
    (directory ∈ p.splitOn ':' ↔ directory ∈ q.splitOn ':')

variable {listing : Listing} {path : Option Text} {name input : Text}

/-- Of the entries of a directory those count whose names are texts. -/
theorem mem_entry_texts {entries : List EntryName} :
    name ∈ entryTexts entries ↔ .text name ∈ entries := by
  induction entries with
  | nil => simp [entryTexts]
  | cons entry entries ih => cases entry <;> simp [entryTexts, ih]

/-- The names in a directory are those that its listing has, and none if it cannot be listed. -/
theorem mem_names_in {directory : Text} :
    name ∈ namesIn listing directory ↔ Has listing name directory := by
  unfold namesIn Has
  cases hlisting : listing directory with
  | error reason => simp
  | ok entries => simp [mem_entry_texts]

/-- The candidates are the names of the built-ins and those in the directories of the search path.
-/
theorem mem_candidates : name ∈ candidates listing path ↔ Candidate listing path name := by
  simp only [candidates, List.mem_eraseDups, List.mem_append, List.mem_map, List.mem_flatMap,
    mem_names_in]
  constructor
  · rintro (⟨command, _, rfl⟩ | ⟨directory, hdirectory, hhas⟩)
    · exact .builtin command
    · cases path with
      | none => cases hdirectory
      | some value => exact .entry rfl hdirectory hhas
  · rintro (command | ⟨rfl, hdirectory, hhas⟩)
    · exact .inl ⟨command, by cases command; decide, rfl⟩
    · exact .inr ⟨_, hdirectory, hhas⟩

/-- The directories of a search path are its pieces that are not empty. -/
theorem mem_directories {value directory : Text} :
    directory ∈ directories value ↔ directory ∈ value.splitOn ':' ∧ directory ≠ [] := by
  simp [directories]

/-- That two paths have the same directories is symmetric. -/
theorem SameDirectories.symm {p q : Text} (h : SameDirectories listing p q) :
    SameDirectories listing q p :=
  fun directory entries hne hentries => (h directory entries hne hentries).symm

/-- A candidate for one path is one for every path with the same directories. -/
theorem Candidate.of_same_directories {p q : Text} (h : SameDirectories listing p q)
    (hcandidate : Candidate listing (some p) name) : Candidate listing (some q) name := by
  cases hcandidate with
  | builtin command => exact .builtin command
  | entry hvalue hdirectory hhas =>
      cases hvalue
      obtain ⟨entries, hentries, _⟩ := id hhas
      obtain ⟨hmem, hne⟩ := mem_directories.mp hdirectory
      have hother := (h _ entries hne hentries).mp hmem
      exact .entry rfl (mem_directories.mpr ⟨hother, hne⟩) hhas

/-- Removing repetitions leaves none. -/
theorem nodup_erase_dups (names : List Text) : names.eraseDups.Nodup := by
  cases names with
  | nil => simp
  | cons a names =>
      rw [List.eraseDups_cons, List.nodup_cons]
      exact ⟨by simp, nodup_erase_dups (names.filter fun b => !b == a)⟩
termination_by names.length
decreasing_by
  have hle := List.length_filter_le (fun b => !b == a) names
  simp only [List.length_cons]
  omega

/-! ## The order of the names -/

section Order

variable {α : Type} [LE α] [LT α]

/-- The scores of all names can be compared with each other, as those of any linear order and as
floating-point numbers other than NaN can. -/
structure TotallyOrdered (score : Text → α) : Prop where
  total : ∀ a b, score a ≤ score b ∨ score b ≤ score a
  trans : ∀ {a b c}, score a ≤ score b → score b ≤ score c → score a ≤ score c
  lt_iff : ∀ a b, score a < score b ↔ ¬ score b ≤ score a

/-- The name `a` goes before `b`: it has the higher score, or neither has and it is the
earlier name. -/
inductive Outranks (score : Text → α) (a b : Text) : Prop where
  | score : score b < score a → Outranks score a b
  | name : ¬ score b < score a → ¬ score a < score b → a < b → Outranks score a b

/-- The names that have a property, each once, in a row in which each outranks all that follow. -/
structure Ranking (score : Text → α) (property : Text → Prop) (row : List Text) : Prop where
  mem_iff : ∀ name, name ∈ row ↔ property name
  ordered : row.Pairwise (Outranks score)

/-- A name that may be offered in place of `input`: another candidate whose score reaches the
threshold. -/
structure Qualifies (score : Text → α) (threshold : α) (listing : Listing) (input : Text)
    (path : Option Text) (name : Text) : Prop where
  candidate : Candidate listing path name
  ne_input : name ≠ input
  reaches : threshold ≤ score name

/-- Scores from a linear order are totally ordered. -/
theorem totally_ordered_of_linear_order {β : Type} [LinearOrder β] (score : Text → β) :
    TotallyOrdered score where
  total a b := le_total (score a) (score b)
  trans := le_trans
  lt_iff _ _ := lt_iff_not_ge

variable {score : Text → α} {a b c : Text}

omit [LE α] in
/-- One name outranks another by a higher score, or by its place in the order of names at the same
score. -/
theorem outranks_iff : Outranks score a b ↔
    score b < score a ∨ ¬ score b < score a ∧ ¬ score a < score b ∧ a < b := by
  constructor
  · rintro (hlt | ⟨hba, hab, hname⟩)
    · exact .inl hlt
    · exact .inr ⟨hba, hab, hname⟩
  · rintro (hlt | ⟨hba, hab, hname⟩)
    · exact .score hlt
    · exact .name hba hab hname

instance [DecidableLT α] : Decidable (Outranks score a b) :=
  decidable_of_iff _ outranks_iff.symm

/-- No score is below itself. -/
theorem TotallyOrdered.irrefl (h : TotallyOrdered score) (a : Text) : ¬ score a < score a := by
  rw [h.lt_iff, not_not]
  exact (h.total a a).elim id id

/-- Being at least as high is transitive. -/
theorem TotallyOrdered.not_lt_trans (h : TotallyOrdered score) (hab : ¬ score a < score b)
    (hbc : ¬ score b < score c) : ¬ score a < score c := by
  rw [h.lt_iff, not_not] at hab hbc ⊢
  exact h.trans hbc hab

/-- A name that outranks another does not score below it. -/
theorem Outranks.not_lt (h : TotallyOrdered score) (hab : Outranks score a b) :
    ¬ score a < score b := by
  cases hab with
  | score hlt =>
      rw [h.lt_iff] at hlt ⊢
      exact not_not.mpr ((h.total a b).resolve_left hlt)
  | name _ hnot _ => exact hnot

/-- Of two names at most one outranks the other. -/
theorem Outranks.asymm (h : TotallyOrdered score) (hab : Outranks score a b) :
    ¬ Outranks score b a := by
  intro hba
  cases hab with
  | score hlt => exact hba.not_lt h hlt
  | name _ hnot hname =>
      cases hba with
      | score hlt => exact hnot hlt
      | name _ _ hname' => exact lt_asymm hname hname'

/-- Outranking is transitive: at equal scores by the order of names, which is. -/
theorem Outranks.trans (h : TotallyOrdered score) (hab : Outranks score a b)
    (hbc : Outranks score b c) : Outranks score a c := by
  by_cases hlt : score c < score a
  · exact .score hlt
  · -- Neither step can raise the score, so none of the three scores is higher than another.
    have hca : ¬ score a < score c := h.not_lt_trans (hab.not_lt h) (hbc.not_lt h)
    have hba : ¬ score b < score a := h.not_lt_trans (hbc.not_lt h) hlt
    have hcb : ¬ score c < score b := h.not_lt_trans hlt (hab.not_lt h)
    cases hab with
    | score hlt' => exact absurd hlt' hba
    | name _ _ hname =>
        cases hbc with
        | score hlt' => exact absurd hlt' hcb
        | name _ _ hname' => exact .name hlt hca (lt_trans hname hname')

omit [LE α] in
/-- Two names that are not the same are ranked one way or the other. -/
theorem eq_or_outranks (score : Text → α) (a b : Text) :
    a = b ∨ Outranks score a b ∨ Outranks score b a := by
  by_cases hab : score b < score a
  · exact .inr (.inl (.score hab))
  · by_cases hba : score a < score b
    · exact .inr (.inr (.score hba))
    · rcases lt_trichotomy a b with hname | heq | hname
      · exact .inr (.inl (.name hab hba hname))
      · exact .inl heq
      · exact .inr (.inr (.name hba hab hname))

namespace Ranking

variable {property : Text → Prop} {row other : List Text}

/-- A ranking has no repetitions, since no name outranks itself. -/
theorem nodup (h : TotallyOrdered score) (hrow : Ranking score property row) : row.Nodup := by
  refine hrow.ordered.imp ?_
  rintro a b hab rfl
  exact hab.asymm h hab

/-- There is only one such row. -/
theorem unique (h : TotallyOrdered score) (hrow : Ranking score property row)
    (hother : Ranking score property other) : row = other := by
  have hperm : row.Perm other :=
    (List.perm_ext_iff_of_nodup (hrow.nodup h) (hother.nodup h)).mpr fun name =>
      (hrow.mem_iff name).trans (hother.mem_iff name).symm
  refine hperm.eq_of_pairwise ?_ hrow.ordered hother.ordered
  intro a b _ _ hab hba
  exact absurd hba (hab.asymm h)

omit [LE α] in
/-- What is behind the first names of the row ranks behind each of them. -/
theorem outranks_of_not_mem_take (hrow : Ranking score property row) {n : Nat} {name left : Text}
    (hname : name ∈ row.take n) (hleft : property left) (hnot : left ∉ row.take n) :
    Outranks score name left := by
  have hmem : left ∈ row.drop n := by
    have hrow := (hrow.mem_iff left).mpr hleft
    rw [← List.take_append_drop n row, List.mem_append] at hrow
    exact hrow.resolve_left hnot
  have hordered := hrow.ordered
  rw [← List.take_append_drop n row, List.pairwise_append] at hordered
  exact hordered.2.2 name hname left hmem

end Ranking

end Order

/-! ## Sorting -/

section Sorting

variable {α : Type} [LE α] [LT α] [DecidableLT α] {score : Text → α} {a b : Text}

/-- A name as it is offered. -/
def scored (score : Text → α) (name : Text) : Suggestion α :=
  ⟨name, score name⟩

/-- The comparison that equal scores are settled by is the order of texts. -/
theorem at_most_iff : a.atMost b = true ↔ a ≤ b := by
  rw [← not_lt]
  exact @decide_eq_true_iff _ (List.decidableLE a b)

/-- Whether the name `a` is offered no later than `b`. -/
def before (score : Text → α) (a b : Text) : Bool :=
  precedes (scored score a) (scored score b)

/-- The comparison that candidates are sorted by lets one stand before another that it outranks, or
that is the same. -/
theorem before_iff (h : TotallyOrdered score) :
    before score a b = true ↔ a = b ∨ Outranks score a b := by
  show (if score b < score a then true else if score a < score b then false
    else a.atMost b) = true ↔ _
  constructor
  · intro hprecedes
    split at hprecedes
    · rename_i hlt
      exact .inr (.score hlt)
    · split at hprecedes
      · cases hprecedes
      · rename_i hba hab
        rcases eq_or_lt_of_le (at_most_iff.mp hprecedes) with heq | hname
        · exact .inl heq
        · exact .inr (.name hba hab hname)
  · rintro (rfl | hab)
    · rw [if_neg (h.irrefl a), if_neg (h.irrefl a)]
      exact at_most_iff.mpr (le_refl a)
    · cases hab with
      | score hlt => rw [if_pos hlt]
      | name hba hab hname =>
          rw [if_neg hba, if_neg hab]
          exact at_most_iff.mpr hname.le

/-- The comparison that candidates are sorted by is transitive. -/
theorem before_trans (h : TotallyOrdered score) (a b c : Text) (hab : before score a b = true)
    (hbc : before score b c = true) : before score a c = true := by
  rcases (before_iff h).mp hab with rfl | hab
  · exact hbc
  · rcases (before_iff h).mp hbc with rfl | hbc
    · exact (before_iff h).mpr (.inr hab)
    · exact (before_iff h).mpr (.inr (hab.trans h hbc))

/-- The comparison that candidates are sorted by compares any two. -/
theorem before_total (h : TotallyOrdered score) (a b : Text) :
    (before score a b || before score b a) = true := by
  rw [Bool.or_eq_true]
  rcases eq_or_outranks score a b with rfl | hab | hba
  · exact .inl ((before_iff h).mpr (.inl rfl))
  · exact .inl ((before_iff h).mpr (.inr hab))
  · exact .inr ((before_iff h).mpr (.inr hba))

/-- Sorting puts names that are each there once into a ranking. -/
theorem exists_ranking (h : TotallyOrdered score) {names : List Text} (hnodup : names.Nodup) :
    ∃ row, Ranking score (· ∈ names) row ∧
      (names.map (scored score)).mergeSort precedes = row.map (scored score) := by
  have hperm : (names.mergeSort (before score)).Perm names := List.mergeSort_perm names _
  refine ⟨names.mergeSort (before score), ⟨fun name => hperm.mem_iff, ?_⟩, ?_⟩
  · have hsorted := List.pairwise_mergeSort (before_trans h) (before_total h) names
    -- Names that are each there once are not equal, so each outranks what it is sorted before.
    refine hsorted.imp₂ (fun a b hab hne => ?_) (hperm.nodup_iff.mpr hnodup)
    exact ((before_iff h).mp hab).resolve_left hne
  · symm
    refine List.map_mergeSort ?_
    intro a _ b _
    rfl

variable [DecidableLE α]

/-- What is suggested, with the names that qualify, their order and the cut apart. -/
theorem suggest_by_eq (threshold : α) (listing : Listing) (input : Text) (path : Option Text) :
    suggestBy score threshold listing input path =
      ((((candidates listing path).filter fun name =>
        name != input && decide (threshold ≤ score name)).map (scored score)).mergeSort
          precedes).take limit := by
  rw [suggestBy, rank, List.filter_map, List.filter_filter]
  simp only [Function.comp_def, Bool.and_comm]
  rfl

omit [LT α] [DecidableLT α] in
/-- A candidate is kept if it is not what was written and its score reaches the threshold. -/
theorem mem_filter_candidates {threshold : α} {path : Option Text} {name input : Text} :
    name ∈ (candidates listing path).filter
        (fun name => name != input && decide (threshold ≤ score name)) ↔
      Qualifies score threshold listing input path name := by
  simp only [List.mem_filter, mem_candidates, Bool.and_eq_true, bne_iff_ne, decide_eq_true_eq]
  constructor
  · rintro ⟨hcandidate, hne, hreaches⟩
    exact ⟨hcandidate, hne, hreaches⟩
  · rintro ⟨hcandidate, hne, hreaches⟩
    exact ⟨hcandidate, hne, hreaches⟩

/-- The names that qualify have a ranking, and the first three of it are offered. -/
theorem exists_ranking_suggest_by (h : TotallyOrdered score) (threshold : α) (listing : Listing)
    (input : Text) (path : Option Text) :
    ∃ row, Ranking score (Qualifies score threshold listing input path) row ∧
      suggestBy score threshold listing input path = (row.take 3).map (scored score) := by
  have hnodup : ((candidates listing path).filter fun name =>
      name != input && decide (threshold ≤ score name)).Nodup := (nodup_erase_dups _).filter _
  obtain ⟨row, hrow, hsort⟩ := exists_ranking h hnodup
  refine ⟨row, ⟨fun name => ?_, hrow.ordered⟩, ?_⟩
  · rw [hrow.mem_iff, mem_filter_candidates]
  · rw [suggest_by_eq, List.map_take]
    exact congrArg (List.take limit) hsort

/-- The order and the repetitions of directories on the search path have no effect on what is
suggested: both sides are the beginning of the one ranking of the same names. -/
theorem suggest_by_of_same_directories (h : TotallyOrdered score) (threshold : α) (input : Text)
    {p q : Text} (hsame : SameDirectories listing p q) :
    suggestBy score threshold listing input (some p) =
      suggestBy score threshold listing input (some q) := by
  obtain ⟨row, hrow, heq⟩ := exists_ranking_suggest_by h threshold listing input (some p)
  obtain ⟨other, hother, hother_eq⟩ := exists_ranking_suggest_by h threshold listing input (some q)
  have hqualifies : Qualifies score threshold listing input (some p) =
      Qualifies score threshold listing input (some q) := by
    funext name
    apply propext
    constructor
    · rintro ⟨hcandidate, hne, hreaches⟩
      exact ⟨hcandidate.of_same_directories hsame, hne, hreaches⟩
    · rintro ⟨hcandidate, hne, hreaches⟩
      exact ⟨hcandidate.of_same_directories hsame.symm, hne, hreaches⟩
  rw [hqualifies] at hrow
  rw [heq, hother_eq, hrow.unique h hother]

/-- The names that qualify stand in one row by their scores, those with equal scores in the order of
the names, and the first three of the row are offered, or all if there are fewer. So no name is
offered twice, and one that qualifies and is left out ranks behind all that are offered. What the
search path names twice, in another order, or in vain makes no difference. -/
theorem suggest_law (h : TotallyOrdered score) (threshold : α) (listing : Listing) (input : Text)
    (path : Option Text) :
    (∃ row, Ranking score (Qualifies score threshold listing input path) row ∧
      suggestBy score threshold listing input path =
        (row.take 3).map fun name => ⟨name, score name⟩) ∧
    ((suggestBy score threshold listing input path).map Suggestion.name).Nodup ∧
    (∀ left, Qualifies score threshold listing input path left →
      left ∉ (suggestBy score threshold listing input path).map Suggestion.name →
      ∀ s ∈ suggestBy score threshold listing input path, Outranks score s.name left) ∧
    ∀ p q, SameDirectories listing p q →
      suggestBy score threshold listing input (some p) =
        suggestBy score threshold listing input (some q) := by
  obtain ⟨row, hrow, heq⟩ := exists_ranking_suggest_by h threshold listing input path
  have hnames : (suggestBy score threshold listing input path).map Suggestion.name =
      row.take 3 := by
    rw [heq, List.map_map]
    exact List.map_id _
  -- What is offered is the beginning of one ranking, from which the rest follows.
  refine ⟨⟨row, hrow, heq⟩, ?_, ?_, fun p q => suggest_by_of_same_directories h threshold input⟩
  · rw [hnames]
    exact (hrow.nodup h).sublist (List.take_sublist 3 row)
  · intro left hleft hnot s hs
    rw [hnames] at hnot
    have hname : s.name ∈ row.take 3 := hnames ▸ List.mem_map_of_mem hs
    exact hrow.outranks_of_not_mem_take hname hleft hnot

/-- Of five names that qualify for `x`, `b` has the highest score and the others the least that is
enough, so `e` and `f` are left out, though `e` is in the first directory. The other search path
names the two directories in another order, and one that cannot be listed in place of an empty
component and a repetition. -/
theorem suggest_law_on_ties :
    let listing : Listing := fun directory =>
      if directory = ['d'] then .ok [.text ['e'], .text ['x'], .bytes [255], .text ['b']]
      else if directory = ['g'] then .ok [.text ['c'], .text ['b'], .text ['f'], .text ['a']]
      else .error (.system .noEntry)
    let score : Text → Nat := fun name =>
      if name = ['b'] then 9 else if name = Builtin.cd.name then 4 else 5
    let p : Text := ['d', ':', ':', 'g', ':', 'd']
    let q : Text := ['g', ':', 'y', ':', 'd']
    TotallyOrdered score ∧ SameDirectories listing q p ∧
    suggestBy score 5 listing ['x'] (some q) = [⟨['b'], 9⟩, ⟨['a'], 5⟩, ⟨['c'], 5⟩] ∧
    (∀ s ∈ suggestBy score 5 listing ['x'] (some p), Outranks score s.name ['e']) := by
  intro listing score p q
  have hscore : TotallyOrdered score := totally_ordered_of_linear_order score
  have hsame : SameDirectories listing q p := by
    intro directory entries _ hentries
    by_cases hd : directory = ['d']
    · subst hd
      decide
    · by_cases hg : directory = ['g']
      · subst hg
        decide
      · simp only [listing, if_neg hd, if_neg hg] at hentries
        cases hentries
  have hranking : Ranking score (Qualifies score 5 listing ['x'] (some p))
      [['b'], ['a'], ['c'], ['e'], ['f']] := by
    refine ⟨fun name => ?_, by decide⟩
    rw [← mem_filter_candidates]
    exact List.Perm.mem_iff (by decide)
  obtain ⟨⟨row, hrow, heq⟩, _, hleft, hpaths⟩ := suggest_law hscore 5 listing ['x'] (some p)
  obtain rfl := hrow.unique hscore hranking
  refine ⟨hscore, hsame, (hpaths q p hsame).trans heq, ?_⟩
  have he : Qualifies score 5 listing ['x'] (some p) ['e'] :=
    (hranking.mem_iff ['e']).mp (by decide)
  refine hleft ['e'] he ?_
  rw [heq]
  decide

end Sorting

end LineShell.Suggestion
