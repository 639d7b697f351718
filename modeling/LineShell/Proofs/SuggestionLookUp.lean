import LineShell.Proofs.SuggestionRanking

/-!
# What an offered name stands for

A name that is offered can be run: `suggested_law` says that looking it up on the same search path
finds a program, the built-in command of that name or else the entry of a directory that can be
listed. Candidates are collected from all directories and a look-up stops at the first, but both
look at the same ones, so every candidate is found (`Candidate.exists_resolution`). So a name that
is not found is no candidate, and not to offer it in its own place takes nothing away.

Scores play no part in this, and may be any.
-/

namespace LineShell.Suggestion

open SearchPath

/-- No entry of a directory has a `/` in its name. -/
def SlashFree (listing : Listing) : Prop :=
  ∀ directory entries name, listing directory = .ok entries → .text name ∈ entries → '/' ∉ name

/-- The program that a candidate stands for: the built-in command of its name, or else the file of
its name in a directory on the search path that can be listed and has it. -/
inductive StandsFor (listing : Listing) (path : Option Text) (name : Text) : Program → Prop where
  | builtin {command : Builtin} : command.name = name →
      StandsFor listing path name (.builtin command)
  | entry {value directory program : Text} : name ≠ Builtin.cd.name → path = some value →
      directory ∈ directories value → Has listing name directory →
      EntryPath directory name program → StandsFor listing path name (.external program)

variable {listing : Listing} {path : Option Text} {name input : Text}

/-- A candidate has no slash in its name if no entry of a directory has one: the built-ins have none
either. -/
theorem SlashFree.slash_not_mem (h : SlashFree listing) (hname : Candidate listing path name) :
    '/' ∉ name := by
  cases hname with
  | builtin command => cases command; decide
  | entry _ _ hhas =>
      obtain ⟨entries, hentries, hmem⟩ := hhas
      exact h _ entries name hentries hmem

/-- The name of a built-in command stands for it on every path. -/
theorem resolve_builtin (listing : Listing) (path : Option Text) (command : Builtin) :
    resolve listing command.name path = .ok ⟨.builtin command, []⟩ := by
  cases command
  rfl

/-- A name with a slash stands for itself and is not looked up. -/
theorem resolve_of_slash (hbuiltin : name ≠ Builtin.cd.name) (hslash : '/' ∈ name) :
    resolve listing name path = .ok ⟨.external name, []⟩ := by
  unfold resolve
  rw [Builtin.of_name?_eq_none hbuiltin]
  exact if_pos hslash

/-- A candidate is found. A text with a `/` in it would stand for itself. -/
theorem Candidate.exists_resolution (h : Candidate listing path name) :
    ∃ found, resolve listing name path = .ok found ∧
      ('/' ∉ name → StandsFor listing path name found.program) := by
  cases h with
  | builtin command => exact ⟨_, resolve_builtin listing path command, fun _ => .builtin rfl⟩
  | @entry value directory name hvalue hdirectory hhas =>
      by_cases hbuiltin : name = Builtin.cd.name
      · rw [hbuiltin]
        exact ⟨_, resolve_builtin listing path .cd, fun _ => .builtin rfl⟩
      · by_cases hslash : '/' ∈ name
        · exact ⟨_, resolve_of_slash hbuiltin hslash, fun hnot => absurd hslash hnot⟩
        · rcases none_or_first_with listing name (directories value) with
            hnone | ⟨before, first, hfirst⟩
          · exact absurd hhas (hnone directory hdirectory)
          · -- The look-up may stop at an earlier directory than the one the candidate came from.
            obtain ⟨after, heq⟩ := hfirst.split
            have hmem : first ∈ directories value := by
              rw [heq]
              exact List.mem_append_right before List.mem_cons_self
            rw [hvalue, resolve_of_first_with hbuiltin hslash hfirst]
            exact ⟨_, rfl, fun _ => .entry hbuiltin rfl hmem hfirst.has (entry_path_iff.mpr rfl)⟩

/-- A name that cannot be resolved is no candidate. -/
theorem not_candidate_of_error {cause : ResolveError}
    (h : resolve listing name path = .error cause) : ¬ Candidate listing path name := by
  intro hcandidate
  obtain ⟨found, hfound, _⟩ := hcandidate.exists_resolution
  cases h.symm.trans hfound

section Offered

variable {α : Type} [LE α] [DecidableLE α] [LT α] [DecidableLT α] {score : Text → α} {threshold : α}

/-- What is suggested qualifies. -/
theorem qualifies_of_mem_suggest_by {s : Suggestion α}
    (h : s ∈ suggestBy score threshold listing input path) :
    Qualifies score threshold listing input path s.name := by
  rw [suggest_by_eq] at h
  have hmem := List.mem_mergeSort.mp (List.mem_of_mem_take h)
  obtain ⟨name, hname, rfl⟩ := List.mem_map.mp hmem
  exact mem_filter_candidates.mp hname

/-- Every name that is offered is found on the same search path, and stands for the built-in command
of that name, or else for a file of that name in a directory that can be listed. A name that is not
found is no candidate, so among the candidates there is nothing to leave out for it. -/
theorem suggested_law (score : Text → α) (threshold : α) (listing : Listing) (input : Text)
    (path : Option Text) :
    (∀ s ∈ suggestBy score threshold listing input path, ∃ found,
      resolve listing s.name path = .ok found ∧
        (SlashFree listing → StandsFor listing path s.name found.program)) ∧
    ∀ name cause, resolve listing name path = .error cause →
      name ∉ candidates listing path ∧
        (candidates listing path).filter (· != name) = candidates listing path := by
  constructor
  · intro s hs
    have hcandidate := (qualifies_of_mem_suggest_by hs).candidate
    obtain ⟨found, hfound, hstands⟩ := hcandidate.exists_resolution
    exact ⟨found, hfound, fun hfree => hstands (hfree.slash_not_mem hcandidate)⟩
  · intro name cause herror
    have hnot : name ∉ candidates listing path := fun hmem =>
      not_candidate_of_error herror (mem_candidates.mp hmem)
    refine ⟨hnot, List.filter_eq_self.mpr fun other hother => ?_⟩
    rw [bne_iff_ne]
    rintro rfl
    exact hnot hother

/-- `b` is offered for `x`, and found in the first of two directories that have it. `x` is not
found, so it was no candidate. -/
theorem suggested_law_in_second_directory :
    let listing : Listing := fun directory =>
      if directory = ['d'] then .ok [.text ['b'], .bytes [255]]
      else if directory = ['g', '/'] then .ok [.text ['c'], .text ['b']]
      else .error (.system .noEntry)
    let path : Option Text := some ['y', ':', 'g', '/', ':', 'd']
    let score : Text → Nat := fun _ => 1
    let offered : List (Suggestion Nat) := suggestBy score 1 listing ['x'] path
    SlashFree listing ∧ ⟨['b'], 1⟩ ∈ offered ∧
    (∃ found, resolve listing ['b'] path = .ok found ∧
      StandsFor listing path ['b'] found.program) ∧
    resolve listing ['x'] path = .error (.notFound ['x'] [⟨['y'], .system .noEntry⟩]) ∧
    ['x'] ∉ candidates listing path := by
  intro listing path score offered
  have hfree : SlashFree listing := by
    intro directory entries name hentries hmem
    by_cases hd : directory = ['d']
    · subst hd
      cases hentries
      obtain rfl : name = ['b'] := by simpa using hmem
      decide
    · by_cases hg : directory = ['g', '/']
      · subst hg
        cases hentries
        have hname : name = ['c'] ∨ name = ['b'] := by simpa using hmem
        rcases hname with rfl | rfl <;> decide
      · simp only [listing, if_neg hd, if_neg hg] at hentries
        cases hentries
  have hscore : TotallyOrdered score := totally_ordered_of_linear_order score
  have hranking : Ranking score (Qualifies score 1 listing ['x'] path)
      [['b'], ['c'], Builtin.cd.name] := by
    refine ⟨fun name => ?_, by decide⟩
    rw [← mem_filter_candidates]
    exact List.Perm.mem_iff (by decide)
  obtain ⟨row, hrow, heq⟩ := exists_ranking_suggest_by hscore 1 listing ['x'] path
  obtain rfl := hrow.unique hscore hranking
  have hoffered : offered = [⟨['b'], 1⟩, ⟨['c'], 1⟩, ⟨Builtin.cd.name, 1⟩] := heq
  have hb : ⟨['b'], 1⟩ ∈ offered := hoffered ▸ List.mem_cons_self
  have hnotFound : resolve listing ['x'] path =
      .error (.notFound ['x'] [⟨['y'], .system .noEntry⟩]) := by
    rfl
  obtain ⟨hfound, hnot⟩ := suggested_law score 1 listing ['x'] path
  obtain ⟨found, hresolve, hstands⟩ := hfound _ hb
  exact ⟨hfree, hb, ⟨found, hresolve, hstands hfree⟩, hnotFound, (hnot _ _ hnotFound).1⟩

end Offered

end LineShell.Suggestion
