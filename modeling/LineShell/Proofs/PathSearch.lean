import LineShell.Proofs.Rows
import LineShell.SearchPath
import Mathlib.Data.List.Basic

/-!
# How a command name is found

`resolve_law` says what looking up a name on the search path comes to: the first directory that can
be listed and has the name decides, and the directories that could not be listed are reported, those
before it if there is one and all of them otherwise. So of a search path in two parts the second is
looked at only where the first does not have the name.
-/

namespace LineShell

namespace SearchPath

/-- The directory can be listed and has an entry of exactly this name. -/
def Has (listing : Listing) (name directory : Text) : Prop :=
  ∃ entries, listing directory = .ok entries ∧ .text name ∈ entries

/-- Those of the directories that cannot be listed, in their order, and why. -/
def unlistable (listing : Listing) (directories : List Text) : List SkippedEntry :=
  directories.filterMap fun directory =>
    match listing directory with
    | .ok _ => none
    | .error reason => some ⟨directory, reason⟩

/-- The directory is the first of the directories that has the name, and comes after `before`. -/
structure FirstWith (listing : Listing) (name : Text) (directories before : List Text)
    (directory : Text) : Prop where
  split : ∃ after, directories = before ++ directory :: after
  has : Has listing name directory
  first : ∀ earlier ∈ before, ¬ Has listing name earlier

/-- The path of the entry `name` of a directory: a `/` is put between them, unless the
directory ends in one. -/
inductive EntryPath (directory name : Text) : Text → Prop where
  | afterSlash : directory.getLast? = some '/' → EntryPath directory name (directory ++ name)
  | withSlash : directory.getLast? ≠ some '/' → EntryPath directory name (directory ++ '/' :: name)

variable {listing : Listing} {name directory path : Text} {directories before : List Text}

/-- The path of an entry is its name behind the directory, with one slash between them. -/
theorem entry_path_iff : EntryPath directory name path ↔ join directory name = path := by
  unfold join
  constructor
  · rintro (hslash | hslash)
    · rw [if_pos hslash]
    · rw [if_neg hslash]
  · rintro rfl
    split
    · rename_i hslash
      exact .afterSlash hslash
    · rename_i hslash
      exact .withSlash hslash

/-! ## Searching -/

/-- The search ends at a directory that has the name. -/
theorem search_cons_of_has (h : Has listing name directory) (rest : List Text) :
    search listing name (directory :: rest) = ([], some directory) := by
  obtain ⟨entries, hentries, hmem⟩ := h
  rw [search, hentries]
  exact if_pos hmem

/-- Directories without the name are passed over, and those that cannot be listed are kept. -/
theorem search_append (h : ∀ earlier ∈ before, ¬ Has listing name earlier) (rest : List Text) :
    search listing name (before ++ rest) =
      (unlistable listing before ++ (search listing name rest).1, (search listing name rest).2) := by
  induction before with
  | nil => rfl
  | cons directory before ih =>
      obtain ⟨hdirectory, hbefore⟩ := List.forall_mem_cons.mp h
      rw [List.cons_append, search, unlistable, List.filterMap_cons]
      cases hlisting : listing directory with
      | error reason =>
          dsimp only
          rw [ih hbefore]
          rfl
      | ok entries =>
          have hnone : ¬ .text name ∈ entries := fun hmem => hdirectory ⟨entries, hlisting, hmem⟩
          dsimp only
          rw [if_neg hnone, ih hbefore]
          rfl

/-- A search that finds nothing goes through all directories and skips those that cannot be listed.
-/
theorem search_of_none (h : ∀ directory ∈ directories, ¬ Has listing name directory) :
    search listing name directories = (unlistable listing directories, none) := by
  have hsearch := search_append h []
  rwa [List.append_nil, search, List.append_nil] at hsearch

/-- A search finds the first directory that has the name, and skips those before it that cannot be
listed. -/
theorem FirstWith.search_eq (h : FirstWith listing name directories before directory) :
    search listing name directories = (unlistable listing before, some directory) := by
  obtain ⟨after, rfl⟩ := h.split
  rw [search_append h.first, search_cons_of_has h.has, List.append_nil]

/-- Either no directory has the name, or there is a first one that has it. -/
theorem none_or_first_with (listing : Listing) (name : Text) (directories : List Text) :
    (∀ directory ∈ directories, ¬ Has listing name directory) ∨
      ∃ before directory, FirstWith listing name directories before directory := by
  rcases forall_not_or_exists_first (Has listing name) directories with
    hnone | ⟨before, directory, after, heq, hfirst, hhas⟩
  · exact .inl hnone
  · exact .inr ⟨before, directory, ⟨after, heq⟩, hhas, hfirst⟩

/-- The directories of two search paths with a `:` between them. -/
theorem directories_append (p q : Text) :
    SearchPath.directories (p ++ ':' :: q) =
      SearchPath.directories p ++ SearchPath.directories q := by
  rw [SearchPath.directories, List.splitOn_append_cons_self, List.filter_append]
  rfl

end SearchPath

/-! ## Looking up a name -/

open SearchPath

variable {listing : Listing} {name : Text}

/-- What a look-up comes to if `skipped` was skipped before it. -/
def resolvedAfter (skipped : List SkippedEntry) :
    Except ResolveError Resolution → Except ResolveError Resolution
  | .ok found => .ok { found with skipped := skipped ++ found.skipped }
  | .error (.notFound name more) => .error (.notFound name (skipped ++ more))
  | .error (.pathUnset name) => .error (.pathUnset name)

/-- There is no other built-in command. -/
theorem Builtin.of_name?_eq_none (hbuiltin : name ≠ Builtin.cd.name) :
    Builtin.ofName? name = none := by
  simpa [Builtin.ofName?, Builtin.all] using Ne.symm hbuiltin

section Searched

variable (hbuiltin : name ≠ Builtin.cd.name) (hslash : '/' ∉ name)

include hbuiltin hslash

/-- A name without slashes that is no built-in command is searched for in the directories of the
path. -/
theorem resolve_eq_of_search (path : Text) : resolve listing name (some path) =
      match search listing name (directories path) with
      | (skipped, some directory) => .ok ⟨.external (join directory name), skipped⟩
      | (skipped, none) => .error (.notFound name skipped) := by
  rw [resolve, Builtin.of_name?_eq_none hbuiltin]
  exact if_neg hslash

/-- A name is found in the first directory that has it. -/
theorem resolve_of_first_with {path directory : Text} {before : List Text}
    (h : FirstWith listing name (directories path) before directory) :
    resolve listing name (some path) =
      .ok ⟨.external (join directory name), unlistable listing before⟩ := by
  rw [resolve_eq_of_search hbuiltin hslash, h.search_eq]

/-- A name that no directory has is not found. -/
theorem resolve_of_none {path : Text}
    (h : ∀ directory ∈ directories path, ¬ Has listing name directory) :
    resolve listing name (some path) =
      .error (.notFound name (unlistable listing (directories path))) := by
  rw [resolve_eq_of_search hbuiltin hslash, search_of_none h]

/-- What a name is found as, and only that. -/
theorem resolve_eq_ok_iff (path : Text) (found : Resolution) :
    resolve listing name (some path) = .ok found ↔
      ∃ before directory program, FirstWith listing name (directories path) before directory ∧
        EntryPath directory name program ∧
        found = ⟨.external program, unlistable listing before⟩ := by
  constructor
  · intro hfound
    rcases none_or_first_with listing name (directories path) with
      hnone | ⟨before, directory, hfirst⟩
    · cases hfound.symm.trans (resolve_of_none hbuiltin hslash hnone)
    · cases hfound.symm.trans (resolve_of_first_with hbuiltin hslash hfirst)
      exact ⟨before, directory, _, hfirst, entry_path_iff.mpr rfl, rfl⟩
  · rintro ⟨before, directory, program, hfirst, hprogram, rfl⟩
    rw [resolve_of_first_with hbuiltin hslash hfirst, entry_path_iff.mp hprogram]

/-- What a name that is not found fails with, and only then. -/
theorem resolve_eq_error_iff (path : Text) (cause : ResolveError) :
    resolve listing name (some path) = .error cause ↔
      (∀ directory ∈ directories path, ¬ Has listing name directory) ∧
        cause = .notFound name (unlistable listing (directories path)) := by
  constructor
  · intro herror
    rcases none_or_first_with listing name (directories path) with
      hnone | ⟨before, directory, hfirst⟩
    · cases herror.symm.trans (resolve_of_none hbuiltin hslash hnone)
      exact ⟨hnone, rfl⟩
    · cases herror.symm.trans (resolve_of_first_with hbuiltin hslash hfirst)
  · rintro ⟨hnone, rfl⟩
    exact resolve_of_none hbuiltin hslash hnone

/-- A name that is found on the first of two search paths is found there on both together. -/
theorem resolve_append_of_ok {p : Text} {found : Resolution}
    (h : resolve listing name (some p) = .ok found) (q : Text) :
    resolve listing name (some (p ++ ':' :: q)) = .ok found := by
  obtain ⟨before, directory, program, hfirst, hprogram, rfl⟩ :=
    (resolve_eq_ok_iff hbuiltin hslash p found).mp h
  refine (resolve_eq_ok_iff hbuiltin hslash _ _).mpr
    ⟨before, directory, program, ⟨?_, hfirst.has, hfirst.first⟩, hprogram, rfl⟩
  obtain ⟨after, heq⟩ := hfirst.split
  exact ⟨after ++ directories q, by
    rw [directories_append, heq, List.append_assoc, List.cons_append]⟩

/-- A name that is not on the first of two search paths is looked up on the second. -/
theorem resolve_append_of_error {p : Text} {cause : ResolveError}
    (h : resolve listing name (some p) = .error cause) (q : Text) :
    resolve listing name (some (p ++ ':' :: q)) =
      resolvedAfter cause.skipped (resolve listing name (some q)) := by
  obtain ⟨hnone, rfl⟩ := (resolve_eq_error_iff hbuiltin hslash p cause).mp h
  rw [resolve_eq_of_search hbuiltin hslash, resolve_eq_of_search hbuiltin hslash,
    directories_append, search_append hnone]
  generalize search listing name (directories q) = searched
  obtain ⟨skipped, directory | directory⟩ := searched
  · rfl
  · rfl

end Searched

/-- A name is looked up in the directories of the search path one after the other. The first that
has it gives the program, and what could not be listed before it was skipped; if none has it, all
that could not be listed was skipped. So a search path in two parts is as good as its first part
where the name is found, and else as good as its second part, after what the first part skipped. -/
theorem resolve_law (listing : Listing) (hbuiltin : name ≠ Builtin.cd.name) (hslash : '/' ∉ name)
    (p : Text) :
    (∀ found, resolve listing name (some p) = .ok found ↔
      ∃ before directory program, FirstWith listing name (directories p) before directory ∧
        EntryPath directory name program ∧
        found = ⟨.external program, unlistable listing before⟩) ∧
    (∀ cause, resolve listing name (some p) = .error cause ↔
      (∀ directory ∈ directories p, ¬ Has listing name directory) ∧
        cause = .notFound name (unlistable listing (directories p))) ∧
    (∀ found, resolve listing name (some p) = .ok found →
      ∀ q, resolve listing name (some (p ++ ':' :: q)) = .ok found) ∧
    ∀ cause, resolve listing name (some p) = .error cause →
      ∀ q, resolve listing name (some (p ++ ':' :: q)) =
        resolvedAfter cause.skipped (resolve listing name (some q)) :=
  ⟨resolve_eq_ok_iff hbuiltin hslash p, resolve_eq_error_iff hbuiltin hslash p,
    fun _ h => resolve_append_of_ok hbuiltin hslash h,
    fun _ h => resolve_append_of_error hbuiltin hslash h⟩

/-- The first search path names, twice, a directory that cannot be listed, and one that has only
`C`. The second finds `c` in a directory that ends in `/`. -/
theorem resolve_law_on_second_path :
    let listing : Listing := fun directory =>
      if directory = ['d', '/'] then .ok [.bytes [255], .text ['c']]
      else if directory = ['e'] then .ok [.text ['C']]
      else .error (.system .noEntry)
    let missing (directory : Text) : SkippedEntry := ⟨directory, .system .noEntry⟩
    let name : Text := ['c']
    let p : Text := ['x', ':', ':', 'e', ':', 'x']
    let q : Text := ['y', ':', 'd', '/', ':', 'z']
    (name ≠ Builtin.cd.name ∧ '/' ∉ name) ∧
    resolve listing name (some p) = .error (.notFound name [missing ['x'], missing ['x']]) ∧
    resolve listing name (some (p ++ ':' :: q)) =
      .ok ⟨.external ['d', '/', 'c'], [missing ['x'], missing ['x'], missing ['y']]⟩ := by
  intro listing missing name p q
  have hbuiltin : name ≠ Builtin.cd.name := by decide
  have hslash : '/' ∉ name := by decide
  have hp : resolve listing name (some p) =
      .error (.notFound name [missing ['x'], missing ['x']]) := by
    decide +kernel
  have hq : resolve listing name (some q) = .ok ⟨.external ['d', '/', 'c'], [missing ['y']]⟩ := by
    decide +kernel
  obtain ⟨_, _, _, hsecond⟩ := resolve_law listing hbuiltin hslash p
  refine ⟨⟨hbuiltin, hslash⟩, hp, ?_⟩
  rw [hsecond _ hp q, hq]
  rfl

end LineShell
