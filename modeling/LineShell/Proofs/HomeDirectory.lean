import LineShell.Execution
import LineShell.Proofs.TextCuts
import LineShell.World

/-!
# Paths seen from home

A target of `cd` that begins with `~/` is a path seen from the home directory. If what follows the
`/` is a relative path, `cd` comes to the same as with the home directory written out before the `/`
(`cd_home_law`). On any system this is so because both go by one path, unless the home directory
ends in `/` and gets no second one. Then both lead to one directory on a disk, or both fail for one
reason; but the longer path counts one byte more, which shows where that is the byte with which a
path becomes too long.

A second `/` behind the `~/` makes the rest an absolute path, and then the home directory is lost:
`cd` goes where the rest alone leads (`home_lost_before_slash`).
-/

namespace LineShell

/-! ## Paths -/

namespace Path

/-- A doubled `/` makes no difference to the names in a path. -/
theorem names_append_slash_slash (a b : Text) :
    names (a ++ '/' :: '/' :: b) = names (a ++ '/' :: b) := by
  have hsplit : ('/' :: b).splitOn '/' = [] :: b.splitOn '/' :=
    List.splitOn_cons_eq_if_modifyHead ..
  have hlast : (a ++ '/' :: '/' :: b).getLast? = (a ++ '/' :: b).getLast? := by
    rw [List.getLast?_append_of_ne_nil _ (List.cons_ne_nil _ _), List.getLast?_cons_cons,
      List.getLast?_append_of_ne_nil _ (List.cons_ne_nil _ _)]
  rw [names, names, hlast, List.splitOn_append_cons_self, List.splitOn_append_cons_self, hsplit,
    List.filter_append, List.filter_append]
  rfl

end Path

namespace Disk

/-- Whether a path is refused before it is followed depends on whether it is empty and on whether it
is too long. -/
theorem refusal?_eq_of_byte_length {p q : Text} (hp : p ≠ []) (hq : q ≠ [])
    (h : pathLimit ≤ Text.byteLength p ↔ pathLimit ≤ Text.byteLength q) :
    refusal? p = refusal? q := by
  simp [refusal?, hp, hq, h]

/-- A place is looked up by the names in its path. What else counts is whether the path starts at
the root, whether it is refused, and whether there is a NUL character in it. -/
theorem locate_eq_of_names_eq {p q : Text} (hnames : Path.names p = Path.names q)
    (habsolute : Path.isAbsolute p = Path.isAbsolute q) (hrefusal : refusal? p = refusal? q)
    (hnul : '\x00' ∈ p ↔ '\x00' ∈ q) (disk : Disk) (directory : Location) :
    disk.locate directory p = disk.locate directory q := by
  simp only [locate, guardNul, lookUp, hnames, habsolute, hrefusal, hnul]

/-- A path that is not refused is walked by its names, and leads to the directory that
is reached. -/
theorem locate_of_walk {disk : Disk} {directory : Location} {path : Text} {names : List Text}
    {location : Location} (hrefusal : refusal? path = none) (hnul : '\x00' ∉ path)
    (hnames : Path.names path = names)
    (h : disk.walk false linkLimit (if Path.isAbsolute path then [] else directory) names =
      .ok (.found location .directory)) :
    disk.locate directory path = .ok (some location) := by
  subst hnames
  simp only [locate, guardNul, lookUp, hrefusal, h, if_neg hnul]
  rfl

/-- A walk that fails is the reason why the path leads nowhere. -/
theorem locate_of_walk_error {disk : Disk} {directory : Location} {path : Text} {names : List Text}
    {cause : SystemError} (hrefusal : refusal? path = none) (hnul : '\x00' ∉ path)
    (hnames : Path.names path = names)
    (h : disk.walk false linkLimit (if Path.isAbsolute path then [] else directory) names =
      .error cause) :
    disk.locate directory path = .error (.system cause) := by
  subst hnames
  simp only [locate, guardNul, lookUp, hrefusal, h, if_neg hnul]
  rfl

/-- A `/` alone leads to the root from everywhere. -/
theorem locate_root {disk : Disk} (hroot : disk.node? [] = some .directory) (directory : Location) :
    disk.locate directory ['/'] = .ok (some []) := by
  have hnames : Path.names ['/'] = [[]] := by decide
  exact locate_of_walk (by decide) (by decide) hnames
    (by simp [Path.isAbsolute, walk, isDirectory, hroot])

/-- A doubled `/` makes no difference to where a path leads, unless it makes the path too long. -/
theorem locate_append_slash_slash {a b : Text}
    (hlimit : Text.byteLength (a ++ '/' :: '/' :: b) ≠ pathLimit) (disk : Disk)
    (directory : Location) :
    disk.locate directory (a ++ '/' :: '/' :: b) = disk.locate directory (a ++ '/' :: b) := by
  have habsolute : Path.isAbsolute (a ++ '/' :: '/' :: b) = Path.isAbsolute (a ++ '/' :: b) := by
    cases a with
    | nil | cons c a => rfl
  have hlength : Text.byteLength (a ++ '/' :: '/' :: b) = Text.byteLength (a ++ '/' :: b) + 1 := by
    rw [Text.byte_length_append, Text.byte_length_append]
    show Text.byteLength a + (1 + (1 + Text.byteLength b)) =
      Text.byteLength a + (1 + Text.byteLength b) + 1
    omega
  have hrefusal : refusal? (a ++ '/' :: '/' :: b) = refusal? (a ++ '/' :: b) :=
    refusal?_eq_of_byte_length (by simp) (by simp) (by omega)
  exact locate_eq_of_names_eq (Path.names_append_slash_slash a b) habsolute hrefusal (by simp) disk
    directory

end Disk

/-! ## Changes of the directory that come to the same -/

namespace Directory

/-- Both changes lead to one directory, or both fail for one reason. The paths that they go
by may be different. -/
inductive SameOutcome :
    Except CdError (Text × Location) → Except CdError (Text × Location) → Prop where
  | moved (p q : Text) (location : Location) : SameOutcome (.ok (p, location)) (.ok (q, location))
  | noHome : SameOutcome (.error .noHome) (.error .noHome)
  | notFound (p q : Text) : SameOutcome (.error (.notFound p)) (.error (.notFound q))
  | notDirectory (p q : Text) : SameOutcome (.error (.notDirectory p)) (.error (.notDirectory q))
  | io (p q : Text) (cause : IoError) : SameOutcome (.error (.io p cause)) (.error (.io q cause))

/-- Everything comes to the same as itself. -/
theorem SameOutcome.refl (outcome : Except CdError (Text × Location)) :
    SameOutcome outcome outcome := by
  cases outcome with
  | ok reached => exact .moved _ _ _
  | error e =>
      cases e with
      | noHome => exact .noHome
      | notFound path => exact .notFound _ _
      | notDirectory path => exact .notDirectory _ _
      | io path cause => exact .io _ _ _

variable {home : Option Text} {locate : Locator} {move : Mover} {target : Option Text}
  {path p q : Text}

/-- A target that stands for a directory leads there, if the system goes there. -/
theorem change_of_locate {found location : Location} (hpath : targetPath? home target = some path)
    (hlocate : locate path = .ok (some found)) (hmove : move path = .ok location) :
    change home locate move target = .ok (path, location) := by
  simp only [change, hpath, enter, hlocate, hmove]

/-- A target that stands for nothing fails. -/
theorem change_of_missing (hpath : targetPath? home target = some path)
    (hlocate : locate path = .error (.system .noEntry)) :
    change home locate move target = .error (.notFound path) := by
  simp only [change, hpath, enter, hlocate]

/-- Paths come to the same if they are looked up and gone to alike. -/
theorem same_outcome_enter (hlocate : locate p = locate q) (hmove : move p = move q) :
    SameOutcome (enter locate move p) (enter locate move q) := by
  unfold enter
  rw [hlocate, hmove]
  split
  · split
    · exact .moved _ _ _
    · exact .io _ _ _
  · exact .notDirectory _ _
  · exact .notFound _ _
  · exact .io _ _ _

/-- Targets that stand for one path come to the same. -/
theorem change_eq_of_target {a b : Option Text} (h : targetPath? home a = targetPath? home b) :
    change home locate move a = change home locate move b := by
  rw [change, change, h]

/-- A path from the root stands for itself. -/
theorem target_path?_of_absolute (h : Path.isAbsolute path = true) (home : Option Text) :
    targetPath? home (some path) = some path := by
  cases path with
  | nil => cases h
  | cons c path =>
      obtain rfl : c = '/' := by simpa [Path.isAbsolute] using h
      rfl

/-- An absolute path behind `~/` stands for itself as well: the home directory is lost. -/
theorem target_path?_of_home_slash {home rest : Text} (h : Path.isAbsolute rest = true) :
    targetPath? (some home) (some ('~' :: '/' :: rest)) =
      targetPath? (some home) (some rest) := by
  rw [target_path?_of_absolute h]
  exact congrArg some (if_pos h)

/-- What follows an absolute path makes no difference to where it starts. -/
theorem is_absolute_append {home : Text} (h : Path.isAbsolute home = true) (rest : Text) :
    Path.isAbsolute (home ++ rest) = true := by
  cases home with
  | nil => cases h
  | cons c home => exact h

/-- A relative path behind `~/` stands for the path behind the home directory and a `/`, if the home
directory does not end in `/` itself. -/
theorem target_path?_of_relative {home rest : Text} (hhome : Path.isAbsolute home = true)
    (hrest : Path.isAbsolute rest = false) (hlast : home.getLast? ≠ some '/') :
    targetPath? (some home) (some ('~' :: '/' :: rest)) =
      targetPath? (some home) (some (home ++ '/' :: rest)) := by
  have hempty : home ≠ [] := by
    rintro rfl
    cases hhome
  have hjoin : Path.join home rest = home ++ '/' :: rest := by
    simp [Path.join, hrest, hempty, hlast]
  rw [target_path?_of_absolute (is_absolute_append hhome _)]
  exact congrArg some hjoin

end Directory

/-! ## The shell's directory -/

namespace World

variable {w : World} {context : Context} {p q : Text}

/-- Paths that are looked up alike are gone to alike. -/
theorem move_eq_of_locate_eq
    (h : w.disk.locate context.directory p = w.disk.locate context.directory q) :
    w.move context p = w.move context q := by
  rw [move, move, h]

/-- Every directory that is found can be gone to. -/
theorem move_of_locate {location : Location}
    (h : w.disk.locate context.directory p = .ok (some location)) :
    w.move context p = .ok location := by
  rw [move, h]

end World

namespace Desk

variable {σ : Type} {host : Host σ} {desk : Desk σ}

/-- What a target of `cd` comes to. -/
def targetOutcome (host : Host σ) (desk : Desk σ) (target : Text) :
    Except CdError (Text × Location) :=
  Directory.change host.home (host.locate desk.state desk.context)
    (host.move desk.state desk.context) (some target)

/-- What the shell holds after `cd` to a target. -/
def contextAfter (host : Host σ) (desk : Desk σ) (target : Text) : Context :=
  (desk.runBuiltin host .cd [target]).2.context

/-- `cd` moves the shell where its target leads, and nowhere if it leads nowhere. -/
theorem context_after_eq (host : Host σ) (desk : Desk σ) (target : Text) :
    desk.contextAfter host target =
      match desk.targetOutcome host target with
      | .ok (_, directory) => { desk.context with directory }
      | .error _ => desk.context := by
  simp only [contextAfter, runBuiltin, targetOutcome, List.head?_cons]
  split
  · rename_i h
    rw [h]
    rfl
  · rename_i h
    rw [h]
    rfl

/-- Two targets of `cd` come to the same and move the shell alike. -/
structure CdAgree (host : Host σ) (desk : Desk σ) (a b : Text) : Prop where
  outcome : Directory.SameOutcome (desk.targetOutcome host a) (desk.targetOutcome host b)
  context : desk.contextAfter host a = desk.contextAfter host b

/-- Targets that come to the same move the shell alike. -/
theorem CdAgree.of_same_outcome {a b : Text}
    (h : Directory.SameOutcome (desk.targetOutcome host a) (desk.targetOutcome host b)) :
    desk.CdAgree host a b := by
  refine ⟨h, ?_⟩
  rw [context_after_eq, context_after_eq]
  generalize desk.targetOutcome host a = first at h ⊢
  generalize desk.targetOutcome host b = second at h ⊢
  cases h with
  | moved | noHome | notFound | notDirectory | io => rfl

/-- On a disk a home directory that ends in `/` can be written out before a further `/`. -/
theorem CdAgree.of_trailing_slash {home rest : Text} (hhome : Path.isAbsolute home = true)
    (hrest : Path.isAbsolute rest = false) (hlast : home.getLast? = some '/')
    (hlimit : Text.byteLength (home ++ '/' :: rest) ≠ Disk.pathLimit) (desk : Desk World) :
    desk.CdAgree (World.host home) ('~' :: '/' :: rest) (home ++ '/' :: rest) := by
  apply CdAgree.of_same_outcome
  -- The home directory brings its own `/`, and the other path has two.
  obtain ⟨start, rfl⟩ := List.getLast?_eq_some_iff.mp hlast
  have hjoin : Path.join (start ++ ['/']) rest = start ++ '/' :: rest := by
    simp [Path.join, hrest]
  have hdouble : start ++ ['/'] ++ '/' :: rest = start ++ '/' :: '/' :: rest := by simp
  have hfull := Directory.is_absolute_append hhome ('/' :: rest)
  rw [hdouble] at hlimit hfull ⊢
  have hlocate : desk.state.disk.locate desk.context.directory (start ++ '/' :: rest) =
      desk.state.disk.locate desk.context.directory (start ++ '/' :: '/' :: rest) :=
    (Disk.locate_append_slash_slash hlimit _ _).symm
  have houtcome : desk.targetOutcome (World.host (start ++ ['/'])) ('~' :: '/' :: rest) =
      Directory.enter (desk.state.disk.locate desk.context.directory)
        (World.move desk.state desk.context) (start ++ '/' :: rest) := by
    rw [← hjoin]
    rfl
  have houtcome' : desk.targetOutcome (World.host (start ++ ['/'])) (start ++ '/' :: '/' :: rest) =
      Directory.enter (desk.state.disk.locate desk.context.directory)
        (World.move desk.state desk.context) (start ++ '/' :: '/' :: rest) := by
    rw [targetOutcome, Directory.change, Directory.target_path?_of_absolute hfull]
    rfl
  rw [houtcome, houtcome']
  exact Directory.same_outcome_enter hlocate (World.move_eq_of_locate_eq hlocate)

end Desk

/-- With an absolute home directory, and whatever the system, a relative path behind `~/` comes to
the same as behind the home directory and a `/`, if the home directory does not end in `/`. If it
does, the second `/` makes no difference on a disk unless it makes the path too long. An absolute
path behind `~/` comes to the same as alone, wherever the home directory is. The shell moves where
the target leads, and stays where it is if the target leads nowhere. -/
theorem cd_home_law {home : Text} (hhome : Path.isAbsolute home = true) (rest : Text) :
    (∀ {σ : Type} (host : Host σ) (desk : Desk σ), host.home = some home →
      (Path.isAbsolute rest = false → home.getLast? ≠ some '/' →
        desk.targetOutcome host ('~' :: '/' :: rest) = desk.targetOutcome host (home ++ '/' :: rest) ∧
        desk.contextAfter host ('~' :: '/' :: rest) = desk.contextAfter host (home ++ '/' :: rest)) ∧
      (Path.isAbsolute rest = true →
        desk.targetOutcome host ('~' :: '/' :: rest) = desk.targetOutcome host rest ∧
        desk.contextAfter host ('~' :: '/' :: rest) = desk.contextAfter host rest) ∧
      (∀ target path directory, desk.targetOutcome host target = .ok (path, directory) →
        desk.contextAfter host target = { desk.context with directory }) ∧
      ∀ target e, desk.targetOutcome host target = .error e →
        desk.contextAfter host target = desk.context) ∧
    ∀ desk : Desk World, Path.isAbsolute rest = false →
      (home.getLast? = some '/' → Text.byteLength (home ++ '/' :: rest) ≠ Disk.pathLimit) →
      desk.CdAgree (World.host home) ('~' :: '/' :: rest) (home ++ '/' :: rest) := by
  have hsame {σ : Type} (host : Host σ) (desk : Desk σ) (hhost : host.home = some home)
      (hrest : Path.isAbsolute rest = false) (hlast : home.getLast? ≠ some '/') :
      desk.targetOutcome host ('~' :: '/' :: rest) =
        desk.targetOutcome host (home ++ '/' :: rest) := by
    rw [Desk.targetOutcome, Desk.targetOutcome, hhost]
    exact Directory.change_eq_of_target (Directory.target_path?_of_relative hhome hrest hlast)
  refine ⟨fun host desk hhost => ⟨fun hrest hlast => ?_, fun hrest => ?_, ?_, ?_⟩,
    fun desk hrest hlimit => ?_⟩
  · have houtcome := hsame host desk hhost hrest hlast
    exact ⟨houtcome, by rw [Desk.context_after_eq, Desk.context_after_eq, houtcome]⟩
  · have houtcome : desk.targetOutcome host ('~' :: '/' :: rest) = desk.targetOutcome host rest := by
      rw [Desk.targetOutcome, Desk.targetOutcome, hhost]
      exact Directory.change_eq_of_target (Directory.target_path?_of_home_slash hrest)
    exact ⟨houtcome, by rw [Desk.context_after_eq, Desk.context_after_eq, houtcome]⟩
  · intro target path directory h
    rw [Desk.context_after_eq, h]
  · intro target e h
    rw [Desk.context_after_eq, h]
  · -- Only a trailing slash takes the disk: without one the paths themselves are the same.
    by_cases hlast : home.getLast? = some '/'
    · exact .of_trailing_slash hhome hrest hlast (hlimit hlast) desk
    · apply Desk.CdAgree.of_same_outcome
      rw [hsame (World.host home) desk rfl hrest hlast]
      exact .refl _

/-- The home directory `/h/` ends in `/`, and the path written out has two. The relative path asks
for a directory by a `/` at its own end, and the absolute one is the root. -/
theorem cd_home_law_with_trailing_slash :
    let disk : Disk :=
      ⟨[([], .directory), ([['h']], .directory), ([['h'], ['a']], .directory)]⟩
    let desk : Desk World :=
      ⟨⟨World.firstTable none, [['h'], ['a']], 0⟩, World.start disk .empty, []⟩
    let home : Text := ['/', 'h', '/']
    let host := World.host home
    (Path.isAbsolute home = true ∧ host.home = some home ∧ Path.isAbsolute ['a', '/'] = false ∧
      Text.byteLength (home ++ ['/', 'a', '/']) ≠ Disk.pathLimit ∧ Path.isAbsolute ['/'] = true) ∧
    desk.CdAgree host ['~', '/', 'a', '/'] (home ++ ['/', 'a', '/']) ∧
    (desk.targetOutcome host ['~', '/', '/'] = desk.targetOutcome host ['/'] ∧
      desk.contextAfter host ['~', '/', '/'] = desk.contextAfter host ['/']) ∧
    desk.contextAfter host ['/'] = { desk.context with directory := [] } ∧
    desk.contextAfter host ['b'] = desk.context := by
  intro disk desk home host
  have hhome : Path.isAbsolute home = true := by decide
  have hrelative : Path.isAbsolute ['a', '/'] = false := by decide
  have hlimit : Text.byteLength (home ++ ['/', 'a', '/']) ≠ Disk.pathLimit := by decide
  have habsolute : Path.isAbsolute ['/'] = true := by decide
  have hroot : desk.targetOutcome host ['/'] = .ok (['/'], []) := by
    have hroot : disk.node? [] = some .directory := rfl
    have hlocate := Disk.locate_root hroot desk.context.directory
    exact Directory.change_of_locate rfl hlocate (World.move_of_locate hlocate)
  have hnone : desk.targetOutcome host ['b'] = .error (.notFound ['b']) := by
    have hnames : Path.names ['b'] = [['b']] := by decide
    have hhere : disk.node? [['h'], ['a']] = some .directory := rfl
    have hnode : disk.node? [['h'], ['a'], ['b']] = none := rfl
    have hlength : ¬ Disk.nameLimit < Text.byteLength ['b'] := by decide
    have hlocate : disk.locate [['h'], ['a']] ['b'] = .error (.system .noEntry) :=
      Disk.locate_of_walk_error (by decide) (by decide) hnames
        (by simp [Path.isAbsolute, Disk.walk, Disk.isDirectory, hhere, hnode, hlength])
    exact Directory.change_of_missing rfl hlocate
  obtain ⟨_, habsoluteRest, _, _⟩ := (cd_home_law hhome ['/']).1 host desk rfl
  obtain ⟨_, _, hmoved, hstayed⟩ := (cd_home_law hhome []).1 host desk rfl
  exact ⟨⟨hhome, rfl, hrelative, hlimit, habsolute⟩,
    (cd_home_law hhome ['a', '/']).2 desk hrelative fun _ => hlimit,
    habsoluteRest habsolute, hmoved _ _ _ hroot, hstayed _ _ hnone⟩

/-- With a second `/` behind `~/` the home directory is lost: the target leads to the root, and with
the home directory written out it leads home. -/
theorem home_lost_before_slash :
    let disk : Disk := ⟨[([], .directory), ([['h']], .directory)]⟩
    let desk : Desk World := ⟨⟨World.firstTable none, [], 0⟩, World.start disk .empty, []⟩
    let home : Text := ['/', 'h']
    let rest : Text := ['/']
    let outcome := desk.targetOutcome (World.host home)
    Path.isAbsolute home = true ∧
    outcome ('~' :: '/' :: rest) = .ok (['/'], []) ∧
    outcome (home ++ '/' :: rest) = .ok (['/', 'h', '/', '/'], [['h']]) ∧
    ¬ Directory.SameOutcome (outcome ('~' :: '/' :: rest)) (outcome (home ++ '/' :: rest)) := by
  intro disk desk home rest outcome
  have hroot : disk.node? [] = some .directory := rfl
  have hhome : disk.node? [['h']] = some .directory := rfl
  have hlost : outcome ('~' :: '/' :: rest) = .ok (['/'], []) := by
    have hlocate := Disk.locate_root hroot desk.context.directory
    exact Directory.change_of_locate rfl hlocate (World.move_of_locate hlocate)
  have hkept : outcome (home ++ '/' :: rest) = .ok (['/', 'h', '/', '/'], [['h']]) := by
    have hnames : Path.names ['/', 'h', '/', '/'] = [['h'], []] := by decide
    have hlength : ¬ Disk.nameLimit < Text.byteLength ['h'] := by decide
    have hlocate : disk.locate [] ['/', 'h', '/', '/'] = .ok (some [['h']]) :=
      Disk.locate_of_walk (by decide) (by decide) hnames
        (by simp [Path.isAbsolute, Disk.walk, Disk.isDirectory, hroot, hhome, hlength])
    exact Directory.change_of_locate rfl hlocate (World.move_of_locate hlocate)
  refine ⟨by decide, hlost, hkept, ?_⟩
  rw [hlost, hkept]
  intro h
  cases h

end LineShell
