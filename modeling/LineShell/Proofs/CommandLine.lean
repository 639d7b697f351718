import LineShell.Invocation
import Mathlib.Data.List.Induction

/-!
# How the command line is read

A command line is a row of items, each an init file in one of two forms or a script (`Item`,
`Item.WrittenAs`). `parse_law` says what every list of arguments comes to: its items are read from
the left as far as there are any, in the only way in which they can be (`ReadTo`), and where no
further one can be read the next argument decides (`ComesTo`). The form in which an init file is
given makes no difference.

Each argument is looked at once, by `classify`; `classified` says what it makes of any, and nothing
else unfolds it. How the text of an argument is come by makes no difference to the reading, so its
steps are taken in any monad: `parse_from_read_to` reads the items, and `exists_comes_to` looks at
what is left.
-/

namespace LineShell.Invocation

/-- What a part of the command line says. -/
inductive Item where
  /-- The init file is `file`. -/
  | init (file : Text)
  /-- The script is `path`. -/
  | script (path : Text)
  deriving DecidableEq, Repr

namespace Item

/-- An argument that names a script: it is `-`, or does not start with `-`. -/
def Positional (argument : Text) : Prop :=
  argument = ['-'] ∨ argument.head? ≠ some '-'

/-- The arguments that an item is written with. After `-i` any argument is a file. -/
inductive WrittenAs : Item → List Text → Prop where
  | separate (file : Text) : WrittenAs (.init file) [['-', 'i'], file]
  | joined {file : Text} : file ≠ [] → WrittenAs (.init file) ["--init-file=".toList ++ file]
  | positional {path : Text} : Positional path → WrittenAs (.script path) [path]

/-- The init file that an item names. -/
def file? : Item → Option Text
  | init file => some file
  | script _ => none

/-- The script that an item names. -/
def script? : Item → Option Text
  | init _ => none
  | script path => some path

end Item

/-- The arguments are those of `items`, one after the other, and then `rest`, with which
no further item begins. -/
inductive ReadTo : List Text → List Item → List Text → Prop where
  | stop {rest : List Text} :
      (∀ item written after, Item.WrittenAs item written → rest ≠ written ++ after) →
      ReadTo rest [] rest
  | item {item : Item} {written after rest : List Text} {items : List Item} :
      item.WrittenAs written → ReadTo after items rest →
      ReadTo (written ++ after) (item :: items) rest

/-- The init file that counts among those that items name: the last. -/
def lastFile? (items : List Item) : Option Text :=
  (items.filterMap Item.file?).getLast?

/-- The script that counts among those that items name: the last. -/
def lastScript? (items : List Item) : Option Text :=
  (items.filterMap Item.script?).getLast?

/-- What the items of a whole command line ask for. -/
structure Asks (env : Environment) (items : List Item) (settings : Settings) : Prop where
  /-- Without an init file on the command line it is that in the home directory. -/
  initFile : settings.initFile = (lastFile? items).or env.initFile?
  initExplicit : settings.initExplicit = true ↔ ∃ file, .init file ∈ items
  script : settings.script = lastScript? items
  format : settings.format = env.format

/-- What a command line comes to by its items and by what is left after them. -/
inductive ComesTo (env : Environment) (items : List Item) :
    List Text → Except UsageError Invocation → Prop where
  | run {settings : Settings} : Asks env items settings → ComesTo env items [] (.ok (.run settings))
  | help {argument : Text} {rest : List Text} :
      argument = ['-', 'h'] ∨ argument = "--help".toList →
      ComesTo env items (argument :: rest) (.ok .help)
  | missing : ComesTo env items [['-', 'i']] (.error .missingInitFile)
  | empty {rest : List Text} :
      ComesTo env items ("--init-file=".toList :: rest) (.error .emptyInitFile)
  | unknown {argument : Text} {rest : List Text} : argument ≠ ['-', 'h'] →
      argument ≠ "--help".toList → argument ≠ ['-', 'i'] → argument ≠ "--init-file=".toList →
      ComesTo env items (argument :: rest) (.error (.unknownOption argument))

/-! ## Single arguments -/

/-- What an argument says by itself. -/
inductive Classified (argument : Text) : Argument → Prop where
  | help : argument = ['-', 'h'] ∨ argument = "--help".toList → Classified argument .help
  | initFollows : argument = ['-', 'i'] → Classified argument .initFollows
  | initFile {file : Text} : argument = "--init-file=".toList ++ file → file ≠ [] →
      Classified argument (.initFile file)
  | empty : argument = "--init-file=".toList → Classified argument (.refused .emptyInitFile)
  | script : Item.Positional argument → Classified argument (.script argument)
  | unknown : argument ≠ ['-', 'h'] → argument ≠ "--help".toList → argument ≠ ['-', 'i'] →
      (∀ file, argument ≠ "--init-file=".toList ++ file) → ¬ Item.Positional argument →
      Classified argument (.refused (.unknownOption argument))

/-- What an argument is taken for is what it says: the tests that `classify` makes in order rule
each other out. -/
theorem classified (argument : Text) : Classified argument (classify argument) := by
  unfold classify
  split
  · rename_i hhelp
    simp only [helpOptions, List.mem_cons, List.not_mem_nil, or_false] at hhelp
    exact .help hhelp
  · rename_i hhelp
    simp only [helpOptions, List.mem_cons, List.not_mem_nil, or_false, not_or] at hhelp
    split
    · rename_i hinit
      exact .initFollows hinit
    · rename_i hinit
      split
      · rename_i hprefix
        obtain ⟨file, rfl⟩ := List.isPrefixOf_iff_prefix.mp hprefix
        rw [List.drop_left]
        cases file with
        | nil => exact .empty (List.append_nil _)
        | cons c file => exact .initFile rfl (List.cons_ne_nil c file)
      · rename_i hprefix
        have hjoined : ∀ file, argument ≠ "--init-file=".toList ++ file := by
          rintro file rfl
          exact hprefix (List.isPrefixOf_iff_prefix.mpr (List.prefix_append _ _))
        split
        · rename_i hdash
          refine .unknown hhelp.1 hhelp.2 hinit hjoined ?_
          rintro (h | h)
          · exact hdash.2 h
          · exact h hdash.1
        · rename_i hdash
          refine .script ?_
          by_cases h : argument.head? = some '-'
          · exact .inl (not_not.mp fun hne => hdash ⟨h, hne⟩)
          · exact .inr h

/-! ## Items -/

namespace Item

/-- Of the arguments with two characters or more, those that start with `-` name no script. -/
theorem not_positional_cons {c d : Char} {rest : Text} : ¬ Positional (c :: d :: rest) ↔ c = '-' := by
  simp [Positional]

/-- Only a script is written with an argument that names one. -/
theorem WrittenAs.eq_script {item : Item} {path : Text} {written after rest : List Text}
    (h : item.WrittenAs written) (hpath : Positional path) (heq : written ++ after = path :: rest) :
    item = .script path ∧ after = rest := by
  cases h with
  | separate file =>
      obtain ⟨rfl, _⟩ := List.cons.inj heq
      exact absurd hpath (not_positional_cons.mpr rfl)
  | joined hne =>
      obtain ⟨rfl, _⟩ := List.cons.inj heq
      exact absurd hpath (not_positional_cons.mpr rfl)
  | positional _ =>
      obtain ⟨rfl, rfl⟩ := List.cons.inj heq
      exact ⟨rfl, rfl⟩

/-- At most one item begins a list of arguments. -/
theorem WrittenAs.unique {item other : Item} {written written' after after' : List Text}
    (h : item.WrittenAs written) (hother : other.WrittenAs written')
    (heq : written ++ after = written' ++ after') : item = other ∧ after = after' := by
  cases h with
  | separate file =>
      cases hother with
      | separate file' => simpa using heq
      | joined hne => simp at heq
      | positional hpath => cases (WrittenAs.eq_script (.separate file) hpath heq).1
  | joined hne =>
      cases hother with
      | separate file' => simp at heq
      | joined hne' => simpa using heq
      | positional hpath => cases (WrittenAs.eq_script (.joined hne) hpath heq).1
  | positional hpath =>
      obtain ⟨rfl, rfl⟩ := hother.eq_script hpath heq.symm
      exact ⟨rfl, rfl⟩

/-- An item takes at least one argument. -/
theorem WrittenAs.ne_nil {item : Item} {written : List Text} (h : item.WrittenAs written) :
    written ≠ [] := by
  cases h <;> exact List.cons_ne_nil _ _

end Item

/-- An argument that names a script is read as that. -/
theorem classify_positional {path : Text} (h : Item.Positional path) :
    classify path = .script path := by
  have hclassified := classified path
  generalize classify path = said at hclassified
  cases hclassified with
  | script _ => rfl
  | unknown _ _ _ _ hpath => exact absurd h hpath
  | help hhelp => rcases hhelp with rfl | rfl <;> exact absurd h (Item.not_positional_cons.mpr rfl)
  | initFollows heq | empty heq | initFile heq _ =>
      subst heq
      exact absurd h (Item.not_positional_cons.mpr rfl)

/-- A file behind `--init-file=` is read as the init file. -/
theorem classify_joined {file : Text} (h : file ≠ []) :
    classify ("--init-file=".toList ++ file) = .initFile file := by
  have hdash : ¬ Item.Positional ("--init-file=".toList ++ file) :=
    Item.not_positional_cons.mpr rfl
  have hclassified := classified ("--init-file=".toList ++ file)
  generalize heq : "--init-file=".toList ++ file = argument at hclassified hdash ⊢
  generalize classify argument = said at hclassified
  cases hclassified with
  | initFile hother _ => rw [List.append_cancel_left (heq.trans hother)]
  | script hpath => exact absurd hpath hdash
  | unknown _ _ _ hjoined _ => exact absurd heq.symm (hjoined file)
  | help hhelp => rcases hhelp with rfl | rfl <;> simp at heq
  | initFollows hinit =>
      subst hinit
      simp at heq
  | empty hempty =>
      rw [hempty] at heq
      exact absurd (List.append_right_eq_self.mp heq) h

/-! ## Reading -/

section Reading

variable {argument : Text} {arguments rest left : List Text} {items others : List Item}

/-- Nothing is read from no arguments. -/
theorem ReadTo.nil : ReadTo [] [] [] := by
  refine .stop fun item written after hwritten heq => hwritten.ne_nil ?_
  exact (List.append_eq_nil_iff.mp heq.symm).1

/-- An init file behind `-i` is read before the other items. -/
theorem ReadTo.separate (file : Text) (h : ReadTo arguments items rest) :
    ReadTo (['-', 'i'] :: file :: arguments) (.init file :: items) rest :=
  .item (.separate file) h

/-- An init file behind `--init-file=` is read before the other items. -/
theorem ReadTo.joined {file : Text} (hfile : file ≠ []) (h : ReadTo arguments items rest) :
    ReadTo (("--init-file=".toList ++ file) :: arguments) (.init file :: items) rest :=
  .item (.joined hfile) h

/-- A path is read before the other items. -/
theorem ReadTo.positional (hpath : Item.Positional argument) (h : ReadTo arguments items rest) :
    ReadTo (argument :: arguments) (.script argument :: items) rest :=
  .item (.positional hpath) h

/-- No item begins with an argument that starts with `-`, unless it is `-i` or names an
init file. -/
theorem ReadTo.stop_cons (hpath : ¬ Item.Positional argument)
    (hseparate : argument = ['-', 'i'] → arguments = [])
    (hjoined : ∀ file, argument = "--init-file=".toList ++ file → file = []) :
    ReadTo (argument :: arguments) [] (argument :: arguments) := by
  refine .stop fun item written after hwritten heq => ?_
  cases hwritten with
  | separate file =>
      obtain ⟨rfl, hmore⟩ := List.cons.inj heq
      rw [hseparate rfl] at hmore
      cases hmore
  | joined hne =>
      obtain ⟨rfl, _⟩ := List.cons.inj heq
      exact hne (hjoined _ rfl)
  | positional h =>
      obtain ⟨rfl, _⟩ := List.cons.inj heq
      exact hpath h

/-- No item begins where the reading stops. -/
theorem ReadTo.stopped (h : ReadTo arguments items rest) :
    ∀ item written after, Item.WrittenAs item written → rest ≠ written ++ after := by
  induction h with
  | stop hstop => exact hstop
  | item _ _ ih => exact ih

/-- Items are read in one way only. -/
theorem ReadTo.unique (h : ReadTo arguments items rest) (hother : ReadTo arguments others left) :
    others = items ∧ left = rest := by
  induction h generalizing others with
  | @stop rest hstop =>
      cases hother with
      | stop _ => exact ⟨rfl, rfl⟩
      | item hwritten _ => exact absurd rfl (hstop _ _ _ hwritten)
  | @item item written after rest items hwritten _ ih =>
      -- Two ways to split a list are compared, which `cases` cannot do by itself.
      generalize hlist : written ++ after = list at hother
      cases hother with
      | stop hstop => exact absurd hlist.symm (hstop _ _ _ hwritten)
      | item hwritten' hread =>
          obtain ⟨rfl, rfl⟩ := hwritten.unique hwritten' hlist
          obtain ⟨rfl, rfl⟩ := ih hread
          exact ⟨rfl, rfl⟩

/-- Arguments that are all read are read in front of others. -/
theorem ReadTo.append (h : ReadTo arguments items []) (hrest : ReadTo rest others left) :
    ReadTo (arguments ++ rest) (items ++ others) left := by
  generalize hnil : ([] : List Text) = none at h
  induction h with
  | stop _ =>
      subst hnil
      exact hrest
  | item hwritten _ ih =>
      rw [List.append_assoc]
      exact .item hwritten (ih hnil)

end Reading

/-! ## The last files -/

section Last

variable (items : List Item) (file path : Text)

/-- A further init file is the last. -/
theorem last_file?_append_init : lastFile? (items ++ [.init file]) = some file := by
  simp [lastFile?, Item.file?]

/-- A further script leaves the last init file. -/
theorem last_file?_append_script : lastFile? (items ++ [.script path]) = lastFile? items := by
  simp [lastFile?, Item.file?]

/-- A further init file leaves the last script. -/
theorem last_script?_append_init : lastScript? (items ++ [.init file]) = lastScript? items := by
  simp [lastScript?, Item.script?]

/-- A further script is the last. -/
theorem last_script?_append_script : lastScript? (items ++ [.script path]) = some path := by
  simp [lastScript?, Item.script?]

/-- There is a last init file if any was named. -/
theorem is_some_last_file? :
    (lastFile? items).isSome = true ↔ ∃ file, Item.init file ∈ items := by
  induction items using List.reverseRecOn with
  | nil => simp [lastFile?]
  | append_singleton items item ih =>
      cases item with
      | init file => simp [last_file?_append_init]
      | script path => simp [last_file?_append_script, ih]

end Last

/-! ## The whole command line -/

/-- The settings that are read off the items are those that they ask for. -/
theorem asks_read (env : Environment) (items : List Item) :
    Asks env items ⟨lastFile? items <|> env.initFile?, (lastFile? items).isSome,
      lastScript? items, env.format⟩ where
  initFile := by cases lastFile? items <;> rfl
  initExplicit := is_some_last_file? items
  script := rfl
  format := rfl

/-- Where arguments that are to be read end without a decision: a further one would be looked at, if
only as the file after `-i`. -/
def Wanting (rest : List Text) : Prop :=
  rest = [] ∨ rest = [['-', 'i']]

/-- Every list of arguments begins with items, up to a place where no item begins. -/
theorem exists_read_to (arguments : List Text) : ∃ items rest, ReadTo arguments items rest := by
  cases arguments with
  | nil => exact ⟨[], [], .nil⟩
  | cons argument arguments =>
      have hclassified := classified argument
      generalize classify argument = said at hclassified
      cases hclassified with
      | help h =>
          refine ⟨[], _, .stop_cons ?_ ?_ ?_⟩
          · rcases h with rfl | rfl <;> exact Item.not_positional_cons.mpr rfl
          · rcases h with rfl | rfl <;> simp
          · rcases h with rfl | rfl <;> simp
      | initFollows h =>
          subst h
          cases arguments with
          | nil =>
              have hdash : ¬ Item.Positional ['-', 'i'] := Item.not_positional_cons.mpr rfl
              exact ⟨[], _, .stop_cons hdash (fun _ => rfl) (by simp)⟩
          | cons file arguments =>
              obtain ⟨items, rest, hread⟩ := exists_read_to arguments
              exact ⟨_, rest, hread.separate file⟩
      | initFile hjoined hfile =>
          subst hjoined
          obtain ⟨items, rest, hread⟩ := exists_read_to arguments
          exact ⟨_, rest, hread.joined hfile⟩
      | empty h =>
          subst h
          exact ⟨[], _, .stop_cons (Item.not_positional_cons.mpr rfl) (by simp) (by simp)⟩
      | script hpath =>
          obtain ⟨items, rest, hread⟩ := exists_read_to arguments
          exact ⟨_, rest, hread.positional hpath⟩
      | unknown _ _ hi hjoined hpath =>
          exact ⟨[], _, .stop_cons hpath (fun h => absurd h hi) fun file h => absurd h (hjoined file)⟩
termination_by arguments.length

section Steps

variable {α : Type} {m : Type → Type} [Monad m] [LawfulMonad m] {next : α → m Text}
  {word : Text → α} {env : Environment} {items others : List Item} {arguments rest : List Text}
  {tail : List α}

/-- An argument is read by what it says. -/
theorem parse_from_cons (hnext : ∀ t, next (word t) = pure t) (env : Environment)
    (initFile script : Option Text) (argument : Text) (rest : List α) :
    parseFrom next env initFile script (word argument :: rest) =
      match classify argument with
      | .help => pure (.ok .help)
      | .initFollows =>
        match rest with
        | [] => pure (.error .missingInitFile)
        | path :: rest => next path >>= fun path => parseFrom next env (some path) script rest
      | .initFile path => parseFrom next env (some path) script rest
      | .script path => parseFrom next env initFile (some path) rest
      | .refused e => pure (.error e) := by
  rw [parseFrom.eq_def]
  exact (congrArg (· >>= _) (hnext argument)).trans (pure_bind _ _)

/-- Reading an item adds it to those that were read. -/
theorem parse_from_item (hnext : ∀ t, next (word t) = pure t) {item : Item} {written : List Text}
    (h : item.WrittenAs written) (env : Environment) (items : List Item) (rest : List α) :
    parseFrom next env (lastFile? items) (lastScript? items) (written.map word ++ rest) =
      parseFrom next env (lastFile? (items ++ [item])) (lastScript? (items ++ [item])) rest := by
  cases h with
  | separate file =>
      show parseFrom next env _ _ (word ['-', 'i'] :: word file :: rest) = _
      have hsaid : classify ['-', 'i'] = .initFollows := rfl
      rw [parse_from_cons hnext, hsaid, last_file?_append_init, last_script?_append_init]
      dsimp only
      rw [hnext, pure_bind]
  | @joined file hfile =>
      show parseFrom next env _ _ (word _ :: rest) = _
      rw [parse_from_cons hnext, classify_joined hfile, last_file?_append_init,
        last_script?_append_init]
  | @positional path hpath =>
      show parseFrom next env _ _ (word path :: rest) = _
      rw [parse_from_cons hnext, classify_positional hpath, last_file?_append_script,
        last_script?_append_script]

/-- Reading items adds them to those that were read, whatever follows. -/
theorem parse_from_read_to (hnext : ∀ t, next (word t) = pure t) (h : ReadTo arguments others rest)
    (env : Environment) (items : List Item) (tail : List α) :
    parseFrom next env (lastFile? items) (lastScript? items) (arguments.map word ++ tail) =
      parseFrom next env (lastFile? (items ++ others)) (lastScript? (items ++ others))
        (rest.map word ++ tail) := by
  induction h generalizing items with
  | stop _ => rw [List.append_nil]
  | item hwritten _ ih =>
      rw [List.map_append, List.append_assoc, parse_from_item hnext hwritten, ih,
        List.append_assoc]
      rfl

/-- What is left behind the items decides what the command line comes to, unless a further argument
would be looked at and there is one. -/
theorem exists_comes_to (hnext : ∀ t, next (word t) = pure t)
    (hstop : ∀ item written after, Item.WrittenAs item written → rest ≠ written ++ after)
    (htail : Wanting rest → tail = []) (env : Environment) (items : List Item) :
    ∃ result, ComesTo env items rest result ∧
      parseFrom next env (lastFile? items) (lastScript? items) (rest.map word ++ tail) =
        pure result := by
  cases rest with
  | nil =>
      -- The items are all there is, so by assumption nothing stands behind them.
      rw [htail (.inl rfl)]
      exact ⟨_, .run (asks_read env items), rfl⟩
  | cons argument arguments =>
      have hclassified := classified argument
      rw [List.map_cons, List.cons_append, parse_from_cons hnext]
      generalize classify argument = said at hclassified
      cases hclassified with
      | help h => exact ⟨_, .help h, rfl⟩
      | initFollows h =>
          subst h
          cases arguments with
          | nil =>
              rw [htail (.inr rfl)]
              exact ⟨_, .missing, rfl⟩
          | cons file arguments => exact absurd rfl (hstop _ _ arguments (.separate file))
      | initFile hjoined hfile =>
          -- Here a further item would begin, so the reading would not have stopped.
          subst hjoined
          exact absurd rfl (hstop _ _ arguments (.joined hfile))
      | empty h =>
          subst h
          exact ⟨_, .empty, rfl⟩
      | script hpath => exact absurd rfl (hstop _ _ arguments (.positional hpath))
      | unknown hh hhelp hi hjoined _ =>
          have hempty : argument ≠ "--init-file=".toList :=
            fun h => hjoined [] (h.trans (List.append_nil _).symm)
          exact ⟨_, .unknown hh hhelp hi hempty, rfl⟩

/-- Arguments come to what their items and the rest decide, also with others behind them that
are not looked at. -/
theorem exists_comes_to_of_read_to (next : α → m Text) (word : Text → α)
    (hnext : ∀ t, next (word t) = pure t) (h : ReadTo arguments items rest)
    (htail : Wanting rest → tail = []) (env : Environment) :
    ∃ result, ComesTo env items rest result ∧
      parseFrom next env none none (arguments.map word ++ tail) = pure result := by
  obtain ⟨result, hcomes, hresult⟩ := exists_comes_to hnext h.stopped htail env items
  exact ⟨result, hcomes, (parse_from_read_to hnext h env [] tail).trans hresult⟩

end Steps

/-- Items ask for one combination of settings. -/
theorem Asks.unique {env : Environment} {items : List Item} {settings other : Settings}
    (h : Asks env items settings) (hother : Asks env items other) : settings = other := by
  obtain ⟨initFile, initExplicit, script, format⟩ := settings
  obtain ⟨initFile', initExplicit', script', format'⟩ := other
  obtain rfl : initFile = initFile' := h.initFile.trans hother.initFile.symm
  obtain rfl : script = script' := h.script.trans hother.script.symm
  obtain rfl : format = format' := h.format.trans hother.format.symm
  obtain rfl : initExplicit = initExplicit' :=
    Bool.eq_iff_iff.mpr (h.initExplicit.trans hother.initExplicit.symm)
  rfl

/-- What is left after the items decides in one way only. -/
theorem ComesTo.unique {env : Environment} {items : List Item} {rest : List Text}
    {result other : Except UsageError Invocation} (h : ComesTo env items rest result)
    (hother : ComesTo env items rest other) : result = other := by
  cases h with
  | run hasks =>
      cases hother with
      | run hasks' => rw [hasks.unique hasks']
  | help h =>
      cases hother with
      | help _ => rfl
      | missing => simp at h
      | empty => simp at h
      | unknown hh hhelp _ _ => exact absurd h (not_or.mpr ⟨hh, hhelp⟩)
  | missing =>
      cases hother with
      | help h => simp at h
      | missing => rfl
      | unknown _ _ hi _ => exact absurd rfl hi
  | empty =>
      cases hother with
      | help h => simp at h
      | empty => rfl
      | unknown _ _ _ hempty => exact absurd rfl hempty
  | unknown hh hhelp hi hempty =>
      cases hother with
      | help h => exact absurd h (not_or.mpr ⟨hh, hhelp⟩)
      | missing => exact absurd rfl hi
      | empty => exact absurd rfl hempty
      | unknown _ _ _ _ => rfl

/-- What arguments come to, by their items and what is left behind these. -/
theorem parse_eq_iff {env : Environment} {arguments rest : List Text} {items : List Item}
    (h : ReadTo arguments items rest) (result : Except UsageError Invocation) :
    parse env arguments = result ↔ ComesTo env items rest result := by
  have hnone : Wanting rest → ([] : List Text) = [] := fun _ => rfl
  obtain ⟨decided, hcomes, hdecided⟩ :=
    exists_comes_to_of_read_to (m := Id) pure id (fun _ => rfl) h hnone env
  rw [List.map_id, List.append_nil] at hdecided
  have hparse : parse env arguments = decided := hdecided
  rw [hparse]
  constructor
  · rintro rfl
    exact hcomes
  · exact hcomes.unique

/-- Every list of arguments is read as items from the left, in one way, up to a place where no
item can be read, and what it comes to is decided by the items and by the argument at that place.
An init file may be given after `-i` or, unless its name is empty, after `--init-file=`, which
comes to the same. -/
theorem parse_law (env : Environment) :
    (∀ arguments, ∃ items rest, ReadTo arguments items rest ∧
      (∀ others left, ReadTo arguments others left → others = items ∧ left = rest) ∧
      ∀ result, parse env arguments = result ↔ ComesTo env items rest result) ∧
    ∀ before items file after, ReadTo before items [] → file ≠ [] →
      parse env (before ++ ['-', 'i'] :: file :: after) =
        parse env (before ++ ("--init-file=".toList ++ file) :: after) := by
  constructor
  · intro arguments
    obtain ⟨items, rest, hread⟩ := exists_read_to arguments
    exact ⟨items, rest, hread, fun _ _ => hread.unique, parse_eq_iff hread⟩
  · intro before items file after hbefore hfile
    obtain ⟨others, rest, hread⟩ := exists_read_to after
    have hseparate := hbefore.append (hread.separate file)
    have hjoined := hbefore.append (hread.joined hfile)
    exact (parse_eq_iff hseparate _).mpr ((parse_eq_iff hjoined _).mp rfl)

/-- After `-i` even `-h` is a file, and `-` is a script. The later `f` is the init file in either
form, unless an option that is not known follows, which hides the `-h` behind it. -/
theorem parse_law_with_hidden_help :
    let env : Environment := { userHome := none }
    let before : List Text := [['-', 'i'], ['-', 'h'], ['a'], ['-']]
    let items : List Item := [.init ['-', 'h'], .script ['a'], .script ['-']]
    ReadTo before items [] ∧
    parse env (before ++ [['-', 'i'], ['f']]) = .ok (.run ⟨some ['f'], true, some ['-'], .text⟩) ∧
    parse env (before ++ ("--init-file=".toList ++ ['f']) :: []) =
      .ok (.run ⟨some ['f'], true, some ['-'], .text⟩) ∧
    parse env (before ++ [['-', 'x'], ['-', 'h']]) = .error (.unknownOption ['-', 'x']) := by
  intro env before items
  have hbefore : ReadTo before items [] :=
    .separate _ (.positional (.inr (by decide)) (.positional (.inl rfl) .nil))
  obtain ⟨hreads, hforms⟩ := parse_law env
  have hrun : parse env (before ++ [['-', 'i'], ['f']]) =
      .ok (.run ⟨some ['f'], true, some ['-'], .text⟩) := by
    obtain ⟨others, rest, _, hunique, hiff⟩ := hreads (before ++ [['-', 'i'], ['f']])
    obtain ⟨rfl, rfl⟩ := hunique _ _ (hbefore.append (.separate ['f'] .nil))
    exact (hiff _).mpr (.run ⟨rfl, by simp [items], rfl, rfl⟩)
  refine ⟨hbefore, hrun, ?_, ?_⟩
  · rw [← hforms before items ['f'] [] hbefore (List.cons_ne_nil 'f' []), hrun]
  · obtain ⟨others, rest, _, hunique, hiff⟩ := hreads (before ++ [['-', 'x'], ['-', 'h']])
    obtain ⟨rfl, rfl⟩ := hunique _ _ (hbefore.append (.stop_cons (Item.not_positional_cons.mpr rfl)
      (by simp) (by simp)))
    exact (hiff _).mpr (.unknown (by simp) (by simp) (by simp) (by simp))

end LineShell.Invocation
