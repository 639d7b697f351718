import LineShell.Text.Basic
import Mathlib.Data.List.Basic
import Mathlib.Data.List.Infix
import Mathlib.Data.List.TakeWhile

/-!
# Cuts of a text

What trimming, splitting and taking words leave of a text. Every part that they give is an infix of
the text, so it has none of the characters that the text lacks, and spaces at either end make no
difference to them: a text between two blank ones is trimmed to itself if it is `Trimmed`
(`trim_blank_append`), and has the same words (`words_blank_append`).
-/

namespace LineShell

namespace Text

/-- The text is nothing but spaces. -/
def Blank (t : Text) : Prop :=
  ∀ c ∈ t, c = ' '

/-- No space stands at either end of the text. -/
structure Trimmed (t : Text) : Prop where
  head : t.head? ≠ some ' '
  last : t.getLast? ≠ some ' '

instance (t : Text) : Decidable (Blank t) :=
  List.decidableBAll (· = ' ') t

instance (t : Text) : Decidable (Trimmed t) :=
  decidable_of_iff (t.head? ≠ some ' ' ∧ t.getLast? ≠ some ' ')
    ⟨fun h => ⟨h.1, h.2⟩, fun h => ⟨h.head, h.last⟩⟩

/-- The empty text is blank. -/
theorem blank_nil : Blank [] := by
  intro c hc
  cases hc

/-- A text is blank if its first character is a space and the rest is blank. -/
theorem blank_cons_iff {c : Char} {t : Text} : Blank (c :: t) ↔ c = ' ' ∧ Blank t :=
  List.forall_mem_cons

/-- Blanks after blanks are blanks. -/
theorem Blank.append {a b : Text} (ha : Blank a) (hb : Blank b) : Blank (a ++ b) := by
  intro c hc
  rcases List.mem_append.mp hc with hc | hc
  · exact ha c hc
  · exact hb c hc

/-- A character other than the space is in no blank text. -/
theorem Blank.not_mem {t : Text} (h : Blank t) {c : Char} (hc : c ≠ ' ') : c ∉ t :=
  fun hmem => hc (h c hmem)

/-- A text without spaces has none at its ends. -/
theorem Trimmed.of_space_not_mem {t : Text} (h : ' ' ∉ t) : Trimmed t where
  head := fun hhead => h (List.mem_of_head? hhead)
  last := fun hlast => h (List.mem_of_getLast? hlast)

/-- Between two trimmed texts there may be anything. -/
theorem Trimmed.append_append {a b : Text} (ha : Trimmed a) (hane : a ≠ []) (hbne : b ≠ [])
    (hb : Trimmed b) (gap : Text) : Trimmed (a ++ (gap ++ b)) where
  head := by
    rw [List.head?_append_of_ne_nil _ hane]
    exact ha.head
  last := by
    rw [← List.append_assoc, List.getLast?_append_of_ne_nil _ hbne]
    exact hb.last

/-! ## Length in bytes -/

/-- The bytes of two texts in a row are counted one after the other. -/
theorem byte_length_append (a b : Text) : byteLength (a ++ b) = byteLength a + byteLength b := by
  induction a with
  | nil => exact (Nat.zero_add _).symm
  | cons c a ih =>
      show c.utf8Size + byteLength (a ++ b) = c.utf8Size + byteLength a + _
      rw [ih, Nat.add_assoc]

/-- Only the empty text has no bytes, since every character has at least one. -/
theorem byte_length_eq_zero_iff {t : Text} : byteLength t = 0 ↔ t = [] := by
  cases t with
  | nil => simp [byteLength]
  | cons c t =>
      have hsize := c.utf8Size_pos
      simp [byteLength]
      omega

/-- The beginnings of a text are told apart by their lengths in bytes. -/
theorem append_inj_of_byte_length {a b a' b' : Text} (h : a ++ b = a' ++ b')
    (hlength : byteLength a = byteLength a') : a = a' ∧ b = b' := by
  rcases List.append_eq_append_iff.mp h with ⟨more, rfl, rfl⟩ | ⟨more, rfl, rfl⟩
  · obtain rfl : more = [] := byte_length_eq_zero_iff.mp (by rw [byte_length_append] at hlength; omega)
    simp
  · obtain rfl : more = [] := byte_length_eq_zero_iff.mp (by rw [byte_length_append] at hlength; omega)
    simp

/-! ## Trimming -/

/-- Blanks at the start are removed. -/
theorem trim_start_blank_append {gap : Text} (h : Blank gap) (t : Text) :
    trimStart (gap ++ t) = trimStart t := by
  induction gap with
  | nil => rfl
  | cons c gap ih =>
      obtain ⟨rfl, hgap⟩ := blank_cons_iff.mp h
      exact ih hgap

/-- A text that does not begin with a space is left as it is. -/
theorem trim_start_eq_self {t : Text} (h : t.head? ≠ some ' ') : trimStart t = t := by
  cases t with
  | nil => rfl
  | cons c t =>
      have hc : (c == ' ') = false := by simpa using h
      simp [trimStart, hc]

/-- Trimming the end, by recursion: a space goes if nothing is left behind it. -/
theorem trim_end_cons (c : Char) (t : Text) :
    trimEnd (c :: t) = if trimEnd t = [] ∧ c = ' ' then [] else c :: trimEnd t := by
  rw [trimEnd]
  cases h : trimEnd t with
  | nil => simp
  | cons d r => simp

/-- Nothing is left of blanks. -/
theorem trim_end_eq_nil {t : Text} (h : Blank t) : trimEnd t = [] := by
  induction t with
  | nil => rfl
  | cons c t ih =>
      obtain ⟨rfl, ht⟩ := blank_cons_iff.mp h
      rw [trim_end_cons, if_pos ⟨ih ht, rfl⟩]

/-- Blanks at the end are removed. -/
theorem trim_end_append_blank (t : Text) {gap : Text} (h : Blank gap) :
    trimEnd (t ++ gap) = trimEnd t := by
  induction t with
  | nil => exact trim_end_eq_nil h
  | cons c t ih => rw [List.cons_append, trim_end_cons, trim_end_cons, ih]

/-- A text that does not end with a space is left as it is. -/
theorem trim_end_eq_self {t : Text} (h : t.getLast? ≠ some ' ') : trimEnd t = t := by
  induction t with
  | nil => rfl
  | cons c t ih =>
      cases t with
      | nil =>
          have hc : c ≠ ' ' := by simpa using h
          simp [trimEnd, hc]
      | cons d t =>
          rw [List.getLast?_cons_cons] at h
          rw [trim_end_cons, ih h, if_neg (by simp)]

/-- Only blanks are removed from the end. -/
theorem exists_blank_trim_end (t : Text) : ∃ gap, Blank gap ∧ t = trimEnd t ++ gap := by
  induction t with
  | nil => exact ⟨[], blank_nil, rfl⟩
  | cons c t ih =>
      obtain ⟨gap, hgap, ht⟩ := ih
      rw [trim_end_cons]
      split
      · rename_i h
        rw [h.1] at ht
        exact ⟨c :: t, blank_cons_iff.mpr ⟨h.2, ht ▸ hgap⟩, rfl⟩
      · exact ⟨gap, hgap, by rw [List.cons_append, ← ht]⟩

/-- What is left does not end with a space. -/
theorem get_last?_trim_end (t : Text) : (trimEnd t).getLast? ≠ some ' ' := by
  induction t with
  | nil => simp [trimEnd]
  | cons c t ih =>
      rw [trim_end_cons]
      split
      · simp
      · rename_i h
        cases hend : trimEnd t with
        | nil => simpa [hend] using h
        | cons d r =>
            rw [List.getLast?_cons_cons, ← hend]
            exact ih

/-- Trimming takes blank texts off both ends. -/
theorem exists_blank_trim (t : Text) :
    ∃ before after, Blank before ∧ Blank after ∧ t = before ++ trim t ++ after := by
  obtain ⟨after, hafter, heq⟩ := exists_blank_trim_end (trimStart t)
  refine ⟨t.takeWhile (· == ' '), after, ?_, hafter, ?_⟩
  · intro c hc
    simpa using List.mem_takeWhile_imp hc
  · rw [List.append_assoc, trim, ← heq]
    exact (List.takeWhile_append_dropWhile).symm

/-- What trimming leaves is a part of the text. -/
theorem infix_trim (t : Text) : trim t <:+: t := by
  obtain ⟨before, after, _, _, heq⟩ := exists_blank_trim t
  exact ⟨before, after, heq.symm⟩

/-- What trimming leaves has no blanks at its ends. -/
theorem trimmed_trim (t : Text) : Trimmed (trim t) where
  head := by
    intro h
    obtain ⟨gap, _, heq⟩ := exists_blank_trim_end (trimStart t)
    have hhead : (trimStart t).head? = some ' ' := by
      rw [heq, List.head?_append, ← trim, h]
      rfl
    have hnot := List.head?_dropWhile_not (· == ' ') t
    rw [← trimStart, hhead] at hnot
    simp at hnot
  last := get_last?_trim_end _

/-- Blank texts around a trimmed one are what trimming takes off. -/
theorem trim_blank_append {before t after : Text} (hbefore : Blank before) (ht : Trimmed t)
    (hafter : Blank after) : trim (before ++ t ++ after) = t := by
  rw [trim, List.append_assoc, trim_start_blank_append hbefore]
  cases t with
  | nil =>
      have hblank : trimStart after = [] := by
        simpa [trimStart] using trim_start_blank_append hafter []
      rw [List.nil_append, hblank]
      rfl
  | cons c t =>
      have hstart : trimStart (c :: t ++ after) = c :: t ++ after := trim_start_eq_self ht.head
      rw [hstart, trim_end_append_blank _ hafter, trim_end_eq_self ht.last]

/-- A text without blanks at its ends is left as it is. -/
theorem Trimmed.trim_eq {t : Text} (h : Trimmed t) : trim t = t := by
  simpa using trim_blank_append blank_nil h blank_nil

/-- Spaces at either end make no difference to trimming. -/
theorem trim_append_blank {before after : Text} (hbefore : Blank before) (t : Text)
    (hafter : Blank after) : trim (before ++ t ++ after) = trim t := by
  obtain ⟨left, right, hleft, hright, heq⟩ := exists_blank_trim t
  have hcore := trimmed_trim t
  generalize trim t = core at heq hcore ⊢
  subst heq
  have hwhole : before ++ (left ++ core ++ right) ++ after =
      (before ++ left) ++ core ++ (right ++ after) := by
    simp only [List.append_assoc]
  rw [hwhole]
  exact trim_blank_append (hbefore.append hleft) hcore (hright.append hafter)

/-- Nothing is left of a text if it is nothing but spaces. -/
theorem trim_eq_nil_iff {t : Text} : trim t = [] ↔ Blank t := by
  constructor
  · intro h
    obtain ⟨before, after, hbefore, hafter, heq⟩ := exists_blank_trim t
    rw [h, List.append_nil] at heq
    exact heq ▸ hbefore.append hafter
  · intro h
    have hnone : Trimmed [] := .of_space_not_mem List.not_mem_nil
    simpa using trim_blank_append h hnone blank_nil

/-- Trimming takes off spaces and nothing else. -/
theorem mem_trim_iff {c : Char} (hc : c ≠ ' ') {t : Text} : c ∈ trim t ↔ c ∈ t := by
  obtain ⟨before, after, hbefore, hafter, heq⟩ := exists_blank_trim t
  generalize trim t = core at heq ⊢
  rw [heq]
  simp [hbefore.not_mem hc, hafter.not_mem hc]

/-- What no text begins with its beginnings do not begin with. -/
theorem prefix_head?_ne {a b : Text} {c : Char} (h : a <+: b) (hb : b.head? ≠ some c) :
    a.head? ≠ some c := by
  obtain ⟨rest, rfl⟩ := h
  cases a with
  | nil => simp
  | cons d a => exact hb

/-- A text that does not begin with a space begins with its trimmed form. -/
theorem prefix_trim {t : Text} (h : t.head? ≠ some ' ') : trim t <+: t := by
  obtain ⟨gap, _, heq⟩ := exists_blank_trim_end t
  rw [trim, trim_start_eq_self h]
  exact ⟨gap, heq.symm⟩

/-! ## Splitting -/

/-- The first part of a split begins the text, and the others follow a separator. -/
theorem exists_split_on_eq (separator : Char) (t : Text) : ∃ part parts,
    t.splitOn separator = part :: parts ∧ part <+: t ∧
      ∀ later ∈ parts, separator :: later <:+: t := by
  induction t with
  | nil => exact ⟨[], [], rfl, List.prefix_rfl, by simp⟩
  | cons c t ih =>
      obtain ⟨part, parts, heq, hpart, hparts⟩ := ih
      rw [List.splitOn_cons_eq_if_modifyHead, heq]
      split
      · rename_i hc
        obtain rfl : c = separator := by simpa using hc
        refine ⟨[], part :: parts, rfl, List.nil_prefix, ?_⟩
        intro later hlater
        rcases List.mem_cons.mp hlater with rfl | hlater
        · exact (List.cons_prefix_cons.mpr ⟨rfl, hpart⟩).isInfix
        · exact List.infix_cons (hparts later hlater)
      · exact ⟨c :: part, parts, rfl, List.cons_prefix_cons.mpr ⟨rfl, hpart⟩,
          fun later hlater => List.infix_cons (hparts later hlater)⟩

/-- A part of a text that is split is a part of the text. -/
theorem infix_of_mem_split_on {separator : Char} {part t : Text} (h : part ∈ t.splitOn separator) :
    part <:+: t := by
  obtain ⟨first, parts, heq, hfirst, hparts⟩ := exists_split_on_eq separator t
  rw [heq] at h
  rcases List.mem_cons.mp h with rfl | h
  · exact hfirst.isInfix
  · exact (List.suffix_cons separator part).isInfix.trans (hparts part h)

/-- The parts of a text that is split have no separator. -/
theorem separator_not_mem_of_mem_split_on {separator : Char} {part t : Text}
    (h : part ∈ t.splitOn separator) : separator ∉ part := by
  induction t generalizing part with
  | nil =>
      obtain rfl : part = [] := by simpa using h
      simp
  | cons c t ih =>
      obtain ⟨first, parts, heq, _, _⟩ := exists_split_on_eq separator t
      rw [heq] at ih
      rw [List.splitOn_cons_eq_if_modifyHead, heq] at h
      split at h
      · rcases List.mem_cons.mp h with rfl | h
        · simp
        · exact ih h
      · rename_i hc
        rcases List.mem_cons.mp h with rfl | h
        · have hfirst := ih List.mem_cons_self
          simp only [List.mem_cons, not_or]
          exact ⟨fun heq => hc (by simp [heq]), hfirst⟩
        · exact ih (List.mem_cons_of_mem _ h)

/-! ## Words -/

/-- A word is a part of the text that is not empty and has no spaces. -/
theorem mem_words {word t : Text} (h : word ∈ words t) : word ≠ [] ∧ ' ' ∉ word ∧ word <:+: t := by
  obtain ⟨hmem, hne⟩ := List.mem_filter.mp h
  exact ⟨by simpa using hne, separator_not_mem_of_mem_split_on hmem, infix_of_mem_split_on hmem⟩

/-- Every word but the first follows a space. -/
theorem space_cons_infix_of_mem_tail_words {word t : Text} (h : word ∈ (words t).tail) :
    ' ' :: word <:+: t := by
  obtain ⟨first, parts, heq, _, hparts⟩ := exists_split_on_eq ' ' t
  rw [words, heq, List.filter_cons] at h
  refine hparts word ?_
  split at h
  · exact (List.mem_filter.mp h).1
  · exact (List.mem_filter.mp (List.mem_of_mem_tail h)).1

/-- The first word begins a text that does not begin with a space. -/
theorem prefix_head?_words {word t : Text} (ht : t.head? ≠ some ' ')
    (h : (words t).head? = some word) : word <+: t := by
  obtain ⟨first, parts, heq, hfirst, hparts⟩ := exists_split_on_eq ' ' t
  rw [words, heq, List.filter_cons] at h
  split at h
  · obtain rfl : first = word := by simpa using h
    exact hfirst
  · rename_i hempty
    obtain rfl : first = [] := by simpa using hempty
    cases t with
    | nil => simp_all
    | cons c t =>
        rw [List.splitOn_cons_eq_if_modifyHead] at heq
        have hc : ¬ (c == ' ') = true := by simpa using ht
        rw [if_neg hc] at heq
        obtain ⟨part, rest, heq', _⟩ := exists_split_on_eq ' ' t
        rw [heq'] at heq
        simp at heq

/-- A space at the start does not change the words. -/
theorem words_cons_space (t : Text) : words (' ' :: t) = words t := by
  rw [words, List.splitOn_cons_eq_if_modifyHead]
  rfl

/-- Blanks at the start do not change the words. -/
theorem words_blank_append {gap : Text} (h : Blank gap) (t : Text) :
    words (gap ++ t) = words t := by
  induction gap with
  | nil => rfl
  | cons c gap ih =>
      obtain ⟨rfl, hgap⟩ := blank_cons_iff.mp h
      rw [List.cons_append, words_cons_space, ih hgap]

/-- The words on both sides of a space are read apart. -/
theorem words_append_space (a b : Text) : words (a ++ ' ' :: b) = words a ++ words b := by
  rw [words, List.splitOn_append_cons_self, List.filter_append]
  rfl

/-- Blanks at the end do not change the words. -/
theorem words_append_blank (t : Text) {gap : Text} (h : Blank gap) :
    words (t ++ gap) = words t := by
  cases gap with
  | nil => rw [List.append_nil]
  | cons c gap =>
      obtain ⟨rfl, hgap⟩ := blank_cons_iff.mp h
      have hnone : words gap = words [] := by simpa using words_blank_append hgap []
      rw [words_append_space, hnone]
      exact List.append_nil _

/-- A text that is not empty and has no spaces is one word. -/
theorem words_eq_singleton {token : Text} (hne : token ≠ []) (hspace : ' ' ∉ token) :
    words token = [token] := by
  rw [words, List.splitOn_eq_singleton hspace]
  simp [hne]

/-- Tokens with gaps between them are the words of the whole. -/
theorem words_append_gap_append {token gap : Text} (hne : token ≠ []) (hspace : ' ' ∉ token)
    (hgap : Blank gap) (hsome : gap ≠ []) (t : Text) :
    words (token ++ gap ++ t) = token :: words t := by
  obtain ⟨c, rest, rfl⟩ := List.exists_cons_of_ne_nil hsome
  obtain ⟨rfl, hrest⟩ := blank_cons_iff.mp hgap
  rw [List.append_assoc, List.cons_append, words_append_space, words_blank_append hrest,
    words_eq_singleton hne hspace, List.singleton_append]

/-! ## Runs and first occurrences -/

/-- A run of characters of one kind ends before the first character of another kind. -/
theorem span_append (kind : Char → Bool) {run rest : Text} (hrun : ∀ c ∈ run, kind c = true)
    (hrest : ∀ c ∈ rest.head?, kind c = false) :
    (run ++ rest).takeWhile kind = run ∧ (run ++ rest).dropWhile kind = rest := by
  rw [List.takeWhile_append_of_pos hrun, List.dropWhile_append_of_pos hrun]
  cases rest with
  | nil => exact ⟨List.append_nil run, rfl⟩
  | cons c rest =>
      have hc : kind c = false := hrest c rfl
      simp [hc]

/-- A beginning of one kind does not go beyond the run. -/
theorem prefix_run (kind : Char → Bool) {a run rest : Text} (ha : ∀ c ∈ a, kind c = true)
    (hrest : ∀ c ∈ rest.head?, kind c = false) (h : a <+: run ++ rest) : a <+: run := by
  rcases List.prefix_or_prefix_of_prefix h (List.prefix_append run rest) with hrun | ⟨more, rfl⟩
  · exact hrun
  · have hmore := (List.prefix_append_right_inj run).mp h
    cases more with
    | nil => rw [List.append_nil]
    | cons c more =>
        obtain ⟨rest, rfl⟩ := hmore
        have hc := ha c (List.mem_append_right _ List.mem_cons_self)
        rw [hrest c rfl] at hc
        cases hc

/-- A beginning without the character that the rest begins with does not go into the rest. -/
theorem prefix_up_to {stop : Char} {a b rest : Text} (ha : stop ∉ a)
    (hrest : ∀ c ∈ rest.head?, c = stop) (h : a <+: b ++ rest) : a <+: b := by
  have hkind : ∀ c ∈ a, (c != stop) = true := fun c hc => by simpa using ne_of_mem_of_not_mem hc ha
  have hstop : ∀ c ∈ rest.head?, (c != stop) = false := fun c hc => by simpa using hrest c hc
  exact prefix_run (· != stop) hkind hstop h

/-- What follows a longest run begins with a character of another kind. -/
theorem head?_drop_while_eq_false (kind : Char → Bool) (t : Text) :
    ∀ c ∈ (t.dropWhile kind).head?, kind c = false := by
  intro c hc
  have hnot := List.head?_dropWhile_not kind t
  rw [Option.mem_def.mp hc] at hnot
  simpa using hnot

/-- A text without the character to stop at is not cut. -/
theorem cut_at_eq_self {stop : Char} {t : Text} (h : stop ∉ t) : cutAt stop t = (t, none) := by
  induction t with
  | nil => rfl
  | cons c t ih =>
      obtain ⟨hc, ht⟩ := List.ne_and_not_mem_of_not_mem_cons h
      rw [cutAt, if_neg (Ne.symm hc), ih ht]

/-- A text is cut at the first character to stop at, which is dropped. -/
theorem cut_at_append {stop : Char} {before : Text} (h : stop ∉ before) (after : Text) :
    cutAt stop (before ++ stop :: after) = (before, some after) := by
  induction before with
  | nil => exact if_pos rfl
  | cons c before ih =>
      obtain ⟨hc, hbefore⟩ := List.ne_and_not_mem_of_not_mem_cons h
      rw [List.cons_append, cutAt, if_neg (Ne.symm hc), ih hbefore]

/-- The text before the first occurrence of a character does not have it. -/
theorem not_mem_cut_at (stop : Char) (t : Text) : stop ∉ (cutAt stop t).1 := by
  by_cases h : stop ∈ t
  · obtain ⟨before, after, rfl, hbefore⟩ := List.eq_append_cons_of_mem h
    rwa [cut_at_append hbefore]
  · rwa [cut_at_eq_self h]

end Text

end LineShell
