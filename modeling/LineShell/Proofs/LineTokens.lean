import LineShell.Proofs.LineCutting
import Mathlib.Data.List.Chain

/-!
# The tokens of a line

A token is a fragment together with the bytes that it takes of the line. `Token.Cutting` lists what
is asked of tokens: they take all bytes of the line one after the other, each is of its kind, and
none could go on with what follows it. `cutting_law` shows that every line has tokens of this sort,
that they are those of `Fragment.cut`, and that there are no others.

The kinds of fragments are also patterns, three of which begin with `$`. `Fragment.Lexed` takes the
longest match from place to place and stops where no pattern matches. It comes to the same
fragments, and never stops before the end of the line.
-/

namespace LineShell

/-- A fragment with the bytes of the line that it takes, from `start` up to `stop`. -/
structure Token where
  start : Nat
  stop : Nat
  fragment : Fragment
  deriving DecidableEq, Repr

namespace Fragment

/-- Whether a fragment is literal text. -/
def isText : Fragment → Bool
  | text _ => true
  | bare _ | braced _ | unterminated _ => false

/-- What a fragment may consist of, and what may follow it. -/
def Fits (after : Text) : Fragment → Prop
  | text content => '$' ∉ content
  | bare name => (∀ c ∈ name, isNameChar c = true) ∧
      ∀ c ∈ after.head?, isNameChar c = false ∧ (name = [] → c ≠ '{')
  | braced name => '}' ∉ name
  | unterminated rest => '}' ∉ rest ∧ after = []

/-- The fragment is one that its pattern matches: a text without `$`, a `$` with name characters, or
`${` with anything but `}` behind it, which may be closed. -/
def Matches : Fragment → Prop
  | text content => content ≠ [] ∧ '$' ∉ content
  | bare name => ∀ c ∈ name, isNameChar c = true
  | braced name => '}' ∉ name
  | unterminated rest => '}' ∉ rest

/-- The line begins with a match of the fragment's pattern, and every other match is shorter. -/
structure LongestMatch (line : Text) (f : Fragment) : Prop where
  isMatch : f.Matches
  isPrefix : f.source <+: line
  longest : ∀ g : Fragment, g.Matches → g.source <+: line → g ≠ f →
    g.source.length < f.source.length

/-- The longest matches from the beginning of the line on, and the rest of the line if none begins
it. -/
inductive Lexed : Text → List Fragment → Option Text → Prop where
  | done : Lexed [] [] none
  | step {f : Fragment} {rest : Text} {fragments : List Fragment} {invalid : Option Text} :
      LongestMatch (f.source ++ rest) f → Lexed rest fragments invalid →
      Lexed (f.source ++ rest) (f :: fragments) invalid
  | invalid {line : Text} : line ≠ [] → (∀ f : Fragment, f.Matches → ¬ f.source <+: line) →
      Lexed line [] (some line)

end Fragment

namespace Token

/-- The fragments that follow `start` bytes of a line, with their own bytes. -/
def ofFragments (start : Nat) (fragments : List Fragment) : List Token :=
  (Fragment.positions start fragments).map fun (start, f) =>
    ⟨start, start + Text.byteLength f.source, f⟩

/-- The tokens take all bytes from `start` up to `stop`, one after the other, and each
takes some. -/
def Tiles : Nat → List Token → Nat → Prop
  | start, [], stop => start = stop
  | start, t :: rest, stop => t.start = start ∧ start < t.stop ∧ Tiles t.stop rest stop

/-- The token's bytes are those of its fragment, between `before` and `after`. -/
structure At (line before after : Text) (t : Token) : Prop where
  line_eq : line = before ++ t.fragment.source ++ after
  start_eq : t.start = Text.byteLength before
  stop_eq : t.stop = Text.byteLength (before ++ t.fragment.source)

/-- The tokens are a cutting of the line. -/
structure Cutting (line : Text) (tokens : List Token) : Prop where
  tiles : Tiles 0 tokens (Text.byteLength line)
  fits : ∀ t ∈ tokens, ∃ before after, t.At line before after ∧ t.fragment.Fits after
  /-- Literal text is not cut any further. -/
  apart : tokens.IsChain fun t next => t.fragment.isText = true → next.fragment.isText = false
  /-- Only the last brace can be one that is not closed. -/
  whole : ∀ t ∈ tokens.dropLast, t.fragment.isWhole = true

end Token

namespace Fragment

variable {f : Fragment} {line rest : Text} {fragments : List Fragment}

/-! ## Cutting off the first fragment -/

/-- An empty line is cut into nothing. -/
theorem cuts_nil_iff : Cuts [] fragments ↔ fragments = [] := by
  constructor
  · intro h
    rw [h.eq_cut, cut]
  · rintro rfl
    exact .nil

/-- Every fragment but literal text begins with `$`. -/
theorem Cuts.head?_eq_dollar_iff (h : Cuts line fragments) :
    (∀ c ∈ line.head?, c = '$') ↔ ∀ f ∈ fragments.head?, f.isText = false := by
  cases h with
  | nil => simp
  | @text content rest _ hne hcontent _ _ =>
      obtain ⟨c, content, rfl⟩ := List.exists_cons_of_ne_nil hne
      have hc : c ≠ '$' := Ne.symm (List.ne_of_not_mem_cons hcontent)
      simp [isText, hc]
  | lone _ _ | bare _ _ _ | braced _ _ | unterminated _ => simp [isText]

/-- A fragment is cut off where it can go no further. -/
theorem cuts_cons_iff : Cuts line (f :: fragments) ↔
    ∃ rest, line = f.source ++ rest ∧ f ≠ text [] ∧ f.Fits rest ∧
      (f.isText = true → ∀ next ∈ fragments.head?, next.isText = false) ∧ Cuts rest fragments := by
  constructor
  · intro h
    cases h with
    | @text content rest _ hne hcontent hrest hcuts =>
        exact ⟨rest, rfl, by simpa using hne, hcontent, fun _ => hcuts.head?_eq_dollar_iff.mp hrest,
          hcuts⟩
    | @lone rest _ hrest hcuts =>
        -- A `$` alone is a name without characters, so a brace behind it would make a difference.
        have hfits : Fits rest (.bare []) :=
          ⟨by simp, fun c hc => ⟨(hrest c hc).1, fun _ => (hrest c hc).2⟩⟩
        exact ⟨rest, rfl, by simp, hfits, by simp [isText], hcuts⟩
    | @bare name rest _ hname hrest hcuts =>
        simp only [isVariableName, Bool.and_eq_true, Bool.not_eq_true', List.all_eq_true] at hname
        have hfits : Fits rest (.bare name) := by
          refine ⟨hname.2, fun c hc => ⟨hrest c hc, ?_⟩⟩
          rintro rfl
          simp at hname
        exact ⟨rest, rfl, by simp, hfits, by simp [isText], hcuts⟩
    | @braced name rest _ hname hcuts =>
        exact ⟨rest, by simp [source], by simp, hname, by simp [isText], hcuts⟩
    | @unterminated rest hrest =>
        exact ⟨[], by simp [source], by simp, ⟨hrest, rfl⟩, by simp [isText], .nil⟩
  · rintro ⟨rest, rfl, hne, hfits, hapart, hcuts⟩
    cases f with
    | text content =>
        have hcontent : content ≠ [] := by simpa using hne
        exact .text hcontent hfits (hcuts.head?_eq_dollar_iff.mpr (hapart rfl)) hcuts
    | bare name =>
        obtain ⟨hname, hrest⟩ := hfits
        cases name with
        | nil => exact .lone (fun c hc => ⟨(hrest c hc).1, (hrest c hc).2 rfl⟩) hcuts
        | cons c name =>
            exact .bare (by simpa [isVariableName] using hname) (fun d hd => (hrest d hd).1) hcuts
    | braced name => simpa [source] using Cuts.braced hfits hcuts
    | unterminated name =>
        obtain ⟨hname, rfl⟩ := hfits
        obtain rfl := cuts_nil_iff.mp hcuts
        simpa [source] using Cuts.unterminated hname

/-! ## Longest matches -/

/-- A fragment that fits what follows it is a match of its pattern, unless it is empty text. -/
theorem Fits.is_match (h : f.Fits rest) (hne : f ≠ text []) : f.Matches := by
  cases f with
  | text content => exact ⟨by simpa using hne, h⟩
  | bare name => exact h.1
  | braced name => exact h
  | unterminated name => exact h.1

/-- No pattern matches the empty text. -/
theorem Matches.source_ne_nil (h : f.Matches) : f.source ≠ [] := by
  cases f with
  | text content => exact h.1
  | bare name | braced name | unterminated name => simp [source]

/-- Literal text does not match where there is a `$`. -/
theorem Matches.not_prefix_dollar {content : Text} (h : (text content).Matches) :
    ¬ content <+: '$' :: line := by
  obtain ⟨hne, hcontent⟩ := h
  obtain ⟨c, content, rfl⟩ := List.exists_cons_of_ne_nil hne
  intro hbegins
  obtain ⟨rfl, -⟩ := List.cons_prefix_cons.mp hbegins
  exact hcontent List.mem_cons_self

/-- A name does not go into a brace. -/
theorem Matches.eq_nil_of_prefix_brace {name : Text} (h : (bare name).Matches)
    (hbegins : name <+: '{' :: line) : name = [] := by
  cases name with
  | nil => rfl
  | cons c name =>
      obtain ⟨rfl, -⟩ := List.cons_prefix_cons.mp hbegins
      exact absurd (h _ List.mem_cons_self) (by decide)

/-- The beginning of a text is shorter than it, unless it is all of it. -/
theorem length_lt_of_prefix_ne {a b : Text} (h : a <+: b) (hne : a ≠ b) : a.length < b.length :=
  lt_of_le_of_ne h.length_le fun heq => hne (h.eq_of_length heq)

variable {g : Fragment} {content name : Text}

/-- No match is longer than the text up to the next `$`. -/
theorem Matches.length_lt_text (hg : g.Matches) (hcontent : (text content).Matches)
    (hrest : ∀ c ∈ rest.head?, c = '$') (hbegins : g.source <+: content ++ rest)
    (hne : g ≠ text content) : g.source.length < content.length := by
  cases g with
  | text other =>
      have hother : other ≠ content := by simpa using hne
      exact length_lt_of_prefix_ne (Text.prefix_up_to hg.2 hrest hbegins) hother
  | bare _ | braced _ | unterminated _ =>
      obtain ⟨c, content, rfl⟩ := List.exists_cons_of_ne_nil hcontent.1
      obtain ⟨rfl, -⟩ := List.cons_prefix_cons.mp hbegins
      exact absurd List.mem_cons_self hcontent.2

/-- No match is longer than a `$` with all name characters behind it, unless there is a brace. -/
theorem Matches.length_lt_bare (hg : g.Matches) (hfits : (bare name).Fits rest)
    (hbegins : g.source <+: '$' :: (name ++ rest)) (hne : g ≠ bare name) :
    g.source.length < name.length + 1 := by
  obtain ⟨hname, hrest⟩ := hfits
  have hbrace : ∀ more, name ++ rest ≠ '{' :: more := by
    intro more heq
    have hnone := Matches.eq_nil_of_prefix_brace hname ⟨rest, heq⟩
    rw [hnone, List.nil_append] at heq
    exact (hrest '{' (by rw [heq]; rfl)).2 hnone rfl
  cases g with
  | text other => exact absurd hbegins hg.not_prefix_dollar
  | bare other =>
      have hother := Text.prefix_run isNameChar hg (fun c hc => (hrest c hc).1)
        (List.cons_prefix_cons.mp hbegins).2
      exact Nat.succ_lt_succ (length_lt_of_prefix_ne hother (by simpa using hne))
  | braced other | unterminated other =>
      obtain ⟨more, heq⟩ := (List.cons_prefix_cons.mp hbegins).2
      exact absurd heq.symm (hbrace _)

/-- No match is longer than a brace up to its first `}`. -/
theorem Matches.length_lt_braced (hg : g.Matches)
    (hbegins : g.source <+: '$' :: '{' :: (name ++ '}' :: rest)) (hne : g ≠ braced name) :
    g.source.length < name.length + 3 := by
  cases g with
  | text other => exact absurd hbegins hg.not_prefix_dollar
  | bare other =>
      obtain rfl := hg.eq_nil_of_prefix_brace (List.cons_prefix_cons.mp hbegins).2
      simp [source]
  | braced other =>
      have hclosed : other ++ ['}'] <+: name ++ '}' :: rest := by simpa [source] using hbegins
      have hother := Text.prefix_up_to hg (by simp) ((List.prefix_append _ _).trans hclosed)
      simpa [source] using length_lt_of_prefix_ne hother (by simpa using hne)
  | unterminated other =>
      have hopen : other <+: name ++ '}' :: rest := by simpa [source] using hbegins
      have hother := (Text.prefix_up_to hg (by simp) hopen).length_le
      simp [source]
      omega

/-- No match is longer than a brace that nothing closes. -/
theorem Matches.length_lt_unterminated (hg : g.Matches) (hname : '}' ∉ name)
    (hbegins : g.source <+: '$' :: '{' :: name) (hne : g ≠ unterminated name) :
    g.source.length < name.length + 2 := by
  cases g with
  | text other => exact absurd hbegins hg.not_prefix_dollar
  | bare other =>
      obtain rfl := hg.eq_nil_of_prefix_brace (List.cons_prefix_cons.mp hbegins).2
      simp [source]
  | braced other =>
      have hclosed : other ++ ['}'] <+: name := by simpa [source] using hbegins
      exact absurd (hclosed.subset (by simp)) hname
  | unterminated other =>
      have hopen : other <+: name := by simpa [source] using hbegins
      simpa [source] using length_lt_of_prefix_ne hopen (by simpa using hne)

/-- The first fragment of a line is the longest match at its beginning. -/
theorem Cuts.longest_match (h : Cuts line (f :: fragments)) : LongestMatch line f := by
  obtain ⟨rest, rfl, hne, hfits, hapart, hcuts⟩ := cuts_cons_iff.mp h
  have hmatch := hfits.is_match hne
  refine ⟨hmatch, List.prefix_append _ _, fun g hg hbegins hother => ?_⟩
  cases f with
  | text content =>
      exact hg.length_lt_text hmatch (hcuts.head?_eq_dollar_iff.mpr (hapart rfl)) hbegins hother
  | bare name => exact hg.length_lt_bare hfits hbegins hother
  | braced name =>
      have hline : (Fragment.braced name).source ++ rest = '$' :: '{' :: (name ++ '}' :: rest) := by
        simp [source]
      have hlength : (Fragment.braced name).source.length = name.length + 3 := by simp [source]
      rw [hline] at hbegins
      rw [hlength]
      exact hg.length_lt_braced hbegins hother
  | unterminated name =>
      obtain ⟨hname, rfl⟩ := hfits
      rw [List.append_nil] at hbegins
      exact hg.length_lt_unterminated hname hbegins hother

/-- There is at most one longest match. -/
theorem LongestMatch.unique (hf : LongestMatch line f) (hg : LongestMatch line g) : f = g := by
  by_contra hne
  have hshorter := hg.longest f hf.isMatch hf.isPrefix hne
  have hlonger := hf.longest g hg.isMatch hg.isPrefix (Ne.symm hne)
  exact absurd hshorter (Nat.lt_asymm hlonger)

/-- A line that is not empty begins with a fragment. -/
theorem exists_cuts_cons (hne : line ≠ []) : ∃ f fragments, Cuts line (f :: fragments) := by
  obtain ⟨c, line, rfl⟩ := List.exists_cons_of_ne_nil hne
  have hcuts := cuts_cut (c :: line)
  rw [cut] at hcuts
  exact ⟨_, _, hcuts⟩

/-- The longest match in front of a cutting is its first fragment. -/
theorem LongestMatch.cuts_cons (h : LongestMatch (f.source ++ rest) f)
    (hcuts : Cuts rest fragments) :
    Cuts (f.source ++ rest) (f :: fragments) := by
  have hne : f.source ++ rest ≠ [] := List.append_ne_nil_of_left_ne_nil h.isMatch.source_ne_nil rest
  obtain ⟨g, others, hothers⟩ := exists_cuts_cons hne
  obtain rfl := h.unique hothers.longest_match
  obtain ⟨rest', heq, -, -, -, hrest⟩ := cuts_cons_iff.mp hothers
  obtain rfl := List.append_cancel_left heq
  rwa [hcuts.eq_cut, ← hrest.eq_cut]

/-- Taking the longest match from place to place cuts the line, and there is one at every place. -/
theorem lexed_iff {invalid : Option Text} :
    Lexed line fragments invalid ↔ Cuts line fragments ∧ invalid = none := by
  constructor
  · intro h
    induction h with
    | done => exact ⟨.nil, rfl⟩
    | step hlongest _ ih => exact ⟨hlongest.cuts_cons ih.1, ih.2⟩
    | invalid hne hnone =>
        obtain ⟨f, _, hcuts⟩ := exists_cuts_cons hne
        exact absurd hcuts.longest_match.isPrefix (hnone f hcuts.longest_match.isMatch)
  · rintro ⟨hcuts, rfl⟩
    induction fragments generalizing line with
    | nil =>
        cases hcuts
        exact .done
    | cons f fragments ih =>
        have hlongest := hcuts.longest_match
        obtain ⟨rest, rfl, -, -, -, hrest⟩ := cuts_cons_iff.mp hcuts
        exact .step hlongest (ih hrest)

end Fragment

/-! ## Tokens -/

namespace Token

open Fragment

variable {line start rest : Text} {fragments : List Fragment} {tokens : List Token}

/-- The first token stands where the fragments begin, and the others behind it. -/
theorem of_fragments_cons (start : Nat) (f : Fragment) (fragments : List Fragment) :
    ofFragments start (f :: fragments) = ⟨start, start + Text.byteLength f.source, f⟩ ::
      ofFragments (start + Text.byteLength f.source) fragments := rfl

/-- Placing fragments keeps them. -/
theorem map_fragment_of_fragments (start : Nat) (fragments : List Fragment) :
    (ofFragments start fragments).map Token.fragment = fragments := by
  induction fragments generalizing start with
  | nil => rfl
  | cons f fragments ih => rw [of_fragments_cons, List.map_cons, ih]

/-- A part of a line that starts where the token does begins with the token. -/
theorem At.exists_rest {t : Token} {before after : Text} (h : t.At (start ++ rest) before after)
    (hstart : t.start = Text.byteLength start) :
    before = start ∧ rest = t.fragment.source ++ after := by
  have hline := h.line_eq
  rw [List.append_assoc] at hline
  obtain ⟨rfl, hrest⟩ := Text.append_inj_of_byte_length hline (hstart.symm.trans h.start_eq)
  exact ⟨rfl, hrest⟩

/-- A token is told by its fragment and the text before it. -/
theorem At.eq {t : Token} {before after : Text} (h : t.At line before after) :
    t = ⟨Text.byteLength before, Text.byteLength before + Text.byteLength t.fragment.source,
      t.fragment⟩ := by
  rw [← Text.byte_length_append, ← h.start_eq, ← h.stop_eq]

/-- Tokens that cut the rest of a line are those of its fragments. -/
theorem cuts_of_tiles
    (htiles : Tiles (Text.byteLength start) tokens (Text.byteLength (start ++ rest)))
    (hfits : ∀ t ∈ tokens, ∃ before after,
      t.At (start ++ rest) before after ∧ t.fragment.Fits after)
    (hapart : tokens.IsChain fun t next => t.fragment.isText = true → next.fragment.isText = false) :
    Cuts rest (tokens.map Token.fragment) ∧
      tokens = ofFragments (Text.byteLength start) (tokens.map Token.fragment) := by
  induction tokens generalizing start rest with
  | nil =>
      have hnone : Text.byteLength start = Text.byteLength (start ++ rest) := htiles
      rw [Text.byte_length_append, Nat.left_eq_add, Text.byte_length_eq_zero_iff] at hnone
      subst hnone
      exact ⟨.nil, rfl⟩
  | cons t tokens ih =>
      obtain ⟨hstart, hlt, htiles⟩ := htiles
      obtain ⟨⟨before, after, hat, hfitsFirst⟩, hfits⟩ := List.forall_mem_cons.mp hfits
      obtain ⟨hnext, hapart⟩ := List.isChain_cons.mp hapart
      -- By its offset the token stands behind what was read so far.
      obtain ⟨rfl, rfl⟩ := hat.exists_rest hstart
      rw [← List.append_assoc] at hfits htiles
      rw [hat.stop_eq] at htiles hlt
      obtain ⟨hcuts, htokens⟩ := ih htiles hfits hapart
      -- A token takes some bytes, so it is no empty text.
      have hne : t.fragment ≠ text [] := by
        intro htext
        simp [htext, source] at hlt
      refine ⟨cuts_cons_iff.mpr ⟨after, rfl, hne, hfitsFirst, ?_, hcuts⟩, ?_⟩
      · intro htext next hnextFragment
        rw [List.head?_map] at hnextFragment
        obtain ⟨later, hlater, rfl⟩ := Option.map_eq_some_iff.mp hnextFragment
        exact hnext later hlater htext
      · rw [Text.byte_length_append] at htokens
        rw [List.map_cons, of_fragments_cons, ← htokens, ← hat.eq]

/-- The tokens of a cut take all bytes of its line. -/
theorem tiles_of_cuts (start : Text) (h : Cuts rest fragments) :
    Tiles (Text.byteLength start) (ofFragments (Text.byteLength start) fragments)
      (Text.byteLength (start ++ rest)) := by
  induction fragments generalizing start rest with
  | nil =>
      cases h
      rw [List.append_nil]
      exact rfl
  | cons f fragments ih =>
      obtain ⟨after, rfl, hne, hfits, -, hcuts⟩ := cuts_cons_iff.mp h
      have hlength : 0 < Text.byteLength f.source := Nat.pos_of_ne_zero fun hzero =>
        (hfits.is_match hne).source_ne_nil (Text.byte_length_eq_zero_iff.mp hzero)
      have htiles := ih (start ++ f.source) hcuts
      rw [Text.byte_length_append start, List.append_assoc] at htiles
      exact ⟨rfl, Nat.lt_add_of_pos_right hlength, htiles⟩

/-- The tokens of a cut are where they say, and go no further than they do. -/
theorem fits_of_cuts (start : Text) (h : Cuts rest fragments) :
    ∀ t ∈ ofFragments (Text.byteLength start) fragments, ∃ before after,
      t.At (start ++ rest) before after ∧ t.fragment.Fits after := by
  induction fragments generalizing start rest with
  | nil => exact fun t ht => nomatch ht
  | cons f fragments ih =>
      obtain ⟨after, rfl, -, hfits, -, hcuts⟩ := cuts_cons_iff.mp h
      rw [of_fragments_cons]
      refine List.forall_mem_cons.mpr ⟨⟨start, after, ⟨?_, rfl, ?_⟩, hfits⟩, ?_⟩
      · rw [List.append_assoc]
      · rw [Text.byte_length_append]
      · have hlater := ih (start ++ f.source) hcuts
        rwa [Text.byte_length_append, List.append_assoc] at hlater

end Token

/-- In a cutting no two texts are neighbours. -/
theorem Fragment.Cuts.is_chain {line : Text} {fragments : List Fragment} (h : Cuts line fragments) :
    fragments.IsChain fun f next => f.isText = true → next.isText = false := by
  induction fragments generalizing line with
  | nil => exact .nil
  | cons f fragments ih =>
      obtain ⟨rest, -, -, -, hapart, hcuts⟩ := cuts_cons_iff.mp h
      exact List.isChain_cons.mpr ⟨fun next hnext htext => hapart htext next hnext, ih hcuts⟩

/-- In a cutting every fragment but the last is whole. -/
theorem Fragment.WholeBeforeLast.whole_drop_last {fragments : List Fragment}
    (h : WholeBeforeLast fragments) : ∀ f ∈ fragments.dropLast, f.isWhole = true := by
  rcases h with h | ⟨before, rest, rfl, hbefore⟩
  · exact fun f hf => h f (List.mem_of_mem_dropLast hf)
  · rwa [List.dropLast_concat]

open Fragment Token

/-- The tokens of a line's fragments are the only cutting of it. -/
theorem Token.cutting_iff {line : Text} {tokens : List Token} :
    Cutting line tokens ↔ tokens = ofFragments 0 (cut line) := by
  constructor
  · intro h
    obtain ⟨hcuts, htokens⟩ := @cuts_of_tiles [] line tokens h.tiles h.fits h.apart
    rwa [hcuts.eq_cut] at htokens
  · rintro rfl
    have hcuts := cuts_cut line
    refine ⟨tiles_of_cuts [] hcuts, fits_of_cuts [] hcuts, ?_, ?_⟩
    · have hchain := hcuts.is_chain
      rwa [← map_fragment_of_fragments 0 (cut line), List.isChain_map] at hchain
    · intro t ht
      refine hcuts.whole_before_last.whole_drop_last t.fragment ?_
      rw [← map_fragment_of_fragments 0 (cut line), ← List.map_dropLast]
      exact List.mem_map_of_mem ht

/-- Every line can be cut in one way and no other, and it is cut so: from the first byte to the
last, into literal text, references and at most one brace that is not closed. Taking the longest
match from place to place comes to the same, and finds one at every place. -/
theorem cutting_law (line : Text) :
    (∀ tokens, Token.Cutting line tokens ↔ tokens = Token.ofFragments 0 (Fragment.cut line)) ∧
    (Token.ofFragments 0 (Fragment.cut line)).flatMap (·.fragment.source) = line ∧
    ∀ fragments invalid, Fragment.Lexed line fragments invalid ↔
      fragments = Fragment.cut line ∧ invalid = none := by
  refine ⟨fun tokens => cutting_iff, ?_, fun fragments invalid => ?_⟩
  · have hsources := (cuts_cut line).sources_eq
    rwa [← map_fragment_of_fragments 0 (cut line), sources, List.flatMap_map] at hsources
  · rw [lexed_iff]
    have hcuts : Cuts line fragments ↔ fragments = cut line :=
      ⟨Cuts.eq_cut, fun heq => heq ▸ cuts_cut line⟩
    rw [hcuts]

/-- The first `$` stands alone, and the brace behind the text is not closed. -/
example : Token.ofFragments 0 (Fragment.cut ['$', 'é', '$', '{']) =
    [⟨0, 1, .bare []⟩, ⟨1, 3, .text ['é']⟩, ⟨3, 5, .unterminated []⟩] := by cbv

end LineShell
