import LineShell.Proofs.RedirectPieces
import LineShell.Proofs.Rows
import Mathlib.Data.Fintype.Card

/-!
# Which redirections can be read

`split_redirects_law` says of every segment what comes of reading its redirections. It gives a
command and redirections exactly if it is a command followed by at most one input and one output,
each with a file name (`Readable`). Otherwise an operator is one too many, which is found first, or
an operand is blank.

Which operators a text holds is clear but for `>`: two in a row are one operator. `Reads` says so,
and every segment is read in one way (`reads_iff`).
-/

namespace LineShell

namespace Redirects

/-- The command of the segment, and its operators from left to right, each with the text behind it.
A `>` is taken together with a `>` right behind it. -/
inductive Reads : Text → Text → List (Operator × Text) → Prop where
  | done {command} : Plain command → Reads command command []
  | step {command op operand rest more} : Plain command → (op = .output → more.head? ≠ some '>') →
      Reads more operand rest →
      Reads (command ++ (op.symbol.toList ++ more)) command ((op, operand) :: rest)

/-- The segment is a command without operators in it, followed by at most one input and one output
operator in either order. Behind each operator stands a file name. -/
inductive Readable : Text → Text → List (Operator × Text) → Prop where
  | command {command} : Plain command → Readable command command []
  | one {command op target} : Plain command → Plain target → ¬ Text.Blank target →
      Readable (command ++ op.symbol.toList ++ target) command [(op, target)]
  | two {command first target second other} : Plain command → Plain target →
      ¬ Text.Blank target → Plain other → ¬ Text.Blank other → first.isInput ≠ second.isInput →
      Readable (command ++ first.symbol.toList ++ target ++ second.symbol.toList ++ other) command
        [(first, target), (second, other)]

/-- The redirections that operators name with their operands, of which spaces at the ends do not
count. -/
def named (operands : List (Operator × Text)) : Redirects where
  input := (operands.find? (·.1.isInput)).map (Text.trim ·.2)
  output := (operands.find? (!·.1.isInput)).map (Text.trim ·.2)
  append := operands.any (·.1 == .append)

/-- No two of the operators take the same side, input or output. -/
def Distinct (operators : List Operator) : Prop :=
  (operators.map Operator.isInput).Nodup

/-- The operator is the first that takes a side which one before it took. -/
inductive FirstDuplicate : List Operator → Operator → Prop where
  | intro {before op after} : Distinct before → op.isInput ∈ before.map Operator.isInput →
      FirstDuplicate (before ++ op :: after) op

/-- The operator is the first with a blank operand. -/
inductive FirstBlank : List (Operator × Text) → Operator → Prop where
  | intro {before op operand after} : (∀ earlier ∈ before, ¬ Text.Blank earlier.2) →
      Text.Blank operand → FirstBlank (before ++ (op, operand) :: after) op

variable {segment command : Text} {operands : List (Operator × Text)} {operators : List Operator}
  {op : Operator}

/-! ## Reading from left to right -/

/-- A character that begins no operator belongs to the command. -/
theorem Reads.cons_plain {c : Char} (hc : isOperatorChar c = false)
    (h : Reads segment command operands) : Reads (c :: segment) (c :: command) operands := by
  have hplain {t : Text} (ht : Plain t) : Plain (c :: t) := List.forall_mem_cons.mpr ⟨hc, ht⟩
  cases h with
  | done hcommand => exact .done (hplain hcommand)
  | step hcommand hgreedy hrest => exact .step (hplain hcommand) hgreedy hrest

/-- Every segment is read as its pieces. -/
theorem reads_pieces (segment : Text) : Reads segment (pieces segment).1 (pieces segment).2 := by
  induction segment using pieces.induct with
  | case1 => exact .done plain_nil
  | case2 rest ih => exact @Reads.step [] .input _ _ rest plain_nil (by simp) ih
  | case3 rest ih => exact @Reads.step [] .append _ _ rest plain_nil (by simp) ih
  | case4 rest hrest ih =>
      rw [pieces]
      · refine @Reads.step [] .output _ _ rest plain_nil (fun _ hhead => ?_) ih
        cases rest with
        | nil => cases hhead
        | cons c rest => exact hrest rest (by rw [Option.some.inj hhead])
      · exact hrest
  | case5 c rest hinput happend houtput ih =>
      have hc := is_operator_char_eq_false_iff.mpr ⟨hinput, houtput⟩
      rw [pieces_cons_plain hc]
      exact ih.cons_plain hc

/-- Every segment is read in one way. -/
theorem reads_iff : Reads segment command operands ↔ pieces segment = (command, operands) := by
  constructor
  · intro h
    induction h with
    | @done command hcommand =>
        have hend := pieces_plain_append hcommand []
        simpa [pieces] using hend
    | @step command op operand rest more hcommand hgreedy _ ih =>
        rw [pieces_plain_append hcommand, pieces_symbol_append op hgreedy, ih, List.append_nil]
  · intro h
    have hreads := reads_pieces segment
    rwa [h] at hreads

/-! ## Operators that are one too many -/

/-- The next operator is compared with those before it. -/
theorem first_duplicate?_cons (before : List Operator) (op : Operator) (rest : List Operator) :
    firstDuplicate? (before.any Operator.isInput) (before.any (!·.isInput)) (op :: rest) =
      if op.isInput ∈ before.map Operator.isInput then some op
      else firstDuplicate? ((before ++ [op]).any Operator.isInput)
        ((before ++ [op]).any (!·.isInput)) rest := by
  cases op <;> simp [firstDuplicate?, Operator.isInput]

/-- Operators are distinct if one of them is not on the side of another, and the others are
distinct. -/
theorem distinct_middle_iff {before rest : List Operator} : Distinct (before ++ op :: rest) ↔
    op.isInput ∉ (before ++ rest).map Operator.isInput ∧ Distinct (before ++ rest) := by
  rw [Distinct, List.map_append, List.map_cons, List.nodup_middle, List.nodup_cons, Distinct,
    List.map_append]

/-- Operators that take different sides are passed over. -/
theorem first_duplicate?_append {before more : List Operator} (h : Distinct (before ++ more))
    (rest : List Operator) :
    firstDuplicate? (before.any Operator.isInput) (before.any (!·.isInput)) (more ++ rest) =
      firstDuplicate? ((before ++ more).any Operator.isInput)
        ((before ++ more).any (!·.isInput)) rest := by
  induction more generalizing before with
  | nil => rw [List.append_nil, List.nil_append]
  | cons op more ih =>
      have hnew : op.isInput ∉ before.map Operator.isInput := fun hmem =>
        (distinct_middle_iff.mp h).1 (by rw [List.map_append]; exact List.mem_append_left _ hmem)
      rw [← List.singleton_append, ← List.append_assoc] at h
      rw [List.cons_append, first_duplicate?_cons, if_neg hnew, ih h, List.append_assoc,
        List.singleton_append]

/-- Distinct operators have no duplicate. -/
theorem Distinct.first_duplicate?_eq_none (h : Distinct operators) :
    firstDuplicate? false false operators = none := by
  have hpass := @first_duplicate?_append [] _ h []
  rwa [List.append_nil] at hpass

/-- The first duplicate is found. -/
theorem FirstDuplicate.first_duplicate?_eq (h : FirstDuplicate operators op) :
    firstDuplicate? false false operators = some op := by
  obtain ⟨hdistinct, htaken⟩ := h
  rename_i before after
  have hpass := @first_duplicate?_append [] _ hdistinct (op :: after)
  rw [List.nil_append, first_duplicate?_cons, if_pos htaken] at hpass
  exact hpass

/-- Operators are distinct, or one of them is the first duplicate. -/
theorem distinct_or_first_duplicate (operators : List Operator) :
    Distinct operators ∨ ∃ op, FirstDuplicate operators op := by
  induction operators using List.reverseRecOn with
  | nil => exact .inl List.nodup_nil
  | append_singleton before op ih =>
      rcases ih with hdistinct | ⟨first, hfirst⟩
      · by_cases htaken : op.isInput ∈ before.map Operator.isInput
        · exact .inr ⟨op, .intro hdistinct htaken⟩
        · exact .inl (distinct_middle_iff.mpr (by simpa using ⟨by simpa using htaken, hdistinct⟩))
      · obtain ⟨hdistinct, htaken⟩ := hfirst
        rw [List.append_assoc, List.cons_append]
        exact .inr ⟨first, .intro hdistinct htaken⟩

/-- What is found is the first duplicate. -/
theorem first_duplicate?_eq_some_iff :
    firstDuplicate? false false operators = some op ↔ FirstDuplicate operators op := by
  refine ⟨fun h => ?_, FirstDuplicate.first_duplicate?_eq⟩
  rcases distinct_or_first_duplicate operators with hdistinct | ⟨first, hfirst⟩
  · cases h.symm.trans hdistinct.first_duplicate?_eq_none
  · cases h.symm.trans hfirst.first_duplicate?_eq
    exact hfirst

/-- Nothing is found only among distinct operators. -/
theorem first_duplicate?_eq_none_iff :
    firstDuplicate? false false operators = none ↔ Distinct operators := by
  refine ⟨fun h => ?_, Distinct.first_duplicate?_eq_none⟩
  rcases distinct_or_first_duplicate operators with hdistinct | ⟨first, hfirst⟩
  · exact hdistinct
  · cases h.symm.trans hfirst.first_duplicate?_eq

/-! ## Operands that are blank -/

/-- Gathering stops at the first operand that is blank. -/
theorem FirstBlank.gather_eq (h : FirstBlank operands op) (r : Redirects) :
    gather r operands = .error (.missingTarget op) := by
  obtain ⟨hbefore, hblank⟩ := h
  rename_i before operand after
  induction before generalizing r with
  | nil => rw [List.nil_append, gather, if_pos (by simpa using Text.trim_eq_nil_iff.mpr hblank)]
  | cons earlier before ih =>
      obtain ⟨hearlier, hbefore⟩ := List.forall_mem_cons.mp hbefore
      have hsome : Text.trim earlier.2 ≠ [] := fun heq => hearlier (Text.trim_eq_nil_iff.mp heq)
      rw [List.cons_append, gather, if_neg (by simpa using hsome), ih _ hbefore]

/-- Gathering fails only for want of an operand, at the first that is blank. -/
theorem gather_eq_error_iff {r : Redirects} {e : RedirectError} :
    gather r operands = .error e ↔ ∃ op, e = .missingTarget op ∧ FirstBlank operands op := by
  constructor
  · intro h
    rcases forall_not_or_exists_first (fun operand => Text.Blank operand.2) operands with
      hsome | ⟨before, ⟨op, operand⟩, after, rfl, hbefore, hblank⟩
    · have hok : gather r operands = .ok _ := gather_eq_ok_iff.mpr
        ⟨fun operand hmem heq => hsome operand hmem (Text.trim_eq_nil_iff.mp heq), rfl⟩
      cases h.symm.trans hok
    · have hfirst : FirstBlank (before ++ (op, operand) :: after) op := .intro hbefore hblank
      cases h.symm.trans (hfirst.gather_eq r)
      exact ⟨op, rfl, hfirst⟩
  · rintro ⟨op, rfl, h⟩
    exact h.gather_eq r

/-! ## Segments that can be read -/

/-- There are two sides to take. -/
theorem Distinct.length_le (h : Distinct operators) : operators.length ≤ 2 := by
  simpa using List.Nodup.length_le_card h

/-- A segment is readable if its operators are distinct and none of its operands is blank. -/
theorem readable_iff : Readable segment command operands ↔
    Reads segment command operands ∧ Distinct (operands.map Prod.fst) ∧
      ∀ operand ∈ operands, ¬ Text.Blank operand.2 := by
  have hsome {t : Text} (ht : ¬ Text.Blank t) : t ≠ [] := by
    rintro rfl
    exact ht Text.blank_nil
  constructor
  · intro h
    have hwrite : write command operands = segment := by
      cases h <;> simp [write, writeOperands]
    -- Cutting what was written gives the parts back, since none of them has an operator in it.
    rw [reads_iff, ← hwrite]
    cases h with
    | command hcommand => exact ⟨pieces_write hcommand (by simp), List.nodup_nil, by simp⟩
    | one hcommand htarget htargetSome =>
        exact ⟨pieces_write hcommand (by simp [htarget, hsome htargetSome]),
          List.nodup_singleton _, by simpa using htargetSome⟩
    | two hcommand htarget htargetSome hother hotherSome hsides =>
        refine ⟨pieces_write hcommand ?_, by simpa [Distinct] using hsides, ?_⟩
        · simp [htarget, hother, hsome htargetSome, hsome hotherSome]
        · simp [htargetSome, hotherSome]
  · rintro ⟨hreads, hdistinct, hblank⟩
    have hpieces := reads_iff.mp hreads
    obtain ⟨hcommand, hoperands⟩ := plain_pieces segment
    have hwrite := write_pieces segment
    rw [hpieces] at hcommand hoperands hwrite
    -- With two sides to take, there are no more than two operators.
    have hlength := hdistinct.length_le
    rw [← hwrite]
    rcases operands with _ | ⟨⟨first, target⟩, _ | ⟨⟨second, other⟩, _ | ⟨third, more⟩⟩⟩
    · rw [write, writeOperands, List.flatMap_nil, List.append_nil]
      exact .command hcommand
    · have hone : write command [(first, target)] = command ++ first.symbol.toList ++ target := by
        simp [write, writeOperands]
      rw [List.forall_mem_singleton] at hoperands hblank
      rw [hone]
      exact .one hcommand hoperands hblank
    · have htwo : write command [(first, target), (second, other)] =
          command ++ first.symbol.toList ++ target ++ second.symbol.toList ++ other := by
        simp [write, writeOperands]
      rw [List.forall_mem_cons, List.forall_mem_singleton] at hoperands hblank
      have hsides : first.isInput ≠ second.isInput := by simpa [Distinct] using hdistinct
      rw [htwo]
      exact .two hcommand hoperands.1 hblank.1 hoperands.2 hblank.2 hsides
    · simp at hlength

/-- The operators of a segment that can be read name its redirections one by one. -/
theorem Readable.foldl_put_eq (h : Readable segment command operands) :
    operands.foldl (fun r operand => r.put operand.1 (Text.trim operand.2)) {} = named operands := by
  cases h with
  | command => rfl
  | @one _ op => cases op <;> rfl
  | @two _ first _ second _ _ _ _ _ _ hsides =>
      cases first with
      | input =>
          cases second with
          | input => exact absurd rfl hsides
          | output | append => rfl
      | output | append =>
          cases second with
          | input => rfl
          | output | append => exact absurd rfl hsides

end Redirects

open Redirects

variable {segment command : Text} {operands : List (Operator × Text)}

/-- A segment is split exactly if it is readable, into its command and the redirects that its
operands name. -/
theorem split_redirects_eq_ok_iff_readable {r : Redirects} :
    splitRedirects segment = .ok (command, r) ↔
      ∃ operands, Readable segment command operands ∧ r = named operands := by
  rw [split_redirects_eq_ok_iff]
  refine exists_congr fun operands => ?_
  have hblank : (∀ operand ∈ operands, Text.trim operand.2 ≠ []) ↔
      ∀ operand ∈ operands, ¬ Text.Blank operand.2 :=
    forall₂_congr fun operand _ => not_congr Text.trim_eq_nil_iff
  rw [gather_eq_ok_iff, hblank, first_duplicate?_eq_none_iff, ← reads_iff]
  constructor
  · rintro ⟨hreads, hdistinct, hsome, rfl⟩
    have hreadable := readable_iff.mpr ⟨hreads, hdistinct, hsome⟩
    exact ⟨hreadable, hreadable.foldl_put_eq⟩
  · rintro ⟨hreadable, rfl⟩
    obtain ⟨hreads, hdistinct, hsome⟩ := readable_iff.mp hreadable
    exact ⟨hreads, hdistinct, hsome, hreadable.foldl_put_eq⟩

/-- An operator that is one too many is found before the operands are looked at. -/
theorem Redirects.Reads.split_redirects_eq_error_iff (h : Reads segment command operands)
    {e : RedirectError} : splitRedirects segment = .error e ↔
      (∃ op, e = .duplicate op ∧ FirstDuplicate (operands.map Prod.fst) op) ∨
      (∃ op, e = .missingTarget op ∧ Distinct (operands.map Prod.fst) ∧ FirstBlank operands op) := by
  rw [splitRedirects, reads_iff.mp h]
  dsimp only
  split
  · rename_i op hop
    constructor
    · intro herror
      cases herror
      exact .inl ⟨op, rfl, first_duplicate?_eq_some_iff.mp hop⟩
    · rintro (⟨first, rfl, hfirst⟩ | ⟨_, _, hdistinct, _⟩)
      · rw [Option.some.inj (hop.symm.trans hfirst.first_duplicate?_eq)]
      · cases hop.symm.trans hdistinct.first_duplicate?_eq_none
  · rename_i hnone
    have hmap : (gather {} operands).map (command, ·) = .error e ↔
        gather {} operands = .error e := by
      cases gather {} operands <;> simp [Except.map]
    rw [hmap, gather_eq_error_iff]
    constructor
    · rintro ⟨op, rfl, hfirst⟩
      exact .inr ⟨op, rfl, first_duplicate?_eq_none_iff.mp hnone, hfirst⟩
    · rintro (⟨_, _, hfirst⟩ | ⟨op, rfl, _, hfirst⟩)
      · cases hnone.symm.trans hfirst.first_duplicate?_eq
      · exact ⟨op, rfl, hfirst⟩

/-- A segment gives a command and redirections exactly if it is readable, and it is so in one way
only: the command is what stands before the operators, and the operators name the redirections.
Otherwise the first operator that is one too many is at fault, and if there is none, the first
with a blank operand. -/
theorem split_redirects_law (segment : Text) :
    (∀ command r, splitRedirects segment = .ok (command, r) ↔
      ∃ operands, Readable segment command operands ∧ r = named operands) ∧
    (∀ command operands command' operands', Readable segment command operands →
      Readable segment command' operands' → command = command' ∧ operands = operands') ∧
    (∃ command operands, Reads segment command operands) ∧
    ∀ command operands, Reads segment command operands →
      (∀ op, splitRedirects segment = .error (.duplicate op) ↔
        FirstDuplicate (operands.map Prod.fst) op) ∧
      (∀ op, splitRedirects segment = .error (.missingTarget op) ↔
        Distinct (operands.map Prod.fst) ∧ FirstBlank operands op) := by
  refine ⟨fun command r => split_redirects_eq_ok_iff_readable, ?_, ⟨_, _, reads_pieces segment⟩, ?_⟩
  · intro command operands command' operands' h h'
    have hread := reads_iff.mp (readable_iff.mp h).1
    exact Prod.mk.inj (hread.symm.trans (reads_iff.mp (readable_iff.mp h').1))
  · intro command operands hreads
    refine ⟨fun op => ?_, fun op => ?_⟩
    · simp [hreads.split_redirects_eq_error_iff]
    · simp [hreads.split_redirects_eq_error_iff]

/-- The first two `>` are one operator, so the third is a second output and not an operand. -/
example : splitRedirects ['c', '>', '>', '>', 'f'] = .error (.duplicate .output) := by decide

end LineShell
