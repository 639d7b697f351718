import LineShell.Proofs.TextCuts
import LineShell.Redirect

/-!
# Operators and operands of a segment

`Redirects.pieces` cuts a segment at its operators and `Redirects.write` puts such pieces together
again. The two are inverse to each other: every segment is what its pieces write (`write_pieces`),
and pieces without an operator in them are read back as they were written (`pieces_write`). So a
segment is known once its command and its operands are, and `split_redirects_eq_ok_iff` says when
they make redirections.
-/

namespace LineShell

/-- The character can begin an operator. -/
def isOperatorChar (c : Char) : Bool :=
  c == '<' || c == '>'

/-- Operators are written with their characters only. -/
theorem is_operator_char_of_mem_symbol {op : Operator} {c : Char} (h : c ∈ op.symbol.toList) :
    isOperatorChar c = true := by
  have hall : op.symbol.toList.all isOperatorChar = true := by
    cases op with
    | input | output | append => rfl
  exact List.all_eq_true.mp hall c h

namespace Redirects

/-- The files that are named. -/
def targets (r : Redirects) : List Text :=
  r.input.toList ++ r.output.toList

/-- The operators in their order, each before its operand. -/
def writeOperands (operands : List (Operator × Text)) : Text :=
  operands.flatMap fun operand => operand.1.symbol.toList ++ operand.2

/-- The segment with the given command, operators and operands. -/
def write (command : Text) (operands : List (Operator × Text)) : Text :=
  command ++ writeOperands operands

/-- No operator begins anywhere in the text. -/
def Plain (t : Text) : Prop :=
  ∀ c ∈ t, isOperatorChar c = false

/-- Operands are written one after the other, each behind its operator. -/
theorem write_operands_cons (op : Operator) (operand : Text) (rest : List (Operator × Text)) :
    writeOperands ((op, operand) :: rest) = op.symbol.toList ++ write operand rest := by
  simp [writeOperands, write]

/-- The characters of operators are `<` and `>`. -/
theorem is_operator_char_eq_false_iff {c : Char} :
    isOperatorChar c = false ↔ c ≠ '<' ∧ c ≠ '>' := by
  simp [isOperatorChar]

/-- The empty text has no operators. -/
theorem plain_nil : Plain [] := by
  intro c hc
  cases hc

/-- Two texts without operators have none together. -/
theorem Plain.append {a b : Text} (ha : Plain a) (hb : Plain b) : Plain (a ++ b) := by
  intro c hc
  rcases List.mem_append.mp hc with hc | hc
  · exact ha c hc
  · exact hb c hc

/-- Blanks have no operators. -/
theorem plain_blank {gap : Text} (h : Text.Blank gap) : Plain gap := by
  intro c hc
  rw [h c hc]
  rfl

/-! ## Cutting -/

/-- A character that begins no operator belongs to the first piece. -/
theorem pieces_cons_plain {c : Char} (h : isOperatorChar c = false) (t : Text) :
    pieces (c :: t) = (c :: (pieces t).1, (pieces t).2) := by
  obtain ⟨hinput, houtput⟩ := is_operator_char_eq_false_iff.mp h
  rw [pieces]
  · exact hinput
  · intro rest hc
    exact absurd hc houtput
  · exact houtput

/-- A text without operators belongs to the first piece. -/
theorem pieces_plain_append {a : Text} (h : Plain a) (t : Text) :
    pieces (a ++ t) = (a ++ (pieces t).1, (pieces t).2) := by
  induction a with
  | nil => rfl
  | cons c a ih =>
      have hc : isOperatorChar c = false := h c List.mem_cons_self
      rw [List.cons_append, pieces_cons_plain hc, ih fun d hd => h d (List.mem_cons_of_mem _ hd)]
      rfl

/-- An operator starts a new piece. Only `>` needs what comes after it to be no `>`. -/
theorem pieces_symbol_append (op : Operator) {t : Text} (h : op = .output → t.head? ≠ some '>') :
    pieces (op.symbol.toList ++ t) = ([], (op, (pieces t).1) :: (pieces t).2) := by
  cases op with
  | input => rfl
  | append => rfl
  | output =>
      cases t with
      | nil => rfl
      | cons c t =>
          have hc : c ≠ '>' := by simpa using h rfl
          show pieces ('>' :: c :: t) = _
          rw [pieces]
          intro rest heq
          exact hc (List.cons.inj heq).1

/-- A segment is what its pieces write. -/
theorem write_pieces (segment : Text) : write (pieces segment).1 (pieces segment).2 = segment := by
  induction segment using pieces.induct with
  | case1 => rfl
  | case2 rest ih =>
      rw [pieces, write, List.nil_append, write_operands_cons, ih]
      rfl
  | case3 rest ih =>
      rw [pieces, write, List.nil_append, write_operands_cons, ih]
      rfl
  | case4 rest hrest ih =>
      rw [pieces, write, List.nil_append, write_operands_cons, ih]
      · rfl
      · exact hrest
  | case5 c rest hinput happend houtput ih =>
      rw [pieces]
      · exact congrArg (c :: ·) ih
      · exact hinput
      · exact happend
      · exact houtput

/-- The command begins a segment. -/
theorem prefix_command (segment : Text) : (pieces segment).1 <+: segment :=
  ⟨_, write_pieces segment⟩

/-- An operand is a part of its segment. -/
theorem infix_operand {segment : Text} {operand : Operator × Text}
    (h : operand ∈ (pieces segment).2) : operand.2 <:+: segment := by
  obtain ⟨before, after, heq⟩ := List.append_of_mem h
  have hwhole := write_pieces segment
  rw [heq, write, writeOperands] at hwhole
  refine ⟨(pieces segment).1 ++ writeOperands before ++ operand.1.symbol.toList,
    writeOperands after, ?_⟩
  simpa [writeOperands] using hwhole

/-- No operator begins in a piece. -/
theorem plain_pieces (segment : Text) : Plain (pieces segment).1 ∧
    ∀ operand ∈ (pieces segment).2, Plain operand.2 := by
  induction segment using pieces.induct with
  | case1 => exact ⟨plain_nil, by simp [pieces]⟩
  | case2 rest ih =>
      rw [pieces]
      exact ⟨plain_nil, List.forall_mem_cons.mpr ih⟩
  | case3 rest ih =>
      rw [pieces]
      exact ⟨plain_nil, List.forall_mem_cons.mpr ih⟩
  | case4 rest hrest ih =>
      rw [pieces]
      · exact ⟨plain_nil, List.forall_mem_cons.mpr ih⟩
      · exact hrest
  | case5 c rest hinput happend houtput ih =>
      have hc := is_operator_char_eq_false_iff.mpr ⟨hinput, houtput⟩
      rw [pieces_cons_plain hc]
      exact ⟨List.forall_mem_cons.mpr ⟨hc, ih.1⟩, ih.2⟩

/-- The command is what comes before the first operator. -/
theorem command_eq_take_while (segment : Text) :
    (pieces segment).1 = segment.takeWhile (!isOperatorChar ·) := by
  induction segment using pieces.induct with
  | case1 | case2 | case3 => rfl
  | case4 rest hrest ih =>
      rw [pieces]
      · rfl
      · exact hrest
  | case5 c rest hinput happend houtput ih =>
      have hc := is_operator_char_eq_false_iff.mpr ⟨hinput, houtput⟩
      rw [pieces_cons_plain hc, List.takeWhile_cons, hc, ih]
      rfl

/-- Pieces without an operator in them are read back. -/
theorem pieces_write {command : Text} {operands : List (Operator × Text)} (hcommand : Plain command)
    (hoperands : ∀ operand ∈ operands, operand.2 ≠ [] ∧ Plain operand.2) :
    pieces (write command operands) = (command, operands) := by
  rw [write, pieces_plain_append hcommand]
  -- With the command out of the way the induction is on the operators.
  suffices h : pieces (writeOperands operands) = ([], operands) by
    rw [h, List.append_nil]
  induction operands generalizing command with
  | nil => rfl
  | cons operand rest ih =>
      obtain ⟨op, operand⟩ := operand
      obtain ⟨⟨hne, hplain⟩, hrest⟩ := List.forall_mem_cons.mp hoperands
      have hhead : (write operand rest).head? ≠ some '>' := by
        obtain ⟨c, operand, rfl⟩ := List.exists_cons_of_ne_nil hne
        intro heq
        have hc := hplain c List.mem_cons_self
        cases heq
        cases hc
      rw [write_operands_cons, pieces_symbol_append op (fun _ => hhead), write,
        pieces_plain_append hplain, ih hplain hrest, List.append_nil]

/-! ## Gathering -/

/-- Operands are gathered one by one if none of them is blank. -/
theorem gather_eq_ok_iff {r r' : Redirects} {operands : List (Operator × Text)} :
    gather r operands = .ok r' ↔ (∀ operand ∈ operands, Text.trim operand.2 ≠ []) ∧
      operands.foldl (fun r operand => r.put operand.1 (Text.trim operand.2)) r = r' := by
  induction operands generalizing r with
  | nil => simp [gather]
  | cons operand rest ih =>
      obtain ⟨op, operand⟩ := operand
      rw [gather, List.forall_mem_cons, List.foldl_cons]
      split
      · rename_i hblank
        simp only [List.isEmpty_iff] at hblank
        simp [hblank]
      · rename_i hsome
        simp only [List.isEmpty_iff] at hsome
        simp [hsome, ih]

/-- A redirect adds its own target at most, and may replace another. -/
theorem mem_targets_put {r : Redirects} {op : Operator} {target t : Text}
    (h : t ∈ (r.put op target).targets) : t ∈ r.targets ∨ t = target := by
  cases op with
  | input =>
      rcases List.mem_append.mp h with h | h
      · exact .inr (List.mem_singleton.mp h)
      · exact .inl (List.mem_append_right _ h)
  | output | append =>
      rcases List.mem_append.mp h with h | h
      · exact .inl (List.mem_append_left _ h)
      · exact .inr (List.mem_singleton.mp h)

/-- The files that are named in the end are those of the operands. -/
theorem mem_targets_foldl_put {operands : List (Operator × Text)} {r : Redirects} {t : Text}
    (h : t ∈ (operands.foldl (fun r operand => r.put operand.1 (Text.trim operand.2)) r).targets) :
    t ∈ r.targets ∨ ∃ operand ∈ operands, t = Text.trim operand.2 := by
  induction operands generalizing r with
  | nil => exact .inl h
  | cons operand rest ih =>
      rcases ih h with hput | ⟨later, hlater, heq⟩
      · rcases mem_targets_put hput with hr | heq
        · exact .inl hr
        · exact .inr ⟨operand, List.mem_cons_self, heq⟩
      · exact .inr ⟨later, List.mem_cons_of_mem _ hlater, heq⟩

/-- Output is added to a file only if there is such a file, whatever the operands are. -/
theorem output_of_append_foldl_put {operands : List (Operator × Text)} {r : Redirects}
    (hr : r.append = true → r.output.isSome) :
    let r' := operands.foldl (fun r operand => r.put operand.1 (Text.trim operand.2)) r
    r'.append = true → r'.output.isSome := by
  induction operands generalizing r with
  | nil => exact hr
  | cons operand rest ih =>
      obtain ⟨op, operand⟩ := operand
      refine ih ?_
      cases op with
      | input => exact hr
      | output => exact fun _ => rfl
      | append => exact fun _ => rfl

end Redirects

/-- A segment gives a command and redirections if no operator is one too many and no operand is
blank. -/
theorem split_redirects_eq_ok_iff {segment command : Text} {r : Redirects} :
    splitRedirects segment = .ok (command, r) ↔
      ∃ operands, Redirects.pieces segment = (command, operands) ∧
        Redirects.firstDuplicate? false false (operands.map Prod.fst) = none ∧
        Redirects.gather {} operands = .ok r := by
  unfold splitRedirects
  generalize Redirects.pieces segment = cut
  obtain ⟨command', operands⟩ := cut
  dsimp only
  split
  · simp_all
  · rename_i hnone
    cases hgather : Redirects.gather {} operands with
    | error e => simp_all [Except.map]
    | ok r' =>
        simp only [Except.map, Except.ok.injEq, Prod.mk.injEq]
        constructor
        · rintro ⟨rfl, rfl⟩
          exact ⟨operands, ⟨rfl, rfl⟩, hnone, hgather⟩
        · rintro ⟨_, ⟨rfl, rfl⟩, _, h⟩
          exact ⟨rfl, Except.ok.inj (hgather.symm.trans h)⟩

end LineShell
