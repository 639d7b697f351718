import LineShell.Proofs.LineReading
import LineShell.Proofs.RedirectGrammar
import LineShell.Proofs.TextSlices

/-!
# Scans of bytes

The operators of a segment and the comment of a line can also be looked for among the bytes, with
offsets in place of characters. A scan steps from byte to byte, looks at the one before or behind,
and takes out the parts between the offsets that it found. It fails if two offsets do not bound a
part. `byte_scan_law` shows that they always do, and that these scans and those of the characters
come to the same.
-/

namespace LineShell.ByteScan

open Redirects

/-- The number of bytes of an operator. -/
def width (op : Operator) : Nat :=
  Text.byteLength op.symbol.toList

/-- The scan moves on behind an operator, which is what makes it end. -/
theorem width_pos (op : Operator) : 0 < width op := by
  cases op <;> decide

/-- The operators from the byte at `i` on, each with its offset. `input` and `output` say
which sides are taken. -/
def operatorsFrom (bytes : List UInt8) (i : Nat) (input output : Bool) :
    Except RedirectError (List (Nat × Operator)) :=
  if h : i < bytes.length then
    if bytes[i] = '<'.toUInt8 then
      if input then .error (.duplicate .input)
      else (operatorsFrom bytes (i + width .input) true output).map ((i, .input) :: ·)
    else if bytes[i] = '>'.toUInt8 then
      let op : Operator := if bytes[i + 1]? = some '>'.toUInt8 then .append else .output
      if output then .error (.duplicate op)
      else (operatorsFrom bytes (i + width op) input true).map ((i, op) :: ·)
    else operatorsFrom bytes (i + 1) input output
  else .ok []
termination_by bytes.length - i
decreasing_by
  · exact Nat.sub_lt_sub_left h (Nat.lt_add_of_pos_right (width_pos _))
  · exact Nat.sub_lt_sub_left h (Nat.lt_add_of_pos_right (width_pos _))
  · exact Nat.sub_lt_sub_left h (Nat.lt_succ_self i)

/-- The offset of the first operator, or that of the end if there is none. -/
def firstOffset (size : Nat) (operators : List (Nat × Operator)) : Nat :=
  (operators.head?.map Prod.fst).getD size

/-- The operators with the offsets that bound their operands. -/
def operandRanges (size : Nat) : List (Nat × Operator) → List (Operator × Nat × Nat)
  | [] => []
  | (start, op) :: rest => (op, start + width op, firstOffset size rest) :: operandRanges size rest

/-- The redirections of the operands at the given offsets. -/
def gather (segment : Text) (r : Redirects) :
    List (Operator × Nat × Nat) → Option (Except RedirectError Redirects)
  | [] => some (.ok r)
  | (op, start, stop) :: rest =>
    match segment.slice? start stop with
    | none => none
    | some operand =>
      if (Text.trim operand).isEmpty then some (.error (.missingTarget op))
      else gather segment (r.put op (Text.trim operand)) rest

/-- The command text of a segment and its redirections, found among the bytes. -/
def splitRedirects (segment : Text) : Option (Except RedirectError (Text × Redirects)) :=
  match operatorsFrom segment.bytes 0 false false with
  | .error e => some (.error e)
  | .ok operators =>
    match gather segment {} (operandRanges segment.bytes.length operators) with
    | none => none
    | some (.error e) => some (.error e)
    | some (.ok r) => (segment.slice? 0 (firstOffset segment.bytes.length operators)).map
        fun command => .ok (command, r)

/-- The offsets between which `splitRedirects` takes out parts. -/
def redirectRanges (segment : Text) : List (Nat × Nat) :=
  match operatorsFrom segment.bytes 0 false false with
  | .error _ => []
  | .ok operators => (operandRanges segment.bytes.length operators).map Prod.snd ++
      [(0, firstOffset segment.bytes.length operators)]

/-- The offset of the first `#`, from the byte at `i` on, that is at the start or after a space. -/
def commentFrom (bytes : List UInt8) (i : Nat) : Option Nat :=
  if h : i < bytes.length then
    if bytes[i] = '#'.toUInt8 ∧ (i = 0 ∨ bytes[i - 1] = ' '.toUInt8) then some i
    else commentFrom bytes (i + 1)
  else none
termination_by bytes.length - i

/-- A line without its comment, found among the bytes. -/
def stripComment (line : Text) : Option Text :=
  match commentFrom line.bytes 0 with
  | some i => line.slice? 0 i
  | none => some line

/-- The offsets between which `stripComment` takes out a part. -/
def commentRanges (line : Text) : List (Nat × Nat) :=
  (commentFrom line.bytes 0).toList.map (0, ·)

/-! ## Steps -/

/-- Where each of `n` steps changes nothing, all of them together change nothing. -/
theorem eq_of_steps {α : Type} {f : Nat → α} {p : Nat → Prop} (hstep : ∀ i, p i → f (i + 1) = f i)
    (i n : Nat) (h : ∀ k < n, p (i + k)) : f (i + n) = f i := by
  induction n with
  | zero => rfl
  | succ n ih =>
      rw [← Nat.add_assoc, hstep (i + n) (h n (Nat.lt_succ_self n)),
        ih fun k hk => h k (Nat.lt_succ_of_lt hk)]

variable {bytes : List UInt8} {i : Nat} {input output : Bool}

/-- There are no operators behind the last byte. -/
theorem operators_from_end (h : bytes.length ≤ i) :
    operatorsFrom bytes i input output = .ok [] := by
  rw [operatorsFrom, dif_neg (Nat.not_lt.mpr h)]

/-- A `<` is found at its offset, unless the input was redirected before it. -/
theorem operators_from_input (h : bytes[i]? = some '<'.toUInt8) :
    operatorsFrom bytes i input output = if input then .error (.duplicate .input)
      else (operatorsFrom bytes (i + width .input) true output).map ((i, .input) :: ·) := by
  obtain ⟨hi, hbyte⟩ := List.getElem?_eq_some_iff.mp h
  rw [operatorsFrom, dif_pos hi, if_pos hbyte]

/-- A `>` is found at its offset, as `>>` if another follows it, unless the output was redirected
before it. -/
theorem operators_from_output (h : bytes[i]? = some '>'.toUInt8) {op : Operator}
    (hop : op = if bytes[i + 1]? = some '>'.toUInt8 then .append else .output) :
    operatorsFrom bytes i input output = if output then .error (.duplicate op)
      else (operatorsFrom bytes (i + width op) input true).map ((i, op) :: ·) := by
  obtain ⟨hi, hbyte⟩ := List.getElem?_eq_some_iff.mp h
  rw [operatorsFrom, dif_pos hi, if_neg (by rw [hbyte]; decide), if_pos hbyte, hop]

/-- A byte that begins no operator is passed over. -/
theorem operators_from_other (h : ∃ b, bytes[i]? = some b ∧ b ≠ '<'.toUInt8 ∧ b ≠ '>'.toUInt8) :
    operatorsFrom bytes (i + 1) input output = operatorsFrom bytes i input output := by
  obtain ⟨b, hb, hinput, houtput⟩ := h
  obtain ⟨hi, rfl⟩ := List.getElem?_eq_some_iff.mp hb
  rw [operatorsFrom.eq_def bytes i, dif_pos hi, if_neg hinput, if_neg houtput]

/-- A character that begins no operator is passed over with all its bytes, since none of them is one
of an operator. -/
theorem operators_from_char {c : Char} (hc : isOperatorChar c = false) (start rest : Text)
    (input output : Bool) :
    operatorsFrom (Text.bytes (start ++ c :: rest)) (Text.byteLength (start ++ [c])) input output =
      operatorsFrom (Text.bytes (start ++ c :: rest)) (Text.byteLength start) input output := by
  obtain ⟨hinput, houtput⟩ := is_operator_char_eq_false_iff.mp hc
  have hlength : Text.byteLength (start ++ [c]) = Text.byteLength start + c.utf8Size :=
    Text.byte_length_append start [c]
  rw [hlength]
  refine eq_of_steps (f := fun i => operatorsFrom _ i input output)
    (fun i => operators_from_other) (Text.byteLength start) c.utf8Size fun k hk => ?_
  obtain ⟨b, hb, hget⟩ := Text.exists_get?_bytes start c rest hk
  exact ⟨b, hget, Text.ne_of_mem_encode (by decide) hinput hb,
    Text.ne_of_mem_encode (by decide) houtput hb⟩

/-- A text without operators is passed over, by induction over its characters. -/
theorem operators_from_plain {command : Text} (h : Plain command) (start rest : Text)
    (input output : Bool) :
    operatorsFrom (Text.bytes (start ++ (command ++ rest))) (Text.byteLength start) input output =
      operatorsFrom (Text.bytes (start ++ (command ++ rest))) (Text.byteLength (start ++ command))
        input output := by
  induction command generalizing start with
  | nil => rw [List.append_nil]
  | cons c command ih =>
      obtain ⟨hc, hcommand⟩ := List.forall_mem_cons.mp h
      have hnext := ih hcommand (start ++ [c])
      simp only [List.append_assoc, List.singleton_append] at hnext
      rw [operators_from_char hc] at hnext
      exact hnext

/-- Whether an operator's side is among those that are taken. -/
def isTaken (input output : Bool) (op : Operator) : Bool :=
  if op.isInput then input else output

/-- An operator is found at the offset of its symbol, and the scan goes on behind it with its side
taken. -/
theorem operators_from_symbol (op : Operator) {rest : Text}
    (h : op = .output → rest.head? ≠ some '>') (start : Text) (input output : Bool) :
    operatorsFrom (Text.bytes (start ++ (op.symbol.toList ++ rest))) (Text.byteLength start) input
        output =
      if isTaken input output op then .error (.duplicate op)
      else (operatorsFrom (Text.bytes (start ++ (op.symbol.toList ++ rest)))
        (Text.byteLength start + width op) (input || op.isInput) (output || !op.isInput)).map
          ((Text.byteLength start, op) :: ·) := by
  -- Whether there is a second `>` is seen in the byte behind the first.
  have hnext (t : Text) : (Text.bytes (start ++ '>' :: t))[Text.byteLength start + 1]? =
      some '>'.toUInt8 ↔ t.head? = some '>' := by
    have hiff := Text.get?_bytes_eq_some_iff (d := '>') (by decide) (start ++ ['>']) t
    rwa [List.append_assoc, Text.byte_length_append] at hiff
  cases op with
  | input =>
      have hsymbol : Operator.input.symbol.toList ++ rest = '<' :: rest := rfl
      rw [hsymbol, operators_from_input (Text.get?_bytes_of_lt start (by decide) rest)]
      simp [isTaken, Operator.isInput]
  | output =>
      have hsymbol : Operator.output.symbol.toList ++ rest = '>' :: rest := rfl
      have hop : Operator.output = if (Text.bytes (start ++ '>' :: rest))[
          Text.byteLength start + 1]? = some '>'.toUInt8 then .append else .output := by
        rw [if_neg ((hnext rest).not.mpr (h rfl))]
      rw [hsymbol, operators_from_output (Text.get?_bytes_of_lt start (by decide) rest) hop]
      simp [isTaken, Operator.isInput]
  | append =>
      have hsymbol : Operator.append.symbol.toList ++ rest = '>' :: '>' :: rest := rfl
      have hop : Operator.append = if (Text.bytes (start ++ '>' :: '>' :: rest))[
          Text.byteLength start + 1]? = some '>'.toUInt8 then .append else .output := by
        rw [if_pos ((hnext ('>' :: rest)).mpr rfl)]
      rw [hsymbol, operators_from_output (Text.get?_bytes_of_lt start (by decide) _) hop]
      simp [isTaken, Operator.isInput]

/-! ## The operators of a segment -/

/-- The offsets of operators with these operands, the first of which comes after `before`. -/
def offsets : Text → List (Operator × Text) → List (Nat × Operator)
  | _, [] => []
  | before, (op, operand) :: rest =>
    (Text.byteLength before, op) :: offsets (before ++ op.symbol.toList ++ operand) rest

/-- The first operator that is one too many is searched for as the scan goes, with the sides that
are taken. -/
theorem first_duplicate?_cons_eq (input output : Bool) (op : Operator) (rest : List Operator) :
    firstDuplicate? input output (op :: rest) = if isTaken input output op then some op
      else firstDuplicate? (input || op.isInput) (output || !op.isInput) rest := by
  cases op <;> cases input <;> cases output <;> rfl

variable {segment command : Text} {operands : List (Operator × Text)}

/-- A scan finds the operators that are there, up to the first that is one too many. -/
theorem operators_from_reads (h : Reads segment command operands) (start : Text)
    (input output : Bool) :
    operatorsFrom (Text.bytes (start ++ segment)) (Text.byteLength start) input output =
      match firstDuplicate? input output (operands.map Prod.fst) with
      | some op => .error (.duplicate op)
      | none => .ok (offsets (start ++ command) operands) := by
  induction h generalizing start input output with
  | @done command hcommand =>
      have hskip := operators_from_plain hcommand start [] input output
      rw [List.append_nil] at hskip
      rw [hskip, operators_from_end (Nat.le_of_eq (Text.length_bytes _))]
      rfl
  | @step command op operand rest more hcommand hgreedy _ ih =>
      rw [operators_from_plain hcommand, ← List.append_assoc, operators_from_symbol op hgreedy,
        List.map_cons, first_duplicate?_cons_eq]
      split
      · rfl
      · have hnext := ih (start ++ command ++ op.symbol.toList) (input || op.isInput)
          (output || !op.isInput)
        rw [List.append_assoc (start ++ command), Text.byte_length_append] at hnext
        rw [width, hnext]
        dsimp only
        cases firstDuplicate? (input || op.isInput) (output || !op.isInput) (rest.map Prod.fst) with
        | none => rfl
        | some duplicate => rfl

/-! ## The operands of a segment -/

/-- The first operator comes right behind the command. -/
theorem first_offset_offsets (before : Text) (operands : List (Operator × Text)) :
    firstOffset (Text.byteLength (before ++ writeOperands operands)) (offsets before operands) =
      Text.byteLength before := by
  cases operands with
  | nil =>
      rw [writeOperands, List.flatMap_nil, List.append_nil]
      rfl
  | cons operand rest => rfl

/-- What comes before an operator and its operand, with these moved over to it. -/
theorem append_write_operands_cons (before : Text) (op : Operator) (operand : Text)
    (rest : List (Operator × Text)) : before ++ writeOperands ((op, operand) :: rest) =
      before ++ op.symbol.toList ++ operand ++ writeOperands rest := by
  simp [writeOperands]

/-- An operand stands between its operator and the next. -/
theorem operand_ranges_cons (before : Text) (op : Operator) (operand : Text)
    (rest : List (Operator × Text)) :
    operandRanges (Text.byteLength (before ++ writeOperands ((op, operand) :: rest)))
        (offsets before ((op, operand) :: rest)) =
      (op, Text.byteLength (before ++ op.symbol.toList),
        Text.byteLength (before ++ op.symbol.toList ++ operand)) ::
        operandRanges (Text.byteLength
          (before ++ op.symbol.toList ++ operand ++ writeOperands rest))
          (offsets (before ++ op.symbol.toList ++ operand) rest) := by
  rw [append_write_operands_cons, offsets, operandRanges, first_offset_offsets, width,
    ← Text.byte_length_append]

/-- The operands that are taken out are those that are there. -/
theorem gather_eq (before : Text) (operands : List (Operator × Text)) (r : Redirects) :
    gather (before ++ writeOperands operands) r
        (operandRanges (Text.byteLength (before ++ writeOperands operands))
          (offsets before operands)) =
      some (Redirects.gather r operands) := by
  induction operands generalizing before r with
  | nil => rfl
  | cons operand rest ih =>
      obtain ⟨op, operand⟩ := operand
      rw [operand_ranges_cons, gather, append_write_operands_cons, Text.slice?_append,
        Redirects.gather]
      dsimp only
      split
      · rfl
      · exact ih _ _

/-- Every operand is taken out between offsets that are in order, in bounds and on boundaries of
characters. -/
theorem sliceable_operand_ranges (before : Text) (operands : List (Operator × Text)) :
    ∀ range ∈ operandRanges (Text.byteLength (before ++ writeOperands operands))
      (offsets before operands),
      Text.Sliceable (before ++ writeOperands operands) range.2.1 range.2.2 := by
  induction operands generalizing before with
  | nil => exact fun range hrange => nomatch hrange
  | cons operand rest ih =>
      obtain ⟨op, operand⟩ := operand
      rw [operand_ranges_cons, append_write_operands_cons]
      exact List.forall_mem_cons.mpr ⟨Text.sliceable_append _ _ _, ih _⟩

/-- What a scan of a segment comes to. -/
theorem operators_from_zero (segment : Text) :
    operatorsFrom segment.bytes 0 false false =
      match firstDuplicate? false false ((pieces segment).2.map Prod.fst) with
      | some op => .error (.duplicate op)
      | none => .ok (offsets (pieces segment).1 (pieces segment).2) :=
  operators_from_reads (reads_pieces segment) [] false false

/-- The command is what is taken out before the first operator. -/
theorem slice?_command (command : Text) (operands : List (Operator × Text)) :
    Text.slice? (write command operands) 0 (Text.byteLength command) = some command :=
  Text.slice?_append [] command (writeOperands operands)

/-- The bytes of a segment give what its characters do. -/
theorem split_redirects_eq (segment : Text) :
    splitRedirects segment = some (LineShell.splitRedirects segment) := by
  have hwrite := write_pieces segment
  rw [LineShell.splitRedirects, splitRedirects, operators_from_zero]
  dsimp only
  generalize pieces segment = cut at hwrite ⊢
  obtain ⟨command, operands⟩ := cut
  cases firstDuplicate? false false (operands.map Prod.fst) with
  | some op => rfl
  | none =>
      have hgather := gather_eq command operands {}
      have hoffset := first_offset_offsets command operands
      rw [← write, hwrite] at hgather hoffset
      dsimp only
      rw [Text.length_bytes, hgather, hoffset]
      cases Redirects.gather {} operands with
      | error e => rfl
      | ok r =>
          have hcommand := slice?_command command operands
          rw [hwrite] at hcommand
          dsimp only
          rw [hcommand]
          rfl

/-- Splitting a segment takes out no part that it could not: each operand and the command lie
between boundaries of characters. -/
theorem sliceable_redirect_ranges (segment : Text) :
    ∀ range ∈ redirectRanges segment, Text.Sliceable segment range.1 range.2 := by
  have hwrite := write_pieces segment
  rw [redirectRanges, operators_from_zero]
  generalize pieces segment = cut at hwrite ⊢
  obtain ⟨command, operands⟩ := cut
  cases firstDuplicate? false false (operands.map Prod.fst) with
  | some op => exact fun range hrange => nomatch hrange
  | none =>
      have hoperands := sliceable_operand_ranges command operands
      have hoffset := first_offset_offsets command operands
      have hcommand := Text.sliceable_append [] command (writeOperands operands)
      rw [List.nil_append] at hcommand
      rw [← write, hwrite] at hoperands hoffset hcommand
      dsimp only
      rw [Text.length_bytes, hoffset]
      intro range hrange
      rcases List.mem_append.mp hrange with hrange | hrange
      · obtain ⟨operand, hoperand, rfl⟩ := List.mem_map.mp hrange
        exact hoperands operand hoperand
      · obtain rfl := List.mem_singleton.mp hrange
        exact hcommand

/-! ## Comments -/

/-- Whether a comment can begin behind the text. -/
def beginsComment (start : Text) : Bool :=
  start.isEmpty || start.getLast? == some ' '

/-- No comment begins behind the last byte. -/
theorem comment_from_end {bytes : List UInt8} {i : Nat} (h : bytes.length ≤ i) :
    commentFrom bytes i = none := by
  rw [commentFrom, dif_neg (Nat.not_lt.mpr h)]

/-- A byte that is no `#` is passed over. -/
theorem comment_from_other {bytes : List UInt8} {i : Nat}
    (h : ∃ b, bytes[i]? = some b ∧ b ≠ '#'.toUInt8) :
    commentFrom bytes (i + 1) = commentFrom bytes i := by
  obtain ⟨b, hb, hne⟩ := h
  obtain ⟨hi, rfl⟩ := List.getElem?_eq_some_iff.mp hb
  rw [commentFrom.eq_def bytes i, dif_pos hi, if_neg fun hhash => hne hhash.1]

/-- A `#` begins a comment at the start or behind a space, and is passed over elsewhere. -/
theorem comment_from_hash {bytes : List UInt8} {i : Nat} (h : bytes[i]? = some '#'.toUInt8) :
    commentFrom bytes i = if i = 0 ∨ bytes[i - 1]? = some ' '.toUInt8 then some i
      else commentFrom bytes (i + 1) := by
  obtain ⟨hi, hbyte⟩ := List.getElem?_eq_some_iff.mp h
  have hbefore : bytes[i - 1]? = some bytes[i - 1] := List.getElem?_eq_getElem (by omega)
  rw [commentFrom, dif_pos hi, hbefore]
  simp [hbyte]

/-- A `#` is compared with the byte before it as with the character before it. -/
theorem begins_comment_iff (start rest : Text) : beginsComment start = true ↔
    Text.byteLength start = 0 ∨
      (Text.bytes (start ++ rest))[Text.byteLength start - 1]? = some ' '.toUInt8 := by
  rw [Text.byte_length_eq_zero_iff]
  by_cases hstart : start = []
  · simp [beginsComment, hstart]
  · rw [Text.get?_bytes_pred_eq_some_iff (d := ' ') (by decide) hstart]
    simp [beginsComment]

/-- A character that is no `#` is passed over with all its bytes. -/
theorem comment_from_char {c : Char} (hc : c ≠ '#') (start rest : Text) :
    commentFrom (Text.bytes (start ++ c :: rest)) (Text.byteLength (start ++ [c])) =
      commentFrom (Text.bytes (start ++ c :: rest)) (Text.byteLength start) := by
  have hlength : Text.byteLength (start ++ [c]) = Text.byteLength start + c.utf8Size :=
    Text.byte_length_append start [c]
  rw [hlength]
  refine eq_of_steps (fun i => comment_from_other) (Text.byteLength start) c.utf8Size fun k hk => ?_
  obtain ⟨b, hb, hget⟩ := Text.exists_get?_bytes start c rest hk
  exact ⟨b, hget, Text.ne_of_mem_encode (by decide) hc hb⟩

/-- A scan finds where the comment begins. -/
theorem comment_from_eq (start rest : Text) :
    (commentFrom (Text.bytes (start ++ rest)) (Text.byteLength start)).getD
        (Text.byteLength (start ++ rest)) =
      Text.byteLength (start ++ dropComment (beginsComment start) rest) := by
  induction rest generalizing start with
  | nil =>
      rw [comment_from_end (by rw [List.append_nil, Text.length_bytes])]
      rfl
  | cons c rest ih =>
      have hnext := ih (start ++ [c])
      have hbegins : beginsComment (start ++ [c]) = (c == ' ') := by simp [beginsComment]
      rw [hbegins, List.append_assoc, List.append_assoc, List.singleton_append,
        List.singleton_append] at hnext
      rw [dropComment]
      by_cases hc : c = '#'
      · subst hc
        rw [comment_from_hash (Text.get?_bytes_of_lt start (by decide) rest)]
        by_cases hstart : beginsComment start = true
        · rw [if_pos ((begins_comment_iff start _).mp hstart), if_pos (by simp [hstart]),
            List.append_nil]
          rfl
        · rw [if_neg ((begins_comment_iff start _).not.mp hstart), if_neg (by simp [hstart])]
          rwa [Text.byte_length_append start ['#']] at hnext
      · rw [comment_from_char hc] at hnext
        rw [hnext, if_neg (by simp [hc])]

/-- The comment begins where the scan over the characters ends the line. -/
theorem comment_from_zero (line : Text) :
    (commentFrom line.bytes 0).getD (Text.byteLength line) =
      Text.byteLength (LineShell.stripComment line) :=
  comment_from_eq [] line

/-- Without a comment nothing is dropped, and with one what is before it is left. -/
theorem strip_comment_cases (line : Text) :
    commentFrom line.bytes 0 = none ∧ LineShell.stripComment line = line ∨
      commentFrom line.bytes 0 = some (Text.byteLength (LineShell.stripComment line)) := by
  obtain ⟨comment, hcomment⟩ := prefix_strip_comment line
  have hfound := comment_from_zero line
  cases hscan : commentFrom line.bytes 0 with
  | none =>
      rw [hscan] at hfound
      have hwhole : LineShell.stripComment line ++ comment = line ++ [] := by
        rw [hcomment, List.append_nil]
      exact .inl ⟨rfl, (Text.append_inj_of_byte_length hwhole hfound.symm).1⟩
  | some i =>
      rw [hscan] at hfound
      exact .inr (congrArg some hfound)

/-- The bytes of a line give what its characters do. -/
theorem strip_comment_eq (line : Text) : stripComment line = some (LineShell.stripComment line) := by
  obtain ⟨comment, hcomment⟩ := prefix_strip_comment line
  rcases strip_comment_cases line with ⟨hnone, hline⟩ | hsome
  · rw [stripComment, hnone, hline]
  · have hslice := Text.slice?_append [] (LineShell.stripComment line) comment
    rw [List.nil_append, hcomment] at hslice
    rw [stripComment, hsome]
    exact hslice

/-- The line without its comment ends at a boundary of characters. -/
theorem sliceable_comment_ranges (line : Text) :
    ∀ range ∈ commentRanges line, Text.Sliceable line range.1 range.2 := by
  obtain ⟨comment, hcomment⟩ := prefix_strip_comment line
  rcases strip_comment_cases line with ⟨hnone, -⟩ | hsome
  · simp [commentRanges, hnone]
  · have hslice := Text.sliceable_append [] (LineShell.stripComment line) comment
    rw [List.nil_append, hcomment] at hslice
    rw [commentRanges, hsome]
    exact List.forall_mem_singleton.mpr hslice

end LineShell.ByteScan

namespace LineShell

/-- Looking for operators and comments among the bytes of a text is as good as among its characters:
all offsets that are found bound parts of the text, so that each of them can be taken out, and the
results are the same. -/
theorem byte_scan_law (t : Text) :
    ByteScan.splitRedirects t = some (splitRedirects t) ∧
    ByteScan.stripComment t = some (stripComment t) ∧
    ∀ range ∈ ByteScan.redirectRanges t ++ ByteScan.commentRanges t,
      Text.Sliceable t range.1 range.2 := by
  refine ⟨ByteScan.split_redirects_eq t, ByteScan.strip_comment_eq t, fun range hrange => ?_⟩
  rcases List.mem_append.mp hrange with hrange | hrange
  · exact ByteScan.sliceable_redirect_ranges t range hrange
  · exact ByteScan.sliceable_comment_ranges t range hrange

/-- The operator is the third byte, behind two of the command's one character. -/
example : ByteScan.splitRedirects ['é', '>', '€'] =
    some (.ok (['é'], { output := some ['€'] })) := by cbv

end LineShell
