import LineShell.Script
import Mathlib.Data.List.Basic

/-!
# The lines of a script

`Script.lines` says what the lines of a script are, as a whole: what stands between its line feeds,
with a carriage return before a line feed taken off, and what follows the last line feed if anything
does. `Script.cutLine` finds the first of them (`ended_lines_append`, `lines_append`).

A script may also come block by block, where an empty block is the end of the input. A line counts
as soon as its line feed was read, or the end of the input behind it, so `Script.given` says which
lines some blocks give. If nothing comes after the end of the input these are the lines of the
blocks joined (`given_eq_lines`).
-/

namespace LineShell.Script

/-- The lines that end at a line feed. -/
def endedLines (bytes : List UInt8) : List (List UInt8) :=
  (bytes.splitOn lineFeed).dropLast.map withoutReturn

/-- What follows the last line feed. -/
def lastLine (bytes : List UInt8) : List UInt8 :=
  (bytes.splitOn lineFeed).getLastD []

/-- The lines of a script. What follows the last line feed is a line only if it is not empty. -/
def lines (bytes : List UInt8) : List (List UInt8) :=
  endedLines bytes ++ if lastLine bytes = [] then [] else [lastLine bytes]

/-- The lines that blocks give which come after the bytes `pending`. An empty block is the
end of the input. -/
def given : List UInt8 → List (List UInt8) → List (List UInt8)
  | pending, [] => endedLines pending
  | pending, [] :: blocks => lines pending ++ given [] blocks
  | pending, (b :: block) :: blocks => given (pending ++ b :: block) blocks

variable {line rest bytes pending : List UInt8}

/-! ## The first line -/

/-- A line is cut off at the first line feed, which is dropped. -/
theorem cut_line_append (h : lineFeed ∉ line) (rest : List UInt8) :
    cutLine (line ++ lineFeed :: rest) = some (line, rest) := by
  induction line with
  | nil => exact if_pos rfl
  | cons b line ih =>
      obtain ⟨hb, hline⟩ := List.ne_and_not_mem_of_not_mem_cons h
      rw [List.cons_append, cutLine, if_neg (Ne.symm hb), ih hline]
      rfl

/-- Nothing is cut off bytes without a line feed. -/
theorem cut_line_eq_none (h : lineFeed ∉ bytes) : cutLine bytes = none := by
  induction bytes with
  | nil => rfl
  | cons b bytes ih =>
      obtain ⟨hb, hbytes⟩ := List.ne_and_not_mem_of_not_mem_cons h
      rw [cutLine, if_neg (Ne.symm hb), ih hbytes]
      rfl

/-- A line is cut off at the first line feed. -/
theorem cut_line_eq_some_iff :
    cutLine bytes = some (line, rest) ↔ lineFeed ∉ line ∧ bytes = line ++ lineFeed :: rest := by
  constructor
  · intro h
    by_cases hmem : lineFeed ∈ bytes
    · obtain ⟨before, after, rfl, hbefore⟩ := List.eq_append_cons_of_mem hmem
      rw [cut_line_append hbefore] at h
      cases h
      exact ⟨hbefore, rfl⟩
    · rw [cut_line_eq_none hmem] at h
      cases h
  · rintro ⟨hline, rfl⟩
    exact cut_line_append hline rest

/-- Bytes have no line to cut off exactly if they have no line feed. -/
theorem cut_line_eq_none_iff : cutLine bytes = none ↔ lineFeed ∉ bytes := by
  refine ⟨fun h hmem => ?_, cut_line_eq_none⟩
  obtain ⟨before, after, rfl, hbefore⟩ := List.eq_append_cons_of_mem hmem
  rw [cut_line_append hbefore] at h
  cases h

/-! ## All lines -/

/-- The first line of some bytes is the first of their parts. -/
theorem split_on_append (h : lineFeed ∉ line) (rest : List UInt8) :
    (line ++ lineFeed :: rest).splitOn lineFeed = line :: rest.splitOn lineFeed := by
  rw [List.splitOn_append_cons_self, List.splitOn_eq_singleton h, List.singleton_append]

/-- Bytes without a line feed end no line. -/
theorem ended_lines_eq_nil (h : lineFeed ∉ bytes) : endedLines bytes = [] := by
  rw [endedLines, List.splitOn_eq_singleton h]
  rfl

/-- Bytes without a line feed are all of the last line. -/
theorem last_line_eq_self (h : lineFeed ∉ bytes) : lastLine bytes = bytes := by
  rw [lastLine, List.splitOn_eq_singleton h]
  rfl

/-- A line feed ends the line before it, whose carriage return is dropped. -/
theorem ended_lines_append (h : lineFeed ∉ line) (rest : List UInt8) :
    endedLines (line ++ lineFeed :: rest) = withoutReturn line :: endedLines rest := by
  rw [endedLines, split_on_append h, List.dropLast_cons_of_ne_nil (List.splitOn_ne_nil _ _),
    List.map_cons, endedLines]

/-- The last line is that of the bytes behind the first line feed. -/
theorem last_line_append (h : lineFeed ∉ line) (rest : List UInt8) :
    lastLine (line ++ lineFeed :: rest) = lastLine rest := by
  obtain ⟨first, more, hsplit⟩ := List.exists_cons_of_ne_nil (List.splitOn_ne_nil lineFeed rest)
  rw [lastLine, split_on_append h, lastLine, hsplit, List.getLastD_cons, List.getLastD_cons,
    List.getLastD_cons]

/-- The lines of a script are its first and those of the rest. -/
theorem lines_append (h : lineFeed ∉ line) (rest : List UInt8) :
    lines (line ++ lineFeed :: rest) = withoutReturn line :: lines rest := by
  rw [lines, ended_lines_append h, last_line_append h, List.cons_append, lines]

/-- An empty script has no lines. -/
theorem lines_nil : lines [] = [] := rfl

/-- Bytes without a line feed are one line, unless there are none. -/
theorem lines_eq_singleton (h : lineFeed ∉ bytes) (hne : bytes ≠ []) : lines bytes = [bytes] := by
  rw [lines, ended_lines_eq_nil h, last_line_eq_self h, if_neg hne, List.nil_append]

/-! ## Lines from blocks -/

/-- The first line of the pending bytes is the first that the blocks give. -/
theorem given_append (h : lineFeed ∉ line) (rest : List UInt8) (blocks : List (List UInt8)) :
    given (line ++ lineFeed :: rest) blocks = withoutReturn line :: given rest blocks := by
  induction blocks generalizing rest with
  | nil => exact ended_lines_append h rest
  | cons block blocks ih =>
      cases block with
      | nil => rw [given, given, lines_append h, List.cons_append]
      | cons b block =>
          rw [given, given, List.append_assoc, List.cons_append]
          exact ih (rest ++ b :: block)

/-- Once nothing more is read, the lines given are those of the bytes that are pending. -/
theorem given_replicate_nil (pending : List UInt8) (n : Nat) :
    given pending (List.replicate (n + 1) []) = lines pending := by
  induction n generalizing pending with
  | zero => exact List.append_nil (lines pending)
  | succ n ih => rw [List.replicate_succ, given, ih, lines_nil, List.append_nil]

/-- Blocks behind which nothing comes but the end of the input give the lines of all their bytes. -/
theorem given_eq_lines {blocks : List (List UInt8)} (h : ∀ block ∈ blocks, block ≠ [])
    (pending : List UInt8) (n : Nat) :
    given pending (blocks ++ List.replicate (n + 1) []) = lines (pending ++ blocks.flatten) := by
  induction blocks generalizing pending with
  | nil => rw [List.nil_append, given_replicate_nil, List.flatten_nil, List.append_nil]
  | cons block blocks ih =>
      obtain ⟨hblock, hblocks⟩ := List.forall_mem_cons.mp h
      obtain ⟨b, block, rfl⟩ := List.exists_cons_of_ne_nil hblock
      rw [List.cons_append, given, ih hblocks, List.append_assoc, List.flatten_cons]

end LineShell.Script
