import LineShell.Proofs.ScriptEnd
import LineShell.Proofs.SessionLikeness

/-!
# What the format of reports makes no difference to

A shell that reports in JSON does what one does that reports in text (`script_under_formats`):
the same script leaves the same variables and the same working directory, runs the same
pipelines with the same results, ends in the same way and has the same errors reported, on the
same lines. What is shown differs in how reports are written and in the names that are offered
beside them, and in nothing else.

Offers are hidden from a view of the diary (`Entry.besidesOffers`), and alike sessions stay alike.
-/

namespace LineShell

variable {σ : Type} {host : Host σ} {f g : ReportFormat} {a b : Session σ}

namespace Entry

/-- The entry, unless it offers names. -/
def besidesOffers : Entry → Option Entry
  | offer _ => none
  | entry => some entry

/-- Whether an entry is shown in every format alike. -/
def isPlain : Entry → Bool
  | report _ | offer _ => false
  | warning _ | remark _ | ran .. | help _ | unreadLine _ => true

/-- Only reports and offers look different in another format. -/
theorem stderr_eq_of_is_plain {entry : Entry} (h : entry.isPlain = true) (f g : ReportFormat) :
    entry.stderr f = entry.stderr g := by
  cases entry with
  | report r | offer suggestions => cases h
  | warning w | remark r | ran pipeline result acts output | help text | unreadLine cause => rfl

/-- What is plain is no offer. -/
theorem filter_is_plain_besides_offers (entries : List Entry) :
    (entries.filterMap besidesOffers).filter isPlain = entries.filter isPlain := by
  induction entries with
  | nil => rfl
  | cons entry entries ih =>
      rw [List.filterMap_cons, List.filter_cons, ← ih]
      cases entry <;> rfl

/-- Writing pieces behind some bytes is writing all of them there. -/
theorem foldl_eq_append_concat (pieces : List ByteArray) (bytes : ByteArray) :
    pieces.foldl (· ++ ·) bytes = bytes ++ concat pieces := by
  unfold concat
  induction pieces generalizing bytes with
  | nil => exact ByteArray.append_empty.symm
  | cons piece pieces ih =>
      rw [List.foldl_cons, List.foldl_cons, ih, ih (.empty ++ piece), ByteArray.empty_append,
        ByteArray.append_assoc]

/-- Pieces are written one after the other. -/
theorem concat_cons (piece : ByteArray) (pieces : List ByteArray) :
    concat (piece :: pieces) = piece ++ concat pieces := by
  rw [concat, List.foldl_cons, foldl_eq_append_concat, ByteArray.empty_append]

end Entry

namespace Session

/-- Nothing is offered on the output. -/
theorem stdout_besides_offers (entries : List Entry) :
    stdout (entries.filterMap Entry.besidesOffers) = stdout entries := by
  unfold stdout
  induction entries with
  | nil => rfl
  | cons entry entries ih =>
      rw [List.map_cons, Entry.concat_cons, ← ih]
      cases entry with
      | offer suggestions => exact ByteArray.empty_append.symm
      | warning w | remark r | report r | ran pipeline result acts output | help text
      | unreadLine cause => exact Entry.concat_cons _ _

/-- Two sessions of shells that report in the formats `f` and `g` differ in how reports are written
and in what is offered beside them. -/
structure SameButReports (f g : ReportFormat) (a b : Session σ) : Prop where
  store : a.store = b.store
  /-- The working directory is the same, and so are the descriptors that are open. -/
  context : a.context = b.context
  state : a.state = b.state
  interrupt : a.interrupt = b.interrupt
  /-- The same pipelines were run with the same results, the same errors were reported on the same
  lines, and all that came in the same order. -/
  diary : a.diary.filterMap Entry.besidesOffers = b.diary.filterMap Entry.besidesOffers
  stdout : stdout a.diary = stdout b.diary
  stderr : stderr f (a.diary.filter Entry.isPlain) = stderr g (b.diary.filter Entry.isPlain)

/-- Sessions that are alike besides offers show the same besides their reports, each in its own
format. -/
theorem Alike.same_but_reports (h : Alike Entry.besidesOffers a b) (f g : ReportFormat) :
    SameButReports f g a b where
  store := h.store
  context := h.context
  state := h.state
  interrupt := h.interrupt
  diary := h.diary
  stdout := by rw [← stdout_besides_offers, h.diary, stdout_besides_offers]
  stderr := by
    have hplain : a.diary.filter Entry.isPlain = b.diary.filter Entry.isPlain := by
      rw [← Entry.filter_is_plain_besides_offers, h.diary, Entry.filter_is_plain_besides_offers]
    rw [hplain, Session.stderr, Session.stderr]
    refine congrArg Entry.concat (List.map_congr_left fun entry hentry => ?_)
    exact Entry.stderr_eq_of_is_plain (List.mem_filter.mp hentry).2 f g

/-- The session of a shell that reports in the given format. -/
def inFormat (s : Session σ) (format : ReportFormat) : Session σ :=
  { s with format }

/-- A session is alike to itself in another format. -/
theorem alike_in_format (s : Session σ) (f g : ReportFormat) :
    Alike Entry.besidesOffers (s.inFormat f) (s.inFormat g) :=
  { Alike.refl Entry.besidesOffers s with offers := .inr fun _ => rfl }

end Session

open Session

/-- Two runs that stay alike come to one end, unless both take too many steps. -/
theorem exists_common_end (f g : ReportFormat) {ran ran' : Option (Ending × Session σ)}
    (h : Option.Rel (SameRun Entry.besidesOffers) ran ran') :
    ran = none ∧ ran' = none ∨
      ∃ ending a b, ran = some (ending, a) ∧ ran' = some (ending, b) ∧ SameButReports f g a b := by
  cases h with
  | none => exact .inl ⟨rfl, rfl⟩
  | some hsame =>
      obtain ⟨ending, a, b, rfl, rfl, halike⟩ := hsame.exists_eq
      exact .inr ⟨ending, a, b, rfl, rfl, halike.same_but_reports f g⟩

/-- In every format a script runs alike: one in memory to the same end, and one that is read from a
descriptor, under any limit on its steps, to the same end or to none. -/
theorem script_under_formats (host : Host σ) (s : Session σ) (f g : ReportFormat) (name : String) :
    (∀ bytes, ∃ ending a b, (s.inFormat f).runText host name bytes = some (ending, a) ∧
      (s.inFormat g).runText host name bytes = some (ending, b) ∧ SameButReports f g a b) ∧
    ∀ limit d,
      (s.inFormat f).runChannel host limit name d = none ∧
        (s.inFormat g).runChannel host limit name d = none ∨
      ∃ ending a b, (s.inFormat f).runChannel host limit name d = some (ending, a) ∧
        (s.inFormat g).runChannel host limit name d = some (ending, b) ∧ SameButReports f g a b := by
  have hlines := (s.alike_in_format f g).run_lines host name
  constructor
  · intro bytes
    obtain ⟨ending, a, hrun⟩ := Script.exists_run_text host (s.inFormat f) name bytes
    obtain hnone | ⟨ending, a, b, hsame⟩ :=
      exists_common_end f g (hlines (bytes.length + 2) 1 { pending := bytes })
    · cases hrun.symm.trans hnone.1
    · exact ⟨ending, a, b, hsame⟩
  · intro limit d
    exact exists_common_end f g (hlines limit 1 { channel := some d })

end LineShell
