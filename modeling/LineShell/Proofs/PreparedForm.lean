import LineShell.Preparation
import LineShell.Proofs.Rows

/-!
# Which stages can be prepared

`PreparedStage.ofStage` succeeds exactly on the stages that run a program file and hand no NUL
character to the system, and then changes none of their texts (`of_stage_eq_ok_iff`). A whole
pipeline is prepared stage by stage (`map_m_eq_ok_iff_forall₂`).
-/

namespace LineShell

/-- The texts of a stage that the system gets, of which it sees none beyond a NUL character. -/
def Stage.systemTexts (stage : Stage) : List Text :=
  (match stage.program with
    | .builtin _ => []
    | .external path => [path]) ++
  stage.argv ++ stage.redirects.input.toList ++ stage.redirects.output.toList

/-- No text that the system gets holds a NUL character. -/
def Stage.NulFree (stage : Stage) : Prop :=
  ∀ text ∈ stage.systemTexts, '\x00' ∉ text

namespace PreparedStage

/-- `p` is made from `stage`, with every text as it was. -/
structure IsFormOf (p : PreparedStage) (stage : Stage) : Prop where
  program : stage.program = .external p.path
  name : p.name = stage.name
  argv : p.argv = stage.argv
  input : p.input = stage.redirects.input
  output : p.output = stage.redirects.output
  append : p.append = stage.redirects.append

/-- What comes of handing texts to the system: the value, unless one of them holds a NUL character,
and otherwise the first that does. -/
def accept {α : Type} (texts : List Text) (value : α) : Except ExecError α :=
  match texts.find? ('\x00' ∈ ·) with
  | some text => .error (.nulByte text)
  | none => .ok value

section Accept

variable {α β : Type} {a b texts : List Text}

/-- Texts are accepted exactly if no byte of them is 0. -/
theorem accept_eq_ok_iff {x y : α} :
    accept texts x = .ok y ↔ (∀ text ∈ texts, '\x00' ∉ text) ∧ y = x := by
  unfold accept
  split
  · rename_i text hfound
    have hmem := List.mem_of_find?_eq_some hfound
    have hnul : '\x00' ∈ text := by simpa using List.find?_some hfound
    constructor
    · intro h
      cases h
    · intro h
      exact absurd hnul (h.1 text hmem)
  · rename_i hnone
    simp only [List.find?_eq_none, decide_eq_true_eq] at hnone
    rw [Except.ok.injEq]
    exact ⟨fun h => ⟨hnone, h.symm⟩, fun h => h.2.symm⟩

/-- Texts are refused for the first of them that has a byte 0. -/
theorem accept_eq_error_iff {x : α} {e : ExecError} : accept texts x = .error e ↔
    ∃ text, texts.find? ('\x00' ∈ ·) = some text ∧ e = .nulByte text := by
  unfold accept
  cases texts.find? ('\x00' ∈ ·) with
  | none => simp
  | some text => simp [eq_comm]

/-- Where there are no texts, everything is accepted. -/
theorem pure_eq_accept (x : α) : (pure x : Except ExecError α) = accept [] x := rfl

/-- Texts that are handed over in two parts are searched in the order of the parts. -/
theorem accept_bind_accept (x : α) (f : α → β) :
    (accept a x >>= fun y => accept b (f y)) = accept (a ++ b) (f x) := by
  unfold accept
  rw [List.find?_append]
  cases a.find? ('\x00' ∈ ·) <;> rfl

/-- One text is accepted or refused by itself. -/
theorem without_nul_eq_accept (t : Text) : withoutNul t = accept [t] t := by
  by_cases h : '\x00' ∈ t <;> simp [withoutNul, accept, h]

/-- The same for a text that may be missing. -/
theorem without_nul?_eq_accept (t : Option Text) : withoutNul? t = accept t.toList t := by
  cases t with
  | none => rfl
  | some t =>
      show (withoutNul t).map some = accept [t] (some t)
      by_cases h : '\x00' ∈ t <;> simp [withoutNul, accept, h, Except.map]

/-- Texts are accepted or refused in their order. -/
theorem map_m_without_nul_eq_accept (ts : List Text) : ts.mapM withoutNul = accept ts ts := by
  induction ts with
  | nil => rfl
  | cons t ts ih =>
      simp only [List.mapM_cons, ih, without_nul_eq_accept, pure_eq_accept, accept_bind_accept,
        List.append_nil, List.singleton_append]

/-- A text that cannot be at fault if those before it are not makes no difference. -/
theorem accept_append_singleton_append {t : Text} (h : (∀ text ∈ a, '\x00' ∉ text) → '\x00' ∉ t)
    (x : α) : accept (a ++ [t] ++ b) x = accept (a ++ b) x := by
  have hfind : (a ++ [t] ++ b).find? ('\x00' ∈ ·) = (a ++ b).find? ('\x00' ∈ ·) := by
    rw [List.find?_append, List.find?_append, List.find?_append]
    cases hfound : a.find? ('\x00' ∈ ·) with
    | some text => rfl
    | none =>
        simp only [List.find?_eq_none, decide_eq_true_eq] at hfound
        simp [h hfound]
  rw [accept, hfind, accept]

end Accept

/-- The name of a stage is one of its arguments, or empty. -/
theorem nul_not_mem_name {stage : Stage} (h : ∀ text ∈ stage.argv, '\x00' ∉ text) :
    '\x00' ∉ stage.name := by
  unfold Stage.name
  cases hargv : stage.argv with
  | nil => simp
  | cons name rest => exact h name (by simp [hargv])

/-- A stage that runs a program file is made ready as it stands, or its first text with a NUL
character is refused. -/
theorem of_stage_eq_accept {stage : Stage} {path : Text} (h : stage.program = .external path) :
    ofStage stage = accept stage.systemTexts
      ⟨stage.name, path, stage.argv, stage.redirects.input, stage.redirects.output,
        stage.redirects.append⟩ := by
  have htexts : stage.systemTexts =
      [path] ++ stage.argv ++ stage.redirects.input.toList ++ stage.redirects.output.toList := by
    rw [Stage.systemTexts, h]
  unfold ofStage
  rw [h]
  simp only [without_nul_eq_accept, without_nul?_eq_accept, map_m_without_nul_eq_accept,
    pure_eq_accept, accept_bind_accept]
  -- The name was searched as an argument already.
  have hname : (∀ text ∈ [path] ++ stage.argv, '\x00' ∉ text) → '\x00' ∉ stage.name :=
    fun hfree => nul_not_mem_name fun text htext => hfree text (List.mem_append_right _ htext)
  have hskip := accept_append_singleton_append (b := stage.redirects.input.toList ++
    stage.redirects.output.toList) hname (⟨stage.name, path, stage.argv, stage.redirects.input,
    stage.redirects.output, stage.redirects.append⟩ : PreparedStage)
  simpa [htexts] using hskip

/-- Exactly the stages that run a program file and hand over no NUL character can be prepared. -/
theorem of_stage_eq_ok_iff {stage : Stage} {p : PreparedStage} :
    ofStage stage = .ok p ↔ stage.NulFree ∧ p.IsFormOf stage := by
  cases hprogram : stage.program with
  | builtin command =>
      have hnot : ¬ p.IsFormOf stage := fun h => by
        cases hprogram.symm.trans h.program
      simp [ofStage, hprogram, throw, throwThe, MonadExceptOf.throw, hnot]
  | external path =>
      rw [of_stage_eq_accept hprogram, accept_eq_ok_iff]
      refine and_congr_right fun _ => ⟨?_, ?_⟩
      · intro h
        subst h
        exact ⟨hprogram, rfl, rfl, rfl, rfl, rfl⟩
      · intro hform
        have hpath : path = p.path := Program.external.inj (hprogram.symm.trans hform.program)
        obtain ⟨name, _, argv, input, output, append⟩ := p
        obtain ⟨_, rfl, rfl, rfl, rfl, rfl⟩ := hform
        rw [hpath]

/-- The prepared stage at an index is made from the stage there. -/
theorem is_form_of_of_get? {stages : List Stage} {prepared : List PreparedStage}
    (h : stages.mapM ofStage = .ok prepared) {i : Nat} {p : PreparedStage}
    (hp : prepared[i]? = some p) : ∃ stage, stages[i]? = some stage ∧ p.IsFormOf stage := by
  obtain ⟨stage, hstage, hprepare⟩ := exists_get?_of_forall₂ (map_m_eq_ok_iff_forall₂.mp h) hp
  exact ⟨stage, hstage, (of_stage_eq_ok_iff.mp hprepare).2⟩

/-- Stages that were prepared hand over no NUL character. -/
theorem nul_free_of_map_m {stages : List Stage} {prepared : List PreparedStage}
    (h : stages.mapM ofStage = .ok prepared) : ∀ stage ∈ stages, stage.NulFree := by
  intro stage hstage
  obtain ⟨p, _, hprepare⟩ := exists_mem_of_forall₂ (map_m_eq_ok_iff_forall₂.mp h).flip hstage
  exact (of_stage_eq_ok_iff.mp hprepare).1

/-- A row of stages without built-in commands is made ready, or the first text with a NUL character
in it is refused. -/
theorem map_m_of_stage_eq_accept {stages : List Stage}
    (hexternal : stages.findSome? Stage.builtin? = none) : ∃ prepared : List PreparedStage,
      stages.mapM ofStage = accept (stages.flatMap Stage.systemTexts) prepared := by
  induction stages with
  | nil => exact ⟨[], rfl⟩
  | cons stage rest ih =>
      rw [List.findSome?_eq_none_iff, List.forall_mem_cons] at hexternal
      obtain ⟨hstage, hrest⟩ := hexternal
      obtain ⟨prepared, hprepared⟩ := ih (List.findSome?_eq_none_iff.mpr hrest)
      cases hprogram : stage.program with
      | builtin command => simp [Stage.builtin?, hprogram] at hstage
      | external path =>
          refine ⟨⟨stage.name, path, stage.argv, stage.redirects.input, stage.redirects.output,
            stage.redirects.append⟩ :: prepared, ?_⟩
          simp only [List.mapM_cons, of_stage_eq_accept hprogram, hprepared, pure_eq_accept,
            accept_bind_accept, List.append_nil, List.flatMap_cons]

/-- A row of stages without built-in commands and without NUL characters can be prepared. -/
theorem exists_prepared {stages : List Stage} (hexternal : stages.findSome? Stage.builtin? = none)
    (hfree : ∀ stage ∈ stages, stage.NulFree) : ∃ prepared, stages.mapM ofStage = .ok prepared := by
  obtain ⟨prepared, hprepared⟩ := map_m_of_stage_eq_accept hexternal
  refine ⟨prepared, hprepared.trans (accept_eq_ok_iff.mpr ⟨?_, rfl⟩)⟩
  intro text htext
  obtain ⟨stage, hstage, htext⟩ := List.mem_flatMap.mp htext
  exact hfree stage hstage text htext

/-- What stands against preparing a row of stages without built-in commands is the first text in it
with a NUL character. -/
theorem map_m_of_stage_eq_error_iff {stages : List Stage} {e : ExecError}
    (hexternal : stages.findSome? Stage.builtin? = none) : stages.mapM ofStage = .error e ↔
      ∃ text, (stages.flatMap Stage.systemTexts).find? ('\x00' ∈ ·) = some text ∧
        e = .nulByte text := by
  obtain ⟨prepared, hprepared⟩ := map_m_of_stage_eq_accept hexternal
  rw [hprepared, accept_eq_error_iff]

end PreparedStage

end LineShell
