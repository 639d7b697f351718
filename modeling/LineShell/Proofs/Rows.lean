import Mathlib.Data.List.Forall2

/-!
# Steps that may fail, one by one

When a step in two parts succeeds, and when a step that is taken for every member of a row does. A
row that is made so is related to the row that it is made from, member by member. A row in which
some member stands out has a first such member.
-/

namespace LineShell

/-- A step succeeds if its first part does and its second part does on what the first gave. -/
theorem bind_eq_ok_iff {α β ε : Type} {x : Except ε α} {f : α → Except ε β} {b : β} :
    x >>= f = .ok b ↔ ∃ a, x = .ok a ∧ f a = .ok b := by
  cases x with
  | error e => simp [bind, Except.bind]
  | ok a => simp [bind, Except.bind]

/-- A computation that gives a value at once gives no other. -/
theorem pure_eq_ok_iff {α ε : Type} {a b : α} : (pure a : Except ε α) = .ok b ↔ a = b := by
  simp [pure, Except.pure]

/-- Preparing a row succeeds if preparing each member does. -/
theorem map_m_eq_ok_iff_forall₂ {α β ε : Type} {f : α → Except ε β} {as : List α} {bs : List β} :
    as.mapM f = .ok bs ↔ List.Forall₂ (fun a b => f a = .ok b) as bs := by
  induction as generalizing bs with
  | nil =>
      rw [List.mapM_nil, pure_eq_ok_iff, List.forall₂_nil_left_iff]
      exact eq_comm
  | cons a as ih =>
      simp only [List.mapM_cons, bind_eq_ok_iff, pure_eq_ok_iff, ih, List.forall₂_cons_left_iff]
      constructor
      · rintro ⟨b, hb, rest, hrest, rfl⟩
        exact ⟨b, rest, hb, hrest, rfl⟩
      · rintro ⟨b, rest, hb, hrest, rfl⟩
        exact ⟨b, hb, rest, hrest, rfl⟩

/-- Either no member of a row has a property, or one of them is the first that has it. -/
theorem forall_not_or_exists_first {α : Type} (p : α → Prop) (as : List α) :
    (∀ a ∈ as, ¬ p a) ∨
      ∃ before a after, as = before ++ a :: after ∧ (∀ b ∈ before, ¬ p b) ∧ p a := by
  classical
  cases hfind : as.find? (fun a => decide (p a)) with
  | none =>
      left
      simpa using List.find?_eq_none.mp hfind
  | some a =>
      obtain ⟨ha, before, after, heq, hbefore⟩ := List.find?_eq_some_iff_append.mp hfind
      right
      exact ⟨before, a, after, heq, by simpa using hbefore, by simpa using ha⟩

/-- Members that are each related to something make a row that is related to some row. -/
theorem exists_forall₂_of_forall_exists {α β : Type} {R : α → β → Prop} {as : List α}
    (h : ∀ a ∈ as, ∃ b, R a b) : ∃ bs, List.Forall₂ R as bs := by
  induction as with
  | nil => exact ⟨[], .nil⟩
  | cons a as ih =>
      obtain ⟨⟨b, hb⟩, has⟩ := List.forall_mem_cons.mp h
      obtain ⟨bs, hbs⟩ := ih has
      exact ⟨b :: bs, .cons hb hbs⟩

/-- Each member of a row is related to the member at its place in the other row. -/
theorem exists_get?_of_forall₂ {α β : Type} {R : α → β → Prop} {as : List α} {bs : List β}
    (h : List.Forall₂ R as bs) {i : Nat} {b : β} (hb : bs[i]? = some b) :
    ∃ a, as[i]? = some a ∧ R a b := by
  induction h generalizing i with
  | nil => simp at hb
  | cons hab _ ih =>
      cases i with
      | zero =>
          cases hb
          exact ⟨_, rfl, hab⟩
      | succ i => exact ih hb

/-- Each member of a row is related to a member of the other row. -/
theorem exists_mem_of_forall₂ {α β : Type} {R : α → β → Prop} {as : List α} {bs : List β}
    (h : List.Forall₂ R as bs) {b : β} (hb : b ∈ bs) : ∃ a ∈ as, R a b := by
  obtain ⟨i, hi⟩ := List.mem_iff_getElem?.mp hb
  obtain ⟨a, ha, hab⟩ := exists_get?_of_forall₂ h hi
  exact ⟨a, List.mem_of_getElem? ha, hab⟩

end LineShell
