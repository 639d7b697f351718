import LineShell.Store

/-!
# Laws of bindings

Stores and descriptor tables are lists of pairs in which the first pair for a key counts. A store is
seen through `Store.get?`, and `Store.get?_set` says all that setting a variable does to that view.
-/

namespace LineShell

/-- A list of bindings is looked through from its first binding on. -/
theorem lookup_cons_eq_ite {α β : Type} [DecidableEq α] [BEq α] [LawfulBEq α] (k d : α) (c : β)
    (slots : List (α × β)) :
    ((k, c) :: slots).lookup d = if d = k then some c else slots.lookup d := by
  by_cases hd : d = k
  · simp [hd]
  · have hne : (d == k) = false := by simpa using hd
    simp [List.lookup_cons, hne, hd]

namespace Store

/-- Assigning changes what one name is bound to and leaves the others. -/
theorem lookup_assign (name value other : Text) (bindings : List (Text × Text)) :
    (assign name value bindings).lookup other =
      if other = name then some value else bindings.lookup other := by
  induction bindings with
  | nil => rw [assign, lookup_cons_eq_ite, List.lookup_nil]
  | cons b rest ih =>
      obtain ⟨n, v⟩ := b
      by_cases hn : n = name
      · rw [assign, if_pos hn, lookup_cons_eq_ite, lookup_cons_eq_ite, hn]
        by_cases h : other = name <;> simp [h]
      · rw [assign, if_neg hn, lookup_cons_eq_ite, lookup_cons_eq_ite, ih]
        by_cases h : other = n
        · have hother : ¬ other = name := fun hname => hn (h.symm.trans hname)
          rw [if_pos h, if_pos h, if_neg hother]
        · rw [if_neg h, if_neg h]

/-- A variable has the value that it was set to last, and setting it changes no other one. -/
theorem get?_set (store : Store) (name value other : Text) :
    (store.set name value).get? other = if other = name then some value else store.get? other :=
  lookup_assign name value other store.bindings

/-- After variables are set one after the other, each has the value that it was set to last, or the
one from before. -/
theorem get?_foldl_set (store : Store) (bindings : List (Text × Text)) (name : Text) :
    (bindings.foldl (fun store binding => store.set binding.1 binding.2) store).get? name =
      (bindings.reverse.lookup name).or (store.get? name) := by
  induction bindings generalizing store with
  | nil => simp
  | cons binding rest ih =>
      rw [List.foldl_cons, ih, get?_set, List.reverse_cons, List.lookup_append, lookup_cons_eq_ite,
        List.lookup_nil]
      by_cases hname : name = binding.1
      · rw [if_pos hname, if_pos hname, Option.or_assoc]
        rfl
      · rw [if_neg hname, if_neg hname, Option.or_none]

end Store

end LineShell
