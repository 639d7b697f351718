import LineShell.Descriptor
import LineShell.Proofs.Bindings
import Mathlib.Data.Finset.Card
import Mathlib.Data.Finset.Range

/-!
# Laws of descriptor tables

What each operation of a `Table` does to `Table.get?`, the view of a table as a partial map from
descriptors to channels. A new descriptor is one that was not in use (`lowest_free_not_mem_used`),
so adding one changes nothing else. Closing is also described on the slots themselves: the
descriptors of new slots, once closed, leave the table as it was (`close_all_with_slots`).
-/

namespace LineShell.Table

variable {t : Table} {c : Channel} {d : Descriptor}

/-! ## The view -/

/-- A slot behind the others is seen only if they do not hold its descriptor. -/
theorem lookup_append_slot (slots : List (Descriptor × Channel)) (k d : Descriptor) (c : Channel) :
    (slots ++ [(k, c)]).lookup d =
      (slots.lookup d).or (if d = k then some c else none) := by
  rw [List.lookup_append, lookup_cons_eq_ite, List.lookup_nil]

/-- A descriptor refers to nothing exactly if it is not in use. -/
theorem get?_eq_none_iff : t.get? d = none ↔ d ∉ t.used := by
  simp only [get?, used, List.lookup_eq_none_iff, List.mem_map, not_exists, not_and, bne_iff_ne]
  exact ⟨fun h slot hslot hd => h slot hslot hd.symm, fun h slot hslot hd => h slot hslot hd.symm⟩

/-! ## New descriptors -/

/-- Among `size + 1` numbers there is one that is not in use. -/
theorem exists_not_mem_used (t : Table) : ∃ d ∈ List.range (t.size + 1), d ∉ t.used := by
  by_contra hall
  push Not at hall
  have hsubset : Finset.range (t.size + 1) ⊆ t.used.toFinset := fun d hd =>
    List.mem_toFinset.mpr (hall d (List.mem_range.mpr (Finset.mem_range.mp hd)))
  have hcard := (Finset.card_le_card hsubset).trans t.used.toFinset_card_le
  simp only [Finset.card_range, used, List.length_map, size] at hcard
  omega

/-- The lowest free number is free: among one more numbers than there are in use there is one that
is not. -/
theorem lowest_free_not_mem_used (t : Table) : t.lowestFree ∉ t.used := by
  obtain ⟨d, hd, hfree⟩ := exists_not_mem_used t
  obtain ⟨found, hfound⟩ : ∃ found,
      (List.range (t.size + 1)).find? (fun d => !t.used.contains d) = some found :=
    Option.isSome_iff_exists.mp (List.find?_isSome.mpr ⟨d, hd, by simpa using hfree⟩)
  have hnew := List.find?_some hfound
  rw [lowestFree, hfound]
  simpa using hnew

/-- 0, 1 and 2 are in use. -/
structure Standard (t : Table) : Prop where
  stdin : .stdin ∈ t.used
  stdout : .stdout ∈ t.used
  stderr : .stderr ∈ t.used

/-- Where 0, 1 and 2 are in use, what is not in use lies above them. -/
theorem Standard.gt_two (h : t.Standard) (hd : d ∉ t.used) : 2 < d := by
  by_contra hle
  have hcases : d = 0 ∨ d = 1 ∨ d = 2 := by
    simp only [Descriptor] at hle ⊢
    omega
  rcases hcases with rfl | rfl | rfl
  · exact hd h.stdin
  · exact hd h.stdout
  · exact hd h.stderr

/-- A table that uses more descriptors still has the standard ones. -/
theorem Standard.mono {t' : Table} (h : t.Standard) (hsub : ∀ d ∈ t.used, d ∈ t'.used) :
    t'.Standard :=
  ⟨hsub _ h.stdin, hsub _ h.stdout, hsub _ h.stderr⟩

/-- A new descriptor comes after those in use. -/
theorem used_add (t : Table) (c : Channel) : (t.add c).2.used = t.used ++ [t.lowestFree] := by
  simp [add, used]

/-- The table with more slots. -/
def withSlots (t : Table) (slots : List (Descriptor × Channel)) : Table :=
  { t with slots := t.slots ++ slots }

/-- No slots add nothing. -/
@[simp] theorem with_slots_nil (t : Table) : t.withSlots [] = t := by
  simp [withSlots]

/-- Added slots come after those in use. -/
theorem used_with_slots (t : Table) (slots : List (Descriptor × Channel)) :
    (t.withSlots slots).used = t.used ++ slots.map Prod.fst := by
  simp [withSlots, used]

/-- A new slot is seen, and none of the others changes. -/
theorem get?_with_slot {number : Descriptor} (h : number ∉ t.used) (c : Channel) (d : Descriptor) :
    (t.withSlots [(number, c)]).get? d = if d = number then some c else t.get? d := by
  have hnone : t.get? number = none := get?_eq_none_iff.mpr h
  simp only [get?] at hnone
  show (t.slots ++ [(number, c)]).lookup d = _
  rw [lookup_append_slot]
  by_cases hd : d = number
  · simp [hd, hnone]
  · simp [hd, get?]

/-! ## Closing -/

/-- A descriptor that is closed refers to nothing, and the others to what they did. -/
@[simp] theorem get?_close (t : Table) (x d : Descriptor) :
    (t.close x).get? d = if d = x then none else t.get? d := by
  simp only [get?, close]
  induction t.slots with
  | nil => simp
  | cons slot rest ih =>
      rcases slot with ⟨k, c⟩
      rw [lookup_cons_eq_ite]
      by_cases hk : k = x
      · have hdrop : ((k, c) :: rest).filter (·.1 != x) = rest.filter (·.1 != x) := by simp [hk]
        rw [hdrop, ih]
        by_cases hd : d = x <;> simp [hd, hk]
      · have hkeep : ((k, c) :: rest).filter (·.1 != x) = (k, c) :: rest.filter (·.1 != x) := by
          simp [hk]
        rw [hkeep, lookup_cons_eq_ite, ih]
        by_cases hd : d = k
        · simp [hd, hk]
        · simp [hd]

/-- Closing descriptors one by one leaves the slots of the others. -/
theorem close_all_eq (t : Table) (ds : List Descriptor) :
    t.closeAll ds = { t with slots := t.slots.filter (·.1 ∉ ds) } := by
  induction ds generalizing t with
  | nil => simp [closeAll]
  | cons d ds ih =>
      show (t.close d).closeAll ds = _
      rw [ih]
      simp only [close, List.filter_filter, List.mem_cons, not_or, Bool.decide_and]
      congr 2
      funext slot
      by_cases hslot : slot.1 = d <;> simp [hslot]

/-- Descriptors that are closed refer to nothing, and the others to what they did. -/
theorem get?_close_all (t : Table) (ds : List Descriptor) (d : Descriptor) :
    (t.closeAll ds).get? d = if d ∈ ds then none else t.get? d := by
  induction ds generalizing t with
  | nil => simp [closeAll]
  | cons x ds ih =>
      show ((t.close x).closeAll ds).get? d = _
      rw [ih, get?_close]
      by_cases hds : d ∈ ds <;> by_cases hx : d = x <;> simp [hds, hx]

/-- Descriptors can be closed in two goes. -/
theorem close_all_append (t : Table) (ds more : List Descriptor) :
    t.closeAll (ds ++ more) = (t.closeAll ds).closeAll more := by
  simp [closeAll]

/-- Closing descriptors that the table did not use closes them among its new slots only. -/
theorem close_all_with_slots {slots : List (Descriptor × Channel)} {ds : List Descriptor}
    (h : ∀ d ∈ ds, d ∉ t.used) :
    (t.withSlots slots).closeAll ds = t.withSlots (slots.filter (·.1 ∉ ds)) := by
  have hkept : t.slots.filter (·.1 ∉ ds) = t.slots := by
    refine List.filter_eq_self.mpr fun slot hslot => ?_
    have hnew : slot.1 ∉ ds := fun hd => h _ hd (List.mem_map_of_mem hslot)
    simpa using hnew
  rw [close_all_eq]
  simp only [withSlots, List.filter_append, hkept]

/-! ## Duplicating -/

/-- What is in use can be duplicated. -/
theorem exists_duplicate {source : Descriptor} (h : source ∈ t.used) (target : Descriptor) :
    ∃ t', t.duplicate source target = .ok t' := by
  unfold duplicate
  split
  · rename_i hnone
    exact absurd h (get?_eq_none_iff.mp hnone)
  · split
    · exact ⟨_, rfl⟩
    · exact ⟨_, rfl⟩

/-- A descriptor that was duplicated refers to what its source refers to, and no other changes. -/
theorem get?_duplicate {source target : Descriptor} {t' : Table}
    (h : t.duplicate source target = .ok t') (d : Descriptor) :
    t'.get? d = if d = target then t.get? source else t.get? d := by
  unfold duplicate at h
  split at h
  · cases h
  · rename_i channel hchannel
    split at h
    · rename_i heq
      cases h
      by_cases hd : d = target <;> simp [hd, heq]
    · cases h
      show ((t.close target).slots ++ [(target, channel)]).lookup d = _
      have hclose := get?_close t target d
      rw [get?] at hclose
      rw [lookup_append_slot, hclose]
      by_cases hd : d = target <;> simp [hd, hchannel]

end LineShell.Table
