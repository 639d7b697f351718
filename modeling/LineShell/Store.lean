import LineShell.Text.Basic

/-!
# Variables

A `Store` binds names to values, each name at most once. Names are arbitrary texts; the search path
is the value of the ordinary variable `PATH`.
-/

namespace LineShell

/-- Variables and their values. -/
structure Store where
  /-- The bindings, oldest name first. -/
  bindings : List (Text × Text) := []
  /-- No name is bound twice. -/
  nodup : (bindings.map Prod.fst).Nodup := by simp

namespace Store

/-- The store without variables. -/
def empty : Store := {}

/-- The value of `name`, if it is bound. -/
def get? (store : Store) (name : Text) : Option Text :=
  store.bindings.lookup name

/-- The bindings with `name` bound to `value`, in place if it was bound before. -/
def assign (name value : Text) : List (Text × Text) → List (Text × Text)
  | [] => [(name, value)]
  | (n, v) :: rest => if n = name then (n, value) :: rest else (n, v) :: assign name value rest

/-- Assigning adds a name if it is new, and keeps the names otherwise. -/
theorem map_fst_assign (name value : Text) (bindings : List (Text × Text)) :
    (assign name value bindings).map Prod.fst =
      if name ∈ bindings.map Prod.fst then bindings.map Prod.fst
      else bindings.map Prod.fst ++ [name] := by
  induction bindings with
  | nil => simp [assign]
  | cons b rest ih =>
    obtain ⟨n, v⟩ := b
    by_cases h : n = name
    · simp [assign, h]
    · have h' : ¬ name = n := fun e => h e.symm
      simp only [assign, h, if_false, List.map_cons, ih, List.mem_cons, h', false_or]
      split <;> simp

/-- Assigning binds no name twice. -/
theorem nodup_assign {name value : Text} {bindings : List (Text × Text)}
    (h : (bindings.map Prod.fst).Nodup) : ((assign name value bindings).map Prod.fst).Nodup := by
  rw [map_fst_assign]
  split
  · exact h
  · rename_i hn
    rw [List.nodup_append]
    refine ⟨h, by simp, ?_⟩
    intro a ha b hb hab
    simp only [List.mem_singleton] at hb
    exact hn (hb ▸ hab ▸ ha)

/-- `store` with `name` bound to `value`. -/
def set (store : Store) (name value : Text) : Store where
  bindings := assign name value store.bindings
  nodup := nodup_assign store.nodup

/-- `store` without `name`. -/
def erase (store : Store) (name : Text) : Store where
  bindings := store.bindings.filter (·.1 != name)
  nodup := store.nodup.sublist (List.filter_sublist.map Prod.fst)

/-- Whether `name` is bound. -/
def contains (store : Store) (name : Text) : Bool :=
  (store.get? name).isSome

/-- The number of variables. -/
def size (store : Store) : Nat :=
  store.bindings.length

/-- The bindings in the order of their names. -/
def toList (store : Store) : List (Text × Text) :=
  store.bindings.mergeSort fun a b => a.1.atMost b.1

/-- The store that binds each name to the last value it is listed with. -/
def ofList (bindings : List (Text × Text)) : Store :=
  bindings.foldl (fun store b => store.set b.1 b.2) empty

/-- The variable that holds the search path. -/
def pathName : Text := ['P', 'A', 'T', 'H']

/-- The search path, if it is set. -/
def path? (store : Store) : Option Text :=
  store.get? pathName

/-- The store of a shell that starts with the search path of its environment, if there is one. -/
def ofEnvironmentPath (path : Option Text) : Store :=
  match path with
  | some path => empty.set pathName path
  | none => empty

end Store

end LineShell
