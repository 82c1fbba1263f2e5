import Mathlib.Algebra.Order.Ring.Nat
import Mathlib.Data.List.Pairwise

/-!
# Ordered maps

A finite map as the list of its entries in ascending key order, with insertion
and lookup.
-/

namespace SortedMap

variable {κ α : Type} [LinearOrder κ]

/-- Whether there is a value. -/
def contains (k : κ) (m : List (κ × α)) : Bool := m.any fun e => e.1 == k

/-- The value of a key. -/
def lookup (k : κ) (m : List (κ × α)) : Option α := (m.find? fun e => e.1 == k).map (·.2)

/-- Put an entry in its place, over an older one with the same key. -/
def insert (k : κ) (v : α) : List (κ × α) → List (κ × α)
  | [] => [(k, v)]
  | e :: m =>
    if k < e.1 then (k, v) :: e :: m
    else if k = e.1 then (k, v) :: m
    else e :: insert k v m

/-- Insert a key that must be new. -/
def insertNew (k : κ) (v : α) (m : List (κ × α)) : Option (List (κ × α)) :=
  if contains k m then none else some (insert k v m)

variable {k : κ} {m : List (κ × α)}

theorem mem_insert_key {v : α} {e : κ × α} (h : e ∈ insert k v m) : e = (k, v) ∨ e ∈ m := by
  induction m with
  | nil => simpa [insert] using h
  | cons x m ih =>
    unfold insert at h
    split at h
    · simpa using h
    · split at h
      · rcases List.mem_cons.mp h with rfl | h
        · exact Or.inl rfl
        · exact Or.inr (List.mem_cons_of_mem _ h)
      · rcases List.mem_cons.mp h with rfl | h
        · exact Or.inr List.mem_cons_self
        · rcases ih h with h | h
          · exact Or.inl h
          · exact Or.inr (List.mem_cons_of_mem _ h)

/-- Inserting a fresh key adds its entry and keeps the others. -/
theorem mem_insert {v : α} (hfresh : contains k m = false) {e : κ × α} :
    e ∈ insert k v m ↔ e = (k, v) ∨ e ∈ m := by
  refine ⟨mem_insert_key, ?_⟩
  induction m with
  | nil => simp [insert]
  | cons x m ih =>
    simp only [contains, List.any_cons, Bool.or_eq_false_iff, beq_eq_false_iff_ne] at hfresh
    intro h
    unfold insert
    split
    · simpa using h
    · rw [if_neg (Ne.symm hfresh.1)]
      rcases h with rfl | h
      · exact List.mem_cons_of_mem _ (ih hfresh.2 (Or.inl rfl))
      · rcases List.mem_cons.mp h with rfl | h
        · exact List.mem_cons_self
        · exact List.mem_cons_of_mem _ (ih hfresh.2 (Or.inr h))

theorem contains_eq_false :
    contains k m = false ↔ k ∉ m.map Prod.fst := by
  rw [contains, List.any_eq_false, List.mem_map, not_exists]
  simp

/-- Insertion adds its key to the keys. -/
theorem mem_keys_insert {j : κ} {v : α} :
    k ∈ (insert j v m).map Prod.fst ↔ k = j ∨ k ∈ m.map Prod.fst := by
  induction m with
  | nil => simp [insert]
  | cons x m ih =>
    unfold insert
    split
    · simp
    · split
      next heq => simp [heq]
      next => rw [List.map_cons, List.mem_cons, ih, List.map_cons, List.mem_cons, or_left_comm]

theorem insertNew_eq_some {v : α} {m' : List (κ × α)} :
    insertNew k v m = some m' ↔ contains k m = false ∧ m' = insert k v m := by
  unfold insertNew
  split
  next h => simp [h]
  next h =>
    rw [Option.some.injEq]
    constructor
    · intro hm
      exact ⟨Bool.not_eq_true _ ▸ h, hm.symm⟩
    · intro hm
      exact hm.2.symm

/-- A lookup after an insertion. -/
theorem lookup_insert (k j : κ) (v : α) (m : List (κ × α)) :
    lookup j (insert k v m) = if j = k then some v else lookup j m := by
  have hcons : ∀ (e : κ × α) (m : List (κ × α)),
      lookup j (e :: m) = if j = e.1 then some e.2 else lookup j m := by
    intro e m
    by_cases hj : j = e.1
    · simp [lookup, hj]
    · simp [lookup, hj, Ne.symm hj]
  induction m with
  | nil => rw [insert, hcons]
  | cons e m ih =>
    unfold insert
    split
    · rw [hcons]
    · split
      next heq =>
        rw [hcons, hcons, heq]
        split <;> rfl
      next hne =>
        rw [hcons, hcons, ih]
        by_cases hj : j = e.1
        · rw [if_pos hj, if_neg (fun h => hne (h.symm.trans hj)), if_pos hj]
        · rw [if_neg hj, if_neg hj]

end SortedMap
