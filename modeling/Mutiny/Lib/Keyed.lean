import Mathlib.Algebra.BigOperators.Group.List.Basic
import Mathlib.Algebra.Order.Ring.Nat
import Mathlib.Data.List.Perm.Basic

/-!
# Lists looked up by a key

A list of records that are found and removed by a key.  A removal takes out the
first record with the key and leaves every other key alone, so that the records
taken out, put back together with what remains, are the list it started from.
-/

namespace Keyed

variable {κ α : Type} [DecidableEq κ] (key : α → κ)

/-- The first record with a key. -/
def lookup (k : κ) (xs : List α) : Option α := xs.find? fun a => key a == k

/-- The list without the first record with a key. -/
def remove (k : κ) (xs : List α) : List α := xs.eraseP fun a => key a == k

/-- Remove keys one after the other. -/
def removeAll (ks : List κ) (xs : List α) : List α := ks.foldl (fun ys k => remove key k ys) xs

variable {key} {k j : κ} {ks : List κ} {xs ys : List α} {a : α}

theorem key_of_lookup (h : lookup key k xs = some a) : key a = k := by
  have hfound := List.find?_some h
  simpa using hfound

theorem mem_of_lookup (h : lookup key k xs = some a) : a ∈ xs :=
  List.mem_of_find?_eq_some h

theorem lookup_eq_none : lookup key k xs = none ↔ k ∉ xs.map key := by
  simp [lookup, List.find?_eq_none]

theorem lookup_append :
    lookup key k (xs ++ ys) = (lookup key k xs).or (lookup key k ys) :=
  List.find?_append

/-- Distinct keys: a record of the list is the one its key finds. -/
theorem lookup_of_mem (hdistinct : (xs.map key).Nodup) (h : a ∈ xs) :
    lookup key (key a) xs = some a := by
  induction xs with
  | nil => cases h
  | cons x xs ih =>
    rw [List.map_cons, List.nodup_cons] at hdistinct
    rcases List.mem_cons.mp h with rfl | hmem
    · simp [lookup]
    · have hne : key x ≠ key a := by
        intro heq
        exact hdistinct.1 (heq ▸ List.mem_map_of_mem hmem)
      have htail := ih hdistinct.2 hmem
      simpa [lookup, hne] using htail

/-- Lists with the same keys and values are looked up alike. -/
theorem lookup_congr {β : Type} {value : α → β} (hdistinct : (ys.map key).Nodup)
    (hsub : ∀ a ∈ xs, ∃ b ∈ ys, key b = key a ∧ value b = value a)
    (hsup : ∀ b ∈ ys, ∃ a ∈ xs, key a = key b ∧ value a = value b) (k : κ) :
    (lookup key k xs).map value = (lookup key k ys).map value := by
  cases hfind : lookup key k xs with
  | none =>
    have hnone : lookup key k ys = none := by
      refine lookup_eq_none.mpr fun hmem => lookup_eq_none.mp hfind ?_
      rcases List.mem_map.mp hmem with ⟨b, hb, rfl⟩
      rcases hsup b hb with ⟨a, ha, hkey, -⟩
      rw [← hkey]
      exact List.mem_map_of_mem ha
    rw [hnone]
  | some a =>
    rcases hsub a (mem_of_lookup hfind) with ⟨b, hb, hkey, hvalue⟩
    have hfound : lookup key k ys = some b := by
      rw [← key_of_lookup hfind, ← hkey]
      exact lookup_of_mem hdistinct hb
    rw [hfound, Option.map_some, Option.map_some, hvalue]

theorem lookup_remove_of_ne (h : k ≠ j) : lookup key k (remove key j xs) = lookup key k xs := by
  induction xs with
  | nil => rfl
  | cons x xs ih =>
    by_cases hx : key x = j
    · simp [remove, lookup, hx, Ne.symm h]
    · by_cases hk : key x = k
      · simp [remove, lookup, hk, h]
      · simpa [remove, lookup, hx, hk] using ih

/-- Keys that are not removed are found as before. -/
theorem lookup_removeAll_of_notMem (h : k ∉ ks) :
    lookup key k (removeAll key ks xs) = lookup key k xs := by
  induction ks generalizing xs with
  | nil => rfl
  | cons j ks ih =>
    rw [List.mem_cons, not_or] at h
    calc lookup key k (removeAll key ks (remove key j xs))
        = lookup key k (remove key j xs) := ih h.2
      _ = lookup key k xs := lookup_remove_of_ne h.1

theorem removeAll_sublist : (removeAll key ks xs).Sublist xs := by
  induction ks generalizing xs with
  | nil => exact List.Sublist.refl xs
  | cons j ks ih => exact ih.trans (List.eraseP_sublist ..)

theorem perm_cons_remove (h : lookup key k xs = some a) : (a :: remove key k xs).Perm xs := by
  induction xs with
  | nil => cases h
  | cons x xs ih =>
    by_cases hx : key x = k
    · have ha : x = a := by simpa [lookup, hx] using h
      subst ha
      simp [remove, hx]
    · have htail : lookup key k xs = some a := by simpa [lookup, hx] using h
      have hswap : (a :: remove key k (x :: xs)).Perm (x :: a :: remove key k xs) := by
        simpa [remove, hx] using List.Perm.swap x a (remove key k xs)
      exact hswap.trans ((ih htail).cons x)

/-- The records found under distinct keys are exactly what a removal takes out. -/
theorem perm_append_removeAll {found : List α} (hdistinct : (found.map key).Nodup)
    (hfound : ∀ a ∈ found, lookup key (key a) xs = some a) :
    (found ++ removeAll key (found.map key) xs).Perm xs := by
  induction found generalizing xs with
  | nil => exact List.Perm.refl xs
  | cons a found ih =>
    rw [List.map_cons, List.nodup_cons] at hdistinct
    have hhead := hfound a List.mem_cons_self
    have htail : ∀ b ∈ found, lookup key (key b) (remove key (key a) xs) = some b := by
      intro b hb
      have hne : key b ≠ key a := fun heq => hdistinct.1 (heq ▸ List.mem_map_of_mem hb)
      rw [lookup_remove_of_ne hne]
      exact hfound b (List.mem_cons_of_mem a hb)
    exact ((ih hdistinct.2 htail).cons a).trans (perm_cons_remove hhead)

/-- Distinct keys that cover a list split any sum over it. -/
theorem sum_by_key (f : α → Nat) (hks : ks.Nodup) (hxs : ∀ a ∈ xs, key a ∈ ks) :
    (ks.map fun k => ((xs.filter fun a => key a == k).map f).sum).sum = (xs.map f).sum := by
  have hone : ∀ (c : Nat) (k : κ) {ks : List κ}, ks.Nodup → k ∈ ks →
      (ks.map fun j => if k = j then c else 0).sum = c := by
    intro c k ks hks hk
    induction ks with
    | nil => cases hk
    | cons j ks ih =>
      rw [List.nodup_cons] at hks
      rw [List.map_cons, List.sum_cons]
      by_cases hj : k = j
      · have hrest : (ks.map fun j => if k = j then c else 0).sum = 0 := by
          apply List.sum_eq_zero
          intro n hn
          rcases List.mem_map.mp hn with ⟨i, hi, rfl⟩
          apply if_neg
          intro heq
          rw [← hj, heq] at hks
          exact hks.1 hi
        rw [if_pos hj, hrest, Nat.add_zero]
      · rw [if_neg hj, Nat.zero_add]
        exact ih hks.2 ((List.mem_cons.mp hk).resolve_left hj)
  induction xs with
  | nil => simp
  | cons a xs ih =>
    rw [List.forall_mem_cons] at hxs
    have hsplit : (ks.map fun k => (((a :: xs).filter fun a => key a == k).map f).sum) =
        ks.map fun k => (if key a = k then f a else 0) +
          ((xs.filter fun a => key a == k).map f).sum := by
      apply List.map_congr_left
      intro k _
      by_cases hk : key a = k
      · simp [hk]
      · simp [hk]
    rw [hsplit, List.sum_map_add, hone _ _ hks hxs.1, ih hxs.2, List.map_cons, List.sum_cons]

end Keyed
