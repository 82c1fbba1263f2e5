import Mathlib.Data.List.Sort
import Mathlib.Data.Nat.ModEq

/-!
# Lists of records

General facts about lists of records with a key: change the first record that satisfies
a predicate, sort by the key, and look up or count afterwards.
-/

namespace Lists

variable {α β κ : Type}

/-! ## The first match -/

/-- Change the first element that satisfies a predicate. -/
def updateFirst (p : α → Bool) (f : α → α) : List α → List α
  | [] => []
  | a :: rest => if p a then f a :: rest else a :: updateFirst p f rest

/-- Only what happens to the first match counts. -/
theorem updateFirst_congr {p : α → Bool} {f g : α → α} {xs : List α}
    (h : ∀ a, xs.find? p = some a → f a = g a) : updateFirst p f xs = updateFirst p g xs := by
  induction xs with
  | nil => rfl
  | cons x xs ih =>
    simp only [updateFirst]
    by_cases hx : p x = true
    · rw [if_pos hx, if_pos hx, h x (List.find?_cons_of_pos hx)]
    · rw [if_neg hx, if_neg hx]
      congr 1
      apply ih
      intro a ha
      apply h
      rw [List.find?_cons_of_neg hx]
      exact ha

/-- Where keys are distinct, the first element with a key is the only one. -/
theorem updateFirst_eq_map [DecidableEq κ] {key : α → κ} {k : κ} {f : α → α} {xs : List α}
    (h : (xs.map key).Nodup) :
    updateFirst (fun a => key a == k) f xs = xs.map fun a => if key a = k then f a else a := by
  induction xs with
  | nil => rfl
  | cons x xs ih =>
    rw [List.map_cons, List.nodup_cons] at h
    simp only [updateFirst, beq_iff_eq, List.map_cons]
    by_cases hx : key x = k
    · have hothers : ∀ a ∈ xs, (if key a = k then f a else a) = id a := by
        intro a ha
        apply if_neg
        intro hsame
        apply h.1
        rw [hx, ← hsame]
        exact List.mem_map_of_mem ha
      rw [if_pos hx, if_pos hx, List.map_congr_left hothers, List.map_id]
    · rw [if_neg hx, if_neg hx, ih h.2]

/-- A change that keeps the keys keeps the list of keys. -/
theorem map_key_updateFirst {key : α → β} {p : α → Bool} {f : α → α}
    (hf : ∀ a, key (f a) = key a) (xs : List α) :
    (updateFirst p f xs).map key = xs.map key := by
  induction xs with
  | nil => rfl
  | cons x xs ih =>
    simp only [updateFirst]
    split
    · simp [hf]
    · simp [ih]

/-- Looking up after an update that keeps the keys. -/
theorem find?_updateFirst [DecidableEq κ] (key : α → κ) {f : α → α}
    (hf : ∀ a, key (f a) = key a) (k k' : κ) (xs : List α) :
    (updateFirst (fun a => key a == k) f xs).find? (fun a => key a == k') =
      if k' = k then (xs.find? fun a => key a == k).map f
      else xs.find? fun a => key a == k' := by
  induction xs with
  | nil => simp [updateFirst]
  | cons x xs ih =>
    by_cases hx : key x = k
    · by_cases hk : k' = k
      · subst hk
        simp [updateFirst, hx, hf]
      · simp [updateFirst, hx, hf, hk, Ne.symm hk]
    · by_cases hk : k' = k
      · subst hk
        simp [updateFirst, hx, ih]
      · by_cases hx' : key x = k'
        · simp [updateFirst, hk, hx']
        · simp [updateFirst, hx, hk, hx', ih]

/-! ## Sorting by key -/

/-- A stable sort by a key. -/
def sortByKey [LE κ] [DecidableLE κ] (key : α → κ) (xs : List α) : List α :=
  xs.insertionSort fun a b => key a ≤ key b

theorem sortByKey_perm [LE κ] [DecidableLE κ] (key : α → κ) (xs : List α) :
    (sortByKey key xs).Perm xs :=
  List.perm_insertionSort _ _

@[simp]
theorem mem_sortByKey [LE κ] [DecidableLE κ] {key : α → κ} {a : α} {xs : List α} :
    a ∈ sortByKey key xs ↔ a ∈ xs :=
  (sortByKey_perm key xs).mem_iff

/-- A stable sort keeps the first element that satisfies a predicate if all that satisfy it
have the same key. -/
theorem find?_sortByKey [LE κ] [DecidableLE κ] (key : α → κ) {p : α → Bool} {k : κ}
    (hrefl : k ≤ k) (hkey : ∀ a, p a = true → key a = k) (xs : List α) :
    (sortByKey key xs).find? p = xs.find? p := by
  have hsorted : (xs.filter p).Pairwise fun a b => key a ≤ key b := by
    rw [List.pairwise_iff_forall_sublist]
    intro a b hab
    have hmem : ∀ c ∈ [a, b], key c = k := fun c hc =>
      hkey c (List.mem_filter.mp (hab.subset hc)).2
    rw [hmem a (by simp), hmem b (by simp)]
    exact hrefl
  have hsub : (xs.filter p).Sublist ((sortByKey key xs).filter p) := by
    have h := (List.sublist_insertionSort hsorted List.filter_sublist).filter p
    rwa [List.filter_filter, List.filter_congr (q := p) (by simp)] at h
  have hlength := ((sortByKey_perm key xs).filter p).length_eq
  rw [← List.head?_filter, ← List.head?_filter, hsub.eq_of_length hlength.symm]

/-! ## Counting and filtering -/

/-- Where keys are distinct, a predicate that changes at the first element with a key only
changes the count by that element. -/
theorem countP_of_find [DecidableEq κ] (key : α → κ) {k : κ} {xs : List α} {a : α}
    (hnodup : (xs.map key).Nodup) (hfind : xs.find? (fun x => key x == k) = some a)
    {p q : α → Bool} (hother : ∀ x ∈ xs, key x ≠ k → q x = p x) (hq : q a = true) :
    xs.countP q = xs.countP p + if p a then 0 else 1 := by
  rcases List.find?_eq_some_iff_append.mp hfind with ⟨hkey, before, after, rfl, hbefore⟩
  have hbefore' : ∀ x ∈ before, key x ≠ k := fun x hx => by simpa using hbefore x hx
  have hafter' : ∀ x ∈ after, key x ≠ k := by
    intro x hx hsame
    rw [List.map_append, List.map_cons, List.nodup_append'] at hnodup
    refine (List.nodup_cons.mp hnodup.2.1).1 ?_
    rw [beq_iff_eq.mp hkey, ← hsame]
    exact List.mem_map_of_mem hx
  have hleft : before.countP q = before.countP p :=
    List.countP_congr fun x hx => by rw [hother x (by simp [hx]) (hbefore' x hx)]
  have hright : after.countP q = after.countP p :=
    List.countP_congr fun x hx => by rw [hother x (by simp [hx]) (hafter' x hx)]
  rw [List.countP_append, List.countP_append, List.countP_cons, List.countP_cons, hleft, hright, hq]
  cases p a
  · simp only [if_true, Bool.false_eq_true, if_false]
    omega
  · simp only [if_true]
    omega

/-- A list along which a rank never falls is cut in three by any rank. -/
theorem filter_split_of_pairwise {rank : α → Nat} {xs : List α}
    (h : xs.Pairwise fun a b => rank a ≤ rank b) (r : Nat) :
    xs = xs.filter (fun a => rank a < r) ++ xs.filter (fun a => rank a = r) ++
      xs.filter (fun a => r < rank a) := by
  induction xs with
  | nil => rfl
  | cons x xs ih =>
    rcases List.pairwise_cons.mp h with ⟨hx, hxs⟩
    have hrest := ih hxs
    rcases lt_trichotomy (rank x) r with hlt | heq | hgt
    · simp [hlt, hlt.ne, hlt.not_gt, ← hrest]
    · have hnone : xs.filter (fun a => rank a < r) = [] := by
        simp only [List.filter_eq_nil_iff, decide_eq_true_eq, not_lt]
        exact fun a ha => heq ▸ hx a ha
      rw [hnone, List.nil_append] at hrest
      simp [heq, hnone, ← hrest]
    · have hall : ∀ a ∈ x :: xs, r < rank a := by
        intro a ha
        rcases List.mem_cons.mp ha with rfl | ha
        · exact hgt
        · exact lt_of_lt_of_le hgt (hx a ha)
      have hkeep : (x :: xs).filter (fun a => r < rank a) = x :: xs := by
        simpa [List.filter_eq_self] using hall
      have hbelow : (x :: xs).filter (fun a => rank a < r) = [] := by
        simp only [List.filter_eq_nil_iff, decide_eq_true_eq, not_lt]
        exact fun a ha => (hall a ha).le
      have hat : (x :: xs).filter (fun a => rank a = r) = [] := by
        simp only [List.filter_eq_nil_iff, decide_eq_true_eq]
        exact fun a ha => (hall a ha).ne'
      rw [hkeep, hbelow, hat]
      rfl

/-- Where a value is taken once, the elements that take it are one element. -/
theorem filter_eq_singleton [DecidableEq κ] {f : α → κ} {xs : List α}
    (h : (xs.map f).Nodup) {a : α} (ha : a ∈ xs) :
    xs.filter (fun x => f x == f a) = [a] := by
  induction xs with
  | nil => cases ha
  | cons x xs ih =>
    rw [List.map_cons, List.nodup_cons] at h
    rcases List.mem_cons.mp ha with rfl | ha
    · have hothers : xs.filter (fun x => f x == f a) = [] := by
        simp only [List.filter_eq_nil_iff, beq_iff_eq]
        exact fun y hy hsame => h.1 (hsame ▸ List.mem_map_of_mem hy)
      rw [List.filter_cons_of_pos (by simp), hothers]
    · have hne : ¬(f x == f a) = true := by
        rw [beq_iff_eq]
        exact fun hsame => h.1 (hsame ▸ List.mem_map_of_mem ha)
      rw [List.filter_cons, if_neg hne, ih h.2 ha]

/-- Ones in a bitmap that spells a list. -/
theorem countP_range_getElem? (outcomes : List Bool) {size : Nat} (h : outcomes.length ≤ size) :
    (List.range size).countP (fun i => outcomes[i]?.getD false) = outcomes.count true := by
  induction outcomes generalizing size with
  | nil => simp
  | cons b outcomes ih =>
    cases size with
    | zero => simp at h
    | succ size =>
      rw [List.range_succ_eq_map, List.countP_cons, List.countP_map, List.count_cons]
      have hrest := ih (Nat.le_of_succ_le_succ h)
      have hshift : ((fun i => (b :: outcomes)[i]?.getD false) ∘ Nat.succ) =
          fun i => outcomes[i]?.getD false := by
        funext i
        simp
      rw [hshift, hrest]
      cases b <;> simp

/-! ## Maps and sizes -/

/-- Pairing drops elements from the end at most. -/
theorem map_fst_zip_sublist (xs : List α) (ys : List β) :
    List.Sublist ((xs.zip ys).map Prod.fst) xs := by
  induction xs generalizing ys with
  | nil => simp
  | cons x xs ih =>
    cases ys with
    | nil => simp
    | cons y ys => exact (ih ys).cons_cons x

/-- Lists with equal images are equal if elements with equal images are, up to an
alternative. -/
theorem eq_or_of_map_eq {f : α → β} {C : Prop} {xs ys : List α}
    (h : xs.map f = ys.map f) (hinj : ∀ x ∈ xs, ∀ y ∈ ys, f x = f y → x = y ∨ C) :
    xs = ys ∨ C := by
  induction xs generalizing ys with
  | nil =>
    rw [List.map_nil, eq_comm, List.map_eq_nil_iff] at h
    exact Or.inl h.symm
  | cons x xs ih =>
    cases ys with
    | nil => cases h
    | cons y ys =>
      rcases List.cons.inj h with ⟨hhead, htail⟩
      rcases hinj x List.mem_cons_self y List.mem_cons_self hhead with rfl | halternative
      · have hbelow : ∀ a ∈ xs, ∀ b ∈ ys, f a = f b → a = b ∨ C := fun a ha b hb =>
          hinj a (List.mem_cons_of_mem _ ha) b (List.mem_cons_of_mem _ hb)
        rcases ih htail hbelow with rfl | halternative
        · exact Or.inl rfl
        · exact Or.inr halternative
      · exact Or.inr halternative

/-- Parts of one length. -/
theorem length_flatMap_const {f : α → List β} {k : Nat} {xs : List α}
    (h : ∀ x ∈ xs, (f x).length = k) : (xs.flatMap f).length = k * xs.length := by
  rw [List.length_flatMap, List.map_congr_left h]
  simp [Nat.mul_comm]

/-- Parts of a least length. -/
theorem mul_length_le_flatMap {k : Nat} {f : α → List β} {as : List α}
    (h : ∀ a ∈ as, k ≤ (f a).length) : k * as.length ≤ (as.flatMap f).length := by
  induction as with
  | nil => simp
  | cons a as ih =>
    rcases List.forall_mem_cons.mp h with ⟨hhead, htail⟩
    have hrest := ih htail
    rw [List.length_cons, List.flatMap_cons, List.length_append, Nat.mul_succ]
    omega

/-- Multiples of a step below a modulus, shifted alike, differ modulo it. -/
theorem eq_of_add_mod_eq {c i j k n m : Nat} (hm : n * k ≤ m) (hk : 0 < k) (hi : i < n)
    (hj : j < n) (h : (c + i * k) % m = (c + j * k) % m) : i = j := by
  have hcancel : i * k ≡ j * k [MOD m] := Nat.ModEq.add_left_cancel' c h
  have hbelow : ∀ l < n, l * k < m := fun l hl => (Nat.mul_lt_mul_of_pos_right hl hk).trans_le hm
  exact Nat.eq_of_mul_eq_mul_right hk (hcancel.eq_of_lt_of_lt (hbelow i hi) (hbelow j hj))

end Lists
