import Mutiny.Lib.Bytes
import Mutiny.Lib.Result

/-!
# Indexing a byte string

Code that indexes a byte string by position stops the program when the position
lies outside of it.  Here that is a failure of its own, told apart from the errors
the code returns, so that "never reads out of bounds" is a statement about results.
-/

namespace Slice

open Result

variable {ε α β : Type} {bs x y : Bytes} {i j k : Nat} {b : UInt8}

/-- Why a computation on a byte string stopped. -/
inductive Fault (ε : Type) where
  | outOfBounds
  | refused (e : ε)
deriving DecidableEq, Repr

/-- The byte at a position. -/
def byteAt (bs : Bytes) (i : Nat) : Except (Fault ε) UInt8 :=
  okOr bs[i]? .outOfBounds

/-- The bytes from position {lit}`i` up to, not including, position {lit}`j`. -/
def range (bs : Bytes) (i j : Nat) : Except (Fault ε) Bytes :=
  if i ≤ j ∧ j ≤ bs.length then .ok ((bs.drop i).take (j - i)) else .error .outOfBounds

/-- Return the error {lit}`e` when {lit}`c` holds. -/
def refuse (c : Prop) [Decidable c] (e : ε) : Except (Fault ε) Unit :=
  reject c (.refused e)

/-- A computation that indexes nothing, among those that do. -/
def lift (r : Except ε α) : Except (Fault ε) α :=
  r.mapError .refused

@[simp]
theorem refuse_eq_ok {c : Prop} [Decidable c] {e : ε} {u : Unit} :
    refuse c e = .ok u ↔ ¬ c :=
  reject_eq_ok

@[simp]
theorem lift_eq_ok {r : Except ε α} {a : α} : lift r = .ok a ↔ r = .ok a :=
  mapError_eq_ok

theorem lift_ok (a : α) : lift (.ok a : Except ε α) = .ok a := rfl

theorem lift_bind (r : Except ε α) (f : α → Except ε β) :
    lift (r >>= f) = lift r >>= fun a => lift (f a) := by
  cases r <;> rfl

theorem lift_reject {c : Prop} [Decidable c] (e : ε) : lift (reject c e) = refuse c e := by
  by_cases hc : c <;> simp [lift, refuse, reject, hc, Except.mapError]

@[simp]
theorem byteAt_eq_ok : byteAt (ε := ε) bs i = .ok b ↔ bs[i]? = some b :=
  okOr_eq_ok

/-! ## Cuts -/

/-- The byte string spells {lit}`x` from position {lit}`i` up to position {lit}`j`. -/
def Spells (bs : Bytes) (i j : Nat) (x : Bytes) : Prop :=
  ∃ front back, bs = front ++ x ++ back ∧ front.length = i ∧ j = i + x.length

@[simp]
theorem range_eq_ok : range (ε := ε) bs i j = .ok x ↔ Spells bs i j x := by
  unfold range
  split
  · next h =>
      rw [Except.ok.injEq]
      constructor
      · rintro rfl
        refine ⟨bs.take i, bs.drop j, ?_, ?_, ?_⟩
        · have hback : bs.drop j = (bs.drop i).drop (j - i) := by
            rw [List.drop_drop, Nat.add_sub_cancel' h.1]
          rw [hback, List.append_assoc, List.take_append_drop, List.take_append_drop]
        · rw [List.length_take]
          omega
        · rw [List.length_take, List.length_drop]
          omega
      · rintro ⟨front, back, rfl, rfl, rfl⟩
        rw [Nat.add_sub_cancel_left, List.append_assoc, List.drop_left, List.take_left]
  · next h =>
      refine ⟨nofun, ?_⟩
      rintro ⟨front, back, rfl, rfl, rfl⟩
      simp at h

theorem Spells.length (h : Spells bs i j x) : j = i + x.length := by
  rcases h with ⟨front, back, -, -, hj⟩
  exact hj

theorem Spells.unique (hx : Spells bs i j x) (hy : Spells bs i j y) : x = y := by
  rw [← range_eq_ok (ε := Unit)] at hx hy
  exact Except.ok.inj (hx.symm.trans hy)

theorem spells_nil (h : i ≤ bs.length) : Spells bs i i [] :=
  ⟨bs.take i, bs.drop i, by simp, by simpa using h, rfl⟩

/-- A cut that spells a concatenation is two adjacent cuts. -/
theorem spells_append : Spells bs i k (x ++ y) ↔
    Spells bs i (i + x.length) x ∧ Spells bs (i + x.length) k y := by
  constructor
  · rintro ⟨front, back, rfl, rfl, rfl⟩
    refine ⟨⟨front, y ++ back, by simp, rfl, rfl⟩, ⟨front ++ x, back, by simp, by simp, ?_⟩⟩
    rw [List.length_append, Nat.add_assoc]
  · rintro ⟨⟨front, back, rfl, rfl, -⟩, front', back', hsplit, hlen, rfl⟩
    -- both cuts are of one string, so the second one starts where the first one ends
    have hparts := List.append_inj (hsplit.trans (List.append_assoc ..)) (by simp [hlen])
    refine ⟨front, back', by simp [hparts.2], rfl, ?_⟩
    rw [List.length_append, Nat.add_assoc]

theorem spells_singleton : Spells bs i (i + 1) [b] ↔ bs[i]? = some b := by
  constructor
  · rintro ⟨front, back, rfl, rfl, -⟩
    simp
  · intro h
    rcases List.getElem?_eq_some_iff.mp h with ⟨hi, rfl⟩
    refine ⟨bs.take i, bs.drop (i + 1), ?_, by simpa using hi.le, rfl⟩
    rw [List.append_assoc, List.singleton_append, List.cons_getElem_drop_succ,
      List.take_append_drop]

/-- The cut from end to end is the byte string itself. -/
theorem spells_whole : Spells bs 0 bs.length x ↔ x = bs := by
  constructor
  · rintro ⟨front, back, hbs, hfront, hlen⟩
    have hfront : front = [] := List.length_eq_zero_iff.mp hfront
    have hback : back = [] := by
      have := congrArg List.length hbs
      simp only [List.length_append, hfront, List.length_nil] at this
      exact List.length_eq_zero_iff.mp (by omega)
    rw [hbs, hfront, hback, List.nil_append, List.append_nil]
  · rintro rfl
    exact ⟨[], [], by simp, rfl, by simp⟩

/-! ## Staying inside the bounds -/

/-- A computation that does not index outside of the byte string. -/
def InBounds (r : Except (Fault ε) α) : Prop := r ≠ .error .outOfBounds

theorem InBounds.ok (a : α) : InBounds (.ok a : Except (Fault ε) α) := nofun

/-- A sequence reads inside the bounds when each part does. -/
theorem InBounds.bind {r : Except (Fault ε) α} {f : α → Except (Fault ε) β} (hr : InBounds r)
    (hf : ∀ a, r = .ok a → InBounds (f a)) : InBounds (r >>= f) := by
  cases r with
  | error e => exact fun h => hr (by simpa using h)
  | ok a => exact hf a rfl

/-- What follows a check runs only when the check passes. -/
theorem InBounds.refuse_bind {c : Prop} [Decidable c] {e : ε} {f : Unit → Except (Fault ε) β}
    (hf : ¬ c → InBounds (f ())) : InBounds (refuse c e >>= f) := by
  by_cases hc : c
  · simp [refuse, reject, hc, InBounds]
  · simpa [refuse, reject, hc] using hf hc

theorem InBounds.refuse (c : Prop) [Decidable c] (e : ε) : InBounds (Slice.refuse c e) := by
  by_cases hc : c <;> simp [Slice.refuse, reject, hc, InBounds]

theorem InBounds.lift (r : Except ε α) : InBounds (Slice.lift r) := by
  cases r <;> simp [InBounds, Slice.lift, Except.mapError]

theorem InBounds.byteAt (h : i < bs.length) : InBounds (Slice.byteAt (ε := ε) bs i) := by
  simp [InBounds, Slice.byteAt, okOr, h]

theorem InBounds.range (hij : i ≤ j) (hj : j ≤ bs.length) :
    InBounds (Slice.range (ε := ε) bs i j) := by
  simp [InBounds, Slice.range, hij, hj]

end Slice
