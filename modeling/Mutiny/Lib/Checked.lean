import Mathlib.Algebra.Order.Ring.Nat
import Mathlib.Data.List.Basic

/-!
# Checked and saturating machine arithmetic

Operations on fixed-width unsigned integers that report overflow, or clamp at
the ends of the range, together with their meaning on natural numbers.
-/

namespace UInt64

/-- The sum, if it fits. -/
def checkedAdd (a b : UInt64) : Option UInt64 :=
  if a.toNat + b.toNat < 2 ^ 64 then some (a + b) else none

/-- The difference, if it is not negative. -/
def checkedSub (a b : UInt64) : Option UInt64 :=
  if b ≤ a then some (a - b) else none

/-- The product, if it fits. -/
def checkedMul (a b : UInt64) : Option UInt64 :=
  if a.toNat * b.toNat < 2 ^ 64 then some (a * b) else none

/-- The sum, or the largest value. -/
def saturatingAdd (a b : UInt64) : UInt64 :=
  if a.toNat + b.toNat < 2 ^ 64 then a + b else UInt64.ofNat (2 ^ 64 - 1)

/-- The difference, or zero. -/
def saturatingSub (a b : UInt64) : UInt64 :=
  if b ≤ a then a - b else 0

/-- The value of a natural number, if it fits. -/
def tryFrom (n : Nat) : Option UInt64 :=
  if n < 2 ^ 64 then some (UInt64.ofNat n) else none

variable {a b c : UInt64}

theorem toNat_add_one (h : a.toNat + 1 < 2 ^ 64) : (a + 1).toNat = a.toNat + 1 := by
  rw [UInt64.toNat_add, show (1 : UInt64).toNat = 1 from rfl, Nat.mod_eq_of_lt h]

theorem lt_add_one_of_lt (h : a.toNat + 1 < 2 ^ 64) : a < a + 1 := by
  rw [UInt64.lt_iff_toNat_lt, toNat_add_one h]
  exact Nat.lt_succ_self _

theorem checkedAdd_eq_some :
    checkedAdd a b = some c ↔ c.toNat = a.toNat + b.toNat := by
  unfold checkedAdd
  split
  next h =>
    rw [Option.some.injEq, ← UInt64.toNat_inj, UInt64.toNat_add, Nat.mod_eq_of_lt h]
    exact eq_comm
  next h =>
    have hc := c.toNat_lt
    constructor
    · intro hnone
      cases hnone
    · intro hsum
      omega

theorem checkedSub_eq_some :
    checkedSub a b = some c ↔ c.toNat + b.toNat = a.toNat := by
  unfold checkedSub
  split
  next h =>
    have hle := UInt64.le_iff_toNat_le.mp h
    rw [Option.some.injEq, ← UInt64.toNat_inj, UInt64.toNat_sub_of_le _ _ h]
    omega
  next h =>
    have hlt := mt UInt64.le_iff_toNat_le.mpr h
    constructor
    · intro hnone
      cases hnone
    · intro hsum
      omega

theorem checkedMul_eq_some :
    checkedMul a b = some c ↔ c.toNat = a.toNat * b.toNat := by
  unfold checkedMul
  split
  next h =>
    rw [Option.some.injEq, ← UInt64.toNat_inj, UInt64.toNat_mul, Nat.mod_eq_of_lt h]
    exact eq_comm
  next h =>
    have hc := c.toNat_lt
    constructor
    · intro hnone
      cases hnone
    · intro hproduct
      omega

theorem tryFrom_eq_some {n : Nat} : tryFrom n = some c ↔ c.toNat = n := by
  unfold tryFrom
  split
  next h =>
    rw [Option.some.injEq, ← UInt64.toNat_inj, UInt64.toNat_ofNat_of_lt' h]
    exact eq_comm
  next h =>
    have hc := c.toNat_lt
    constructor
    · intro hnone
      cases hnone
    · intro hn
      omega

theorem toNat_saturatingAdd (a b : UInt64) :
    (saturatingAdd a b).toNat = min (a.toNat + b.toNat) (2 ^ 64 - 1) := by
  unfold saturatingAdd
  split
  next h =>
    rw [UInt64.toNat_add, Nat.mod_eq_of_lt h]
    omega
  next h =>
    rw [UInt64.toNat_ofNat_of_lt' (by decide)]
    omega

end UInt64

namespace UInt32

/-- The sum, if it fits. -/
def checkedAdd (a b : UInt32) : Option UInt32 :=
  if a.toNat + b.toNat < 2 ^ 32 then some (a + b) else none

/-- The difference, if it is not negative. -/
def checkedSub (a b : UInt32) : Option UInt32 :=
  if b ≤ a then some (a - b) else none

variable {a b c : UInt32}

theorem checkedAdd_eq_some :
    checkedAdd a b = some c ↔ c.toNat = a.toNat + b.toNat := by
  unfold checkedAdd
  split
  next h =>
    rw [Option.some.injEq, ← UInt32.toNat_inj, UInt32.toNat_add, Nat.mod_eq_of_lt h]
    exact eq_comm
  next h =>
    have hc := c.toNat_lt
    constructor
    · intro hnone
      cases hnone
    · intro hsum
      omega

theorem checkedSub_eq_some :
    checkedSub a b = some c ↔ c.toNat + b.toNat = a.toNat := by
  unfold checkedSub
  split
  next h =>
    have hle := UInt32.le_iff_toNat_le.mp h
    rw [Option.some.injEq, ← UInt32.toNat_inj, UInt32.toNat_sub_of_le _ _ h]
    omega
  next h =>
    have hlt := mt UInt32.le_iff_toNat_le.mpr h
    constructor
    · intro hnone
      cases hnone
    · intro hsum
      omega

theorem eq_sub_of_checkedSub (h : checkedSub a b = some c) : c = a - b := by
  unfold checkedSub at h
  split at h
  · exact (Option.some.inj h).symm
  · cases h

end UInt32
