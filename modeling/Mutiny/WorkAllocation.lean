import Mathlib.Order.Bounds.Basic
import Mutiny.Consensus

/-!
# The allocation of work and the target

The number of work units of a licence is the least that meets an inequality between powers,
found by binary search.  The capacity of the network is that number times the number of
licences, and the target is the reciprocal of the capacity, corrected.

Main result:

- Theorem {lit}`work_allocation_and_target`: the allocation and the target meet their
  specification.
-/

namespace Mutiny

open Result

/-! ## The binary search -/

/-- A number of work units is sufficient. -/
def Sufficient (rhs w : Nat) : Prop := rhs ≤ w ^ 25 * lSat ^ 16

theorem Sufficient.mono {rhs v w : Nat} (h : Sufficient rhs v) (hle : v ≤ w) : Sufficient rhs w :=
  le_trans h (Nat.mul_le_mul_right _ (Nat.pow_le_pow_left hle 25))

/-- The loop keeps everything below its interval insufficient and its upper end sufficient; the
interval shrinks at every turn. -/
theorem workUnitsSearch_least {rhs fuel lo hi : Nat} (hfuel : hi - lo ≤ fuel) (hle : lo ≤ hi)
    (hbelow : ∀ w < lo, 0 < w → ¬Sufficient rhs w) (habove : Sufficient rhs hi) :
    lo ≤ workUnitsSearch rhs fuel lo hi ∧ workUnitsSearch rhs fuel lo hi ≤ hi ∧
      Sufficient rhs (workUnitsSearch rhs fuel lo hi) ∧
      ∀ w < workUnitsSearch rhs fuel lo hi, 0 < w → ¬Sufficient rhs w := by
  induction fuel generalizing lo hi with
  | zero =>
    have heq : lo = hi := by omega
    subst heq
    exact ⟨le_refl _, le_refl _, habove, hbelow⟩
  | succ fuel ih =>
    rw [workUnitsSearch]
    by_cases hlt : lo < hi
    · rw [if_pos hlt]
      by_cases henough : rhs ≤ (lo + (hi - lo) / 2) ^ 25 * lSat ^ 16
      · simp only [if_pos henough]
        rcases ih (by omega) (by omega) hbelow henough with ⟨hlo, hhi, hsuff, hleast⟩
        exact ⟨hlo, by omega, hsuff, hleast⟩
      · simp only [if_neg henough]
        have hmiddle : ∀ w < lo + (hi - lo) / 2 + 1, 0 < w → ¬Sufficient rhs w := by
          intro w hw _ hsuff
          exact henough (hsuff.mono (Nat.le_of_lt_succ hw))
        rcases ih (by omega) (by omega) hmiddle habove with ⟨hlo, hhi, hsuff, hleast⟩
        exact ⟨by omega, hhi, hsuff, hleast⟩
    · rw [if_neg hlt]
      have heq : lo = hi := by omega
      subst heq
      exact ⟨le_refl _, le_refl _, habove, hbelow⟩

/-! ## Work units -/

variable {licenses : UInt64}

theorem toNat_workUnits_saturated (h : lSat ≤ licenses.toNat) :
    (workUnits licenses).toNat = wMax := by
  have hne : licenses ≠ 0 := by
    rintro rfl
    exact absurd h (by decide)
  rw [workUnits, if_neg hne, if_pos h]
  rfl

/-- Below saturation the number of work units is the least sufficient one. -/
theorem isLeast_workUnits (hpos : 0 < licenses.toNat) (hlt : licenses.toNat < lSat) :
    IsLeast {w | 0 < w ∧ Sufficient (wMax ^ 25 * licenses.toNat ^ 16) w}
        (workUnits licenses).toNat ∧
      (workUnits licenses).toNat ≤ wMax := by
  have hne : licenses ≠ 0 := by
    rintro rfl
    exact absurd hpos (by decide)
  have hall : Sufficient (wMax ^ 25 * licenses.toNat ^ 16) wMax :=
    Nat.mul_le_mul_left _ (Nat.pow_le_pow_left hlt.le 16)
  have hnone : ∀ w < 1, 0 < w → ¬Sufficient (wMax ^ 25 * licenses.toNat ^ 16) w := by
    intro w hw hpos
    omega
  rcases @workUnitsSearch_least (wMax ^ 25 * licenses.toNat ^ 16) wMax 1 wMax (by decide)
    (by decide) hnone hall with ⟨hlo, hhi, hsuff, hleast⟩
  have hmax : wMax = 2048 := rfl
  have hvalue : (workUnits licenses).toNat =
      workUnitsSearch (wMax ^ 25 * licenses.toNat ^ 16) wMax 1 wMax := by
    rw [workUnits, if_neg hne, if_neg (Nat.not_le.mpr hlt)]
    exact UInt16.toNat_ofNat_of_lt' (by simp only [UInt16.size]; omega)
  rw [hvalue]
  refine ⟨⟨⟨by omega, hsuff⟩, ?_⟩, hhi⟩
  rintro w ⟨hwpos, hwsuff⟩
  by_contra hmore
  exact hleast w (by omega) hwpos hwsuff

theorem workUnits_le_wMax (licenses : UInt64) : (workUnits licenses).toNat ≤ wMax := by
  rcases Nat.lt_or_ge licenses.toNat lSat with hlt | hsat
  · rcases Nat.eq_zero_or_pos licenses.toNat with hzero | hpos
    · have heq : licenses = 0 := by
        rw [← UInt64.toNat_inj]
        exact hzero
      subst heq
      decide
    · exact (isLeast_workUnits hpos hlt).2
  · exact (toNat_workUnits_saturated hsat).le

theorem workUnits_pos (hpos : 0 < licenses.toNat) :
    0 < (workUnits licenses).toNat := by
  rcases Nat.lt_or_ge licenses.toNat lSat with hlt | hsat
  · exact (isLeast_workUnits hpos hlt).1.1.1
  · rw [toNat_workUnits_saturated hsat]
    decide

theorem workUnits_mono {l l' : UInt64} (h : l ≤ l') :
    (workUnits l).toNat ≤ (workUnits l').toNat := by
  have hle := UInt64.le_iff_toNat_le.mp h
  rcases Nat.lt_or_ge l'.toNat lSat with hlt' | hsat'
  · rcases Nat.eq_zero_or_pos l.toNat with hzero | hpos
    · have heq : l = 0 := by
        rw [← UInt64.toNat_inj]
        exact hzero
      subst heq
      exact Nat.zero_le _
    · -- what suffices for more licences suffices for fewer
      rcases (isLeast_workUnits (by omega) hlt').1.1 with ⟨hpos', hsuff'⟩
      refine (isLeast_workUnits hpos (by omega)).1.2 ⟨hpos', le_trans ?_ hsuff'⟩
      exact Nat.mul_le_mul_left _ (Nat.pow_le_pow_left hle 16)
  · rw [toNat_workUnits_saturated hsat']
    exact workUnits_le_wMax l

/-- One more licence is more capacity. -/
theorem authorizedCapacity_strictMono {l l' : UInt64} (h : l < l') :
    authorizedCapacity l < authorizedCapacity l' := by
  have hlt := UInt64.lt_iff_toNat_lt.mp h
  have hpos : 0 < (workUnits l').toNat := workUnits_pos (by omega)
  calc l.toNat * (workUnits l).toNat
      ≤ l.toNat * (workUnits l').toNat := Nat.mul_le_mul_left _ (workUnits_mono (UInt64.le_of_lt h))
    _ < l'.toNat * (workUnits l').toNat := Nat.mul_lt_mul_of_pos_right hlt hpos

theorem authorizedCapacity_lt (l : UInt64) : authorizedCapacity l < 2 ^ 75 := by
  calc l.toNat * (workUnits l).toNat
      ≤ l.toNat * wMax := Nat.mul_le_mul_left _ (workUnits_le_wMax l)
    _ < 2 ^ 64 * wMax := Nat.mul_lt_mul_of_pos_right l.toNat_lt (by decide)
    _ = 2 ^ 75 := rfl

/-! ## Targets -/

/-- The target as a number: the reciprocal of the capacity, corrected and cut to 256 bits. -/
def targetValue (capacity correction : Nat) : Nat :=
  min (2 ^ 256 - 1) (2 ^ 256 / capacity * correction / 2 ^ 32)

/-- The conversion to 32 bytes that ends the derivation. -/
def biguintToU256Be (value : Nat) : Except String Bytes32 := do
  reject (2 ^ 256 ≤ value) "derived integer does not fit 32 bytes"
  .ok (BitVec.ofNat 256 value)

theorem targetValue_lt (capacity correction : Nat) : targetValue capacity correction < 2 ^ 256 :=
  lt_of_le_of_lt (min_le_left _ _) (by decide)

/-- The conversion never fails: the value has been cut to 256 bits before. -/
theorem biguintToU256Be_targetValue (capacity correction : Nat) :
    biguintToU256Be (targetValue capacity correction) =
      .ok (BitVec.ofNat 256 (targetValue capacity correction)) := by
  rw [biguintToU256Be, reject_of_not (Nat.not_le.mpr (targetValue_lt capacity correction))]
  rfl

theorem deriveTarget_eq (capacity : Nat) (correction : UInt64) :
    deriveTarget capacity correction =
      (reject (capacity = 0) "authorized capacity is zero" >>= fun _ =>
        biguintToU256Be (targetValue capacity correction.toNat)) := by
  rw [biguintToU256Be_targetValue]
  rfl

variable {capacity : Nat}

theorem deriveTarget_eq_ok (hpos : capacity ≠ 0) (correction : UInt64) :
    ∃ target, deriveTarget capacity correction = .ok target ∧
      target.toNat = targetValue capacity correction.toNat := by
  refine ⟨BitVec.ofNat 256 (targetValue capacity correction.toNat), ?_, ?_⟩
  · rw [deriveTarget_eq, reject_of_not hpos, biguintToU256Be_targetValue]
    rfl
  · rw [BitVec.toNat_ofNat, Nat.mod_eq_of_lt (targetValue_lt _ _)]

theorem targetValue_mono_correction {c c' : Nat} (h : c ≤ c') :
    targetValue capacity c ≤ targetValue capacity c' :=
  min_le_min_left _ (Nat.div_le_div_right (Nat.mul_le_mul_left _ h))

theorem targetValue_anti_capacity {a a' correction : Nat} (hpos : 0 < a) (h : a ≤ a') :
    targetValue a' correction ≤ targetValue a correction :=
  min_le_min_left _ (Nat.div_le_div_right (Nat.mul_le_mul_right _ (Nat.div_le_div_left h hpos)))

theorem targetValue_pos {correction : Nat} (hpos : 0 < capacity) (hcapacity : capacity < 2 ^ 75)
    (hcorrection : 2 ^ 16 ≤ correction) :
    0 < targetValue capacity correction := by
  have hbase : 2 ^ 181 ≤ 2 ^ 256 / capacity := by
    rw [Nat.le_div_iff_mul_le hpos]
    calc 2 ^ 181 * capacity ≤ 2 ^ 181 * 2 ^ 75 := Nat.mul_le_mul_left _ hcapacity.le
      _ = 2 ^ 256 := by rw [← pow_add]
  have hproduct : 2 ^ 181 * 2 ^ 16 ≤ 2 ^ 256 / capacity * correction :=
    Nat.mul_le_mul hbase hcorrection
  have hcorrected : 0 < 2 ^ 256 / capacity * correction / 2 ^ 32 :=
    Nat.div_pos (le_trans (by decide) hproduct) (by decide)
  exact lt_min (by decide) hcorrected

/-- Work units are the least sufficient number and grow with the licences, the capacity grows
strictly, and the target of every capacity and correction in range is the exact corrected
reciprocal, which is not zero, grows with the correction and falls with the capacity. -/
theorem work_allocation_and_target :
    (∀ l : UInt64, 0 < l.toNat → l.toNat < 65536 →
      IsLeast {w | 0 < w ∧ 2048 ^ 25 * l.toNat ^ 16 ≤ w ^ 25 * 65536 ^ 16} (workUnits l).toNat) ∧
    (∀ l : UInt64, 65536 ≤ l.toNat → (workUnits l).toNat = 2048) ∧
    (∀ l l' : UInt64, l ≤ l' → (workUnits l).toNat ≤ (workUnits l').toNat) ∧
    (∀ l l' : UInt64, l < l' → authorizedCapacity l < authorizedCapacity l') ∧
    ∀ (l correction : UInt64), 1 ≤ authorizedCapacity l → 2 ^ 16 ≤ correction.toNat →
      correction.toNat ≤ 2 ^ 48 →
      ∃ target, deriveTarget (authorizedCapacity l) correction = .ok target ∧
        target.toNat = min (2 ^ 256 - 1)
          (2 ^ 256 / authorizedCapacity l * correction.toNat / 2 ^ 32) ∧
        target ≠ 0 ∧
        (∀ correction', correction ≤ correction' → correction'.toNat ≤ 2 ^ 48 →
          ∃ target', deriveTarget (authorizedCapacity l) correction' = .ok target' ∧
            target ≤ target') ∧
        ∀ l', authorizedCapacity l ≤ authorizedCapacity l' →
          ∃ target', deriveTarget (authorizedCapacity l') correction = .ok target' ∧
            target' ≤ target := by
  refine ⟨fun l hpos hlt => (isLeast_workUnits hpos hlt).1,
    fun l hsat => toNat_workUnits_saturated hsat, fun _ _ => workUnits_mono,
    fun _ _ => authorizedCapacity_strictMono, ?_⟩
  intro l correction hcapacity hlow _
  rcases deriveTarget_eq_ok (Nat.pos_iff_ne_zero.mp hcapacity) correction with
    ⟨target, htarget, hvalue⟩
  refine ⟨target, htarget, hvalue, ?_, ?_, ?_⟩
  · rintro rfl
    have hpositive := targetValue_pos hcapacity (authorizedCapacity_lt l) hlow
    rw [← hvalue] at hpositive
    exact absurd hpositive (by decide)
  · intro correction' hle _
    rcases deriveTarget_eq_ok (Nat.pos_iff_ne_zero.mp hcapacity) correction' with
      ⟨target', htarget', hvalue'⟩
    refine ⟨target', htarget', ?_⟩
    rw [BitVec.le_def, hvalue, hvalue']
    exact targetValue_mono_correction (UInt64.le_iff_toNat_le.mp hle)
  · intro l' hle
    rcases deriveTarget_eq_ok (Nat.pos_iff_ne_zero.mp (le_trans hcapacity hle)) correction with
      ⟨target', htarget', hvalue'⟩
    refine ⟨target', htarget', ?_⟩
    rw [BitVec.le_def, hvalue, hvalue']
    exact targetValue_anti_capacity hcapacity hle

/-- One licence, a saturated network, and the target of one licence at the lowest correction. -/
theorem work_allocation_single :
    IsLeast {w | 0 < w ∧ 2048 ^ 25 * (1 : UInt64).toNat ^ 16 ≤ w ^ 25 * 65536 ^ 16}
        (workUnits 1).toNat ∧
      (workUnits 65536).toNat = 2048 ∧
      ∃ target, deriveTarget (authorizedCapacity 1) 65536 = .ok target ∧ target ≠ 0 := by
  rcases work_allocation_and_target with ⟨hleast, hsaturated, -, -, htarget⟩
  rcases htarget 1 65536 (Nat.mul_pos (by decide) (workUnits_pos (by decide)))
    (by decide) (by decide) with
    ⟨target, hderive, -, hpos, -⟩
  exact ⟨hleast 1 (by decide) (by decide), hsaturated 65536 (by decide), target, hderive, hpos⟩

end Mutiny
