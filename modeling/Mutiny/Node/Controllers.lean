import Mutiny.Node.Epochs

/-!
# The two controllers

The difficulty correction follows the outcomes of the last 64 epochs, kept in a bitmap; the
base fee follows the weight of the last block.  Both are fixed-point feedback loops with
limits.

Main result:

- Theorem {lit}`controllers_track_history`: both follow what they are fed, inside their
  limits.
-/

namespace Mutiny

open Result Lists

/-! ## Bits of a history -/

/-- What is recorded of one more outcome. -/
def recorded (h : DifficultyHistory) (success : Bool) : UInt8 × UInt64 :=
  let result : UInt64 := if success then 1 else 0
  if h.count < 64 then (h.count + 1, h.bitmap ||| (result <<< h.count.toUInt64))
  else (h.count, (h.bitmap >>> 1) ||| (result <<< 63))

/-- A history holds the last 64 of a list of outcomes: bit by bit, oldest first. -/
structure Tracks (outcomes : List Bool) (count : UInt8) (bitmap : UInt64) : Prop where
  count : count.toNat = min outcomes.length 64
  bits : ∀ i, bitmap.toNat.testBit i = (outcomes[outcomes.length - 64 + i]?).getD false

/-- The outcomes that steer the correction. -/
def lastOutcomes (outcomes : List Bool) : List Bool := outcomes.drop (outcomes.length - 64)

theorem Tracks.empty : Tracks [] 0 0 where
  count := rfl
  bits := by simp

theorem testBit_result (success : Bool) (k i : Nat) (hk : k < 64) :
    ((if success then (1 : UInt64) else 0) <<< UInt64.ofNat k).toNat.testBit i =
      (success && decide (i = k)) := by
  have hshift : (UInt64.ofNat k).toNat % 64 = k := by
    rw [UInt64.toNat_ofNat']
    omega
  cases success with
  | false => simp
  | true =>
    rw [if_pos rfl, UInt64.toNat_shiftLeft, hshift, UInt64.toNat_one, Nat.shiftLeft_eq, Nat.one_mul,
      Nat.testBit_mod_two_pow, Nat.testBit_two_pow]
    by_cases hi : i = k
    · simp [hi, hk]
    · simp [hi, Ne.symm hi]

variable {outcomes : List Bool} {h : DifficultyHistory}

/-- Recording one more outcome keeps track: a short history grows, a full one drops its
oldest bit. -/
theorem Tracks.recorded (htracks : Tracks outcomes h.count h.bitmap) (success : Bool) :
    Tracks (outcomes ++ [success]) (recorded h success).1 (recorded h success).2 := by
  have hcount := htracks.count
  have hlength : (outcomes ++ [success]).length = outcomes.length + 1 := by simp
  by_cases hshort : outcomes.length < 64
  · have hlt : h.count < 64 := by
      rw [UInt8.lt_iff_toNat_lt, hcount]
      change min outcomes.length 64 < 64
      omega
    have hplace : h.count.toUInt64 = UInt64.ofNat outcomes.length := by
      rw [← UInt64.toNat_inj, UInt8.toNat_toUInt64, UInt64.toNat_ofNat', hcount]
      omega
    rw [Mutiny.recorded, if_pos hlt, hplace]
    constructor
    · rw [UInt8.toNat_add, hcount, hlength]
      change (min outcomes.length 64 + 1) % 256 = _
      omega
    · intro i
      rw [UInt64.toNat_or, Nat.testBit_or, htracks.bits, testBit_result _ _ _ hshort, hlength]
      have hold : outcomes.length - 64 + i = i := by omega
      have hnew : outcomes.length + 1 - 64 + i = i := by omega
      rw [hold, hnew]
      rcases Nat.lt_trichotomy i outcomes.length with hi | hi | hi
      · rw [List.getElem?_append_left hi]
        simp [Nat.ne_of_lt hi]
      · subst hi
        simp
      · rw [List.getElem?_eq_none (by omega), List.getElem?_eq_none (by simp; omega)]
        simp [Nat.ne_of_gt hi]
  · have hfull : ¬h.count < 64 := by
      rw [UInt8.lt_iff_toNat_lt, hcount]
      change ¬min outcomes.length 64 < 64
      omega
    rw [Mutiny.recorded, if_neg hfull]
    constructor
    · rw [hcount, hlength]
      omega
    · intro i
      have hlast : ((if success then (1 : UInt64) else 0) <<< 63).toNat.testBit i =
          (success && decide (i = 63)) := testBit_result success 63 i (by decide)
      have hfirst : (h.bitmap >>> 1).toNat.testBit i = h.bitmap.toNat.testBit (1 + i) := by
        rw [UInt64.toNat_shiftRight]
        exact Nat.testBit_shiftRight _
      rw [UInt64.toNat_or, Nat.testBit_or, hfirst, hlast, htracks.bits, hlength]
      have hplace : outcomes.length + 1 - 64 + i = outcomes.length - 64 + (1 + i) := by omega
      rw [hplace]
      rcases Nat.lt_trichotomy i 63 with hi | hi | hi
      · rw [List.getElem?_append_left (by omega)]
        simp [Nat.ne_of_lt hi]
      · have hend : outcomes.length - 64 + (1 + i) = outcomes.length := by omega
        rw [hend]
        simp [hi]
      · rw [List.getElem?_eq_none (by omega), List.getElem?_eq_none (by simp; omega)]
        simp [Nat.ne_of_gt hi]

/-- The ones of a history are the successes among the last outcomes. -/
theorem Tracks.countOnes {count : UInt8} {bitmap : UInt64} (h : Tracks outcomes count bitmap) :
    countOnes bitmap = (lastOutcomes outcomes).count true := by
  have hbits : (fun i => bitmap.toNat.testBit i) =
      fun i => ((lastOutcomes outcomes)[i]?).getD false := by
    funext i
    rw [h.bits, lastOutcomes, List.getElem?_drop]
  rw [Mutiny.countOnes, hbits]
  exact countP_range_getElem? _ (by simp only [lastOutcomes, List.length_drop]; omega)

/-! ## Difficulty -/

/-- The limits of the correction. -/
def CorrectionInRange (correction : UInt64) : Prop :=
  difficultyCMinQ32 ≤ correction ∧ correction ≤ difficultyCMaxQ32

variable {multiplier : UInt64}

theorem correctionStep_eq_ok {current stepped : UInt64} :
    correctionStep current multiplier = .ok stepped ↔
      stepped.toNat = current.toNat * multiplier.toNat / 2 ^ 32 := by
  rw [correctionStep, okOr_eq_ok, UInt64.tryFrom_eq_some]

/-- A step of at most twice the current correction never overflows. -/
theorem exists_correctionStep {current : UInt64} (hcurrent : current.toNat ≤ 2 ^ 48)
    (hmultiplier : multiplier.toNat ≤ 2 ^ 33) :
    ∃ stepped, correctionStep current multiplier = .ok stepped ∧
      stepped.toNat = current.toNat * multiplier.toNat / 2 ^ 32 := by
  have hproduct : current.toNat * multiplier.toNat ≤ 2 ^ 48 * 2 ^ 33 :=
    Nat.mul_le_mul hcurrent hmultiplier
  have hlt : current.toNat * multiplier.toNat / 2 ^ 32 < 2 ^ 64 := by omega
  have hvalue := UInt64.toNat_ofNat_of_lt' hlt
  exact ⟨_, correctionStep_eq_ok.mpr hvalue, hvalue⟩

theorem appendHistoryValues_eq (h : DifficultyHistory) (success : Bool) :
    appendHistoryValues h success =
      if 64 * countOnes (recorded h success).2 < 40 * (recorded h success).1.toNat then do
        let stepped ← correctionStep h.correction difficultyEasierStepQ32
        .ok ⟨(recorded h success).1, (recorded h success).2, min stepped difficultyCMaxQ32⟩
      else if 41 * (recorded h success).1.toNat < 64 * countOnes (recorded h success).2 then do
        let stepped ← correctionStep h.correction difficultyHarderStepQ32
        .ok ⟨(recorded h success).1, (recorded h success).2, max stepped difficultyCMinQ32⟩
      else .ok ⟨(recorded h success).1, (recorded h success).2, h.correction⟩ :=
  rfl

/-- Inside its limits the correction never fails to be steered: it stays inside, rises only
when too few and falls only when too many of the recorded epochs succeeded. -/
theorem appendHistoryValues_steers (hrange : CorrectionInRange h.correction) (success : Bool) :
    ∃ h', appendHistoryValues h success = .ok h' ∧ (h'.count, h'.bitmap) = recorded h success ∧
      CorrectionInRange h'.correction ∧
      (h.correction < h'.correction → 64 * countOnes h'.bitmap < 40 * h'.count.toNat) ∧
      (h'.correction < h.correction → 41 * h'.count.toNat < 64 * countOnes h'.bitmap) := by
  have hmin : difficultyCMinQ32.toNat = 2 ^ 16 := rfl
  have hmax : difficultyCMaxQ32.toNat = 2 ^ 48 := rfl
  have heasier : difficultyEasierStepQ32.toNat = 4341736423 := rfl
  have hharder : difficultyHarderStepQ32.toNat = 4248701965 := rfl
  rcases hrange with ⟨hlow, hhigh⟩
  rw [UInt64.le_iff_toNat_le, hmin] at hlow
  rw [UInt64.le_iff_toNat_le, hmax] at hhigh
  have hsmall : difficultyEasierStepQ32.toNat ≤ 2 ^ 33 ∧ difficultyHarderStepQ32.toNat ≤ 2 ^ 33 := by
    decide
  rcases exists_correctionStep hhigh hsmall.1 with ⟨up, hup, hupValue⟩
  rcases exists_correctionStep hhigh hsmall.2 with ⟨down, hdown, hdownValue⟩
  have hrise : h.correction.toNat ≤ up.toNat := by
    rw [hupValue, heasier, Nat.le_div_iff_mul_le (by decide)]
    exact Nat.mul_le_mul_left _ (by decide)
  have hfall : down.toNat ≤ h.correction.toNat := by
    rw [hdownValue, hharder]
    exact Nat.div_le_of_le_mul (Nat.mul_comm .. ▸ Nat.mul_le_mul_right _ (by decide))
  clear hupValue hdownValue
  rw [appendHistoryValues_eq, hup, hdown, ok_bind, ok_bind]
  by_cases hfew : 64 * countOnes (recorded h success).2 < 40 * (recorded h success).1.toNat
  · rw [if_pos hfew]
    refine ⟨_, rfl, rfl, ?_, fun _ => hfew, ?_⟩
    · simp only [CorrectionInRange, UInt64.le_iff_toNat_le, UInt64.toNat_min, hmin, hmax]
      omega
    · simp only [UInt64.lt_iff_toNat_lt, UInt64.toNat_min, hmax]
      omega
  rw [if_neg hfew]
  by_cases hmany : 41 * (recorded h success).1.toNat < 64 * countOnes (recorded h success).2
  · rw [if_pos hmany]
    refine ⟨_, rfl, rfl, ?_, ?_, fun _ => hmany⟩
    · simp only [CorrectionInRange, UInt64.le_iff_toNat_le, UInt64.toNat_max, hmin, hmax]
      omega
    · simp only [UInt64.lt_iff_toNat_lt, UInt64.toNat_max, hmin]
      omega
  · rw [if_neg hmany]
    refine ⟨_, rfl, rfl, ⟨?_, ?_⟩, fun hrises => absurd hrises (UInt64.lt_irrefl _),
      fun hfalls => absurd hfalls (UInt64.lt_irrefl _)⟩
    · rw [UInt64.le_iff_toNat_le, hmin]
      exact hlow
    · rw [UInt64.le_iff_toNat_le, hmax]
      exact hhigh

/-! ## Base fee -/

/-- The limits of the base fee. -/
def BaseFeeInRange (rate : UInt64) : Prop := baseFeeMinQ32 ≤ rate ∧ rate ≤ baseFeeMaxQ32

variable {rate : UInt64}

/-- The change of a base fee in its limits, for a block within the weight limit. -/
theorem tryFrom_delta (difference : UInt64) (hrate : rate.toNat ≤ 2 ^ 52)
    (hdifference : difference.toNat ≤ 2 ^ 16) :
    ∃ delta : UInt64, UInt64.tryFrom
        (rate.toNat * difference.toNat / (64 * blockWeightTarget.toNat)) = some delta ∧
      delta.toNat = rate.toNat * difference.toNat / 2 ^ 22 ∧ delta.toNat ≤ rate.toNat := by
  have hdenominator : 64 * blockWeightTarget.toNat = 2 ^ 22 := rfl
  have hle : rate.toNat * difference.toNat / 2 ^ 22 ≤ rate.toNat := by
    apply Nat.div_le_of_le_mul
    rw [Nat.mul_comm]
    exact Nat.mul_le_mul_right _ (le_trans hdifference (by decide))
  have hvalue : (UInt64.ofNat (rate.toNat * difference.toNat / 2 ^ 22)).toNat =
      rate.toNat * difference.toNat / 2 ^ 22 := UInt64.toNat_ofNat_of_lt' (by
    simp only [UInt64.size]
    omega)
  refine ⟨_, ?_, hvalue, by omega⟩
  rw [hdenominator, UInt64.tryFrom_eq_some, hvalue]

variable {weight : UInt64}

theorem adjustedBaseFeeRate_heavier (hrate : BaseFeeInRange rate)
    (hweight : weight ≤ blockWeightMax) (hheavy : blockWeightTarget < weight) :
    ∃ rate', adjustedBaseFeeRate rate weight = .ok rate' ∧
      rate'.toNat = min (rate.toNat + rate.toNat * (weight.toNat - 2 ^ 16) / 2 ^ 22) (2 ^ 52) := by
  have htarget : blockWeightTarget.toNat = 2 ^ 16 := rfl
  have hlimit : blockWeightMax.toNat = 2 ^ 17 := rfl
  have hmax : baseFeeMaxQ32.toNat = 2 ^ 52 := rfl
  have hhigh : rate.toNat ≤ 2 ^ 52 := hmax ▸ UInt64.le_iff_toNat_le.mp hrate.2
  rw [UInt64.le_iff_toNat_le, hlimit] at hweight
  have hheavy' := UInt64.lt_iff_toNat_lt.mp hheavy
  rw [htarget] at hheavy'
  have hdifference : (weight - blockWeightTarget).toNat = weight.toNat - 2 ^ 16 := by
    rw [UInt64.toNat_sub_of_le _ _ (UInt64.le_iff_toNat_le.mpr (by omega)), htarget]
  rcases tryFrom_delta (weight - blockWeightTarget) hhigh (by omega) with
    ⟨delta, hdelta, hvalue, hle⟩
  have hne : weight ≠ blockWeightTarget := fun h => absurd (h ▸ hheavy) (UInt64.lt_irrefl _)
  refine ⟨min (rate.saturatingAdd delta) baseFeeMaxQ32, ?_, ?_⟩
  · simp only [adjustedBaseFeeRate, if_neg hne, decide_eq_true hheavy, if_true, hdelta, okOr,
      ok_bind]
  · rw [UInt64.toNat_min, UInt64.toNat_saturatingAdd, hmax, ← hdifference, ← hvalue]
    clear hvalue hdelta hdifference
    omega

theorem adjustedBaseFeeRate_lighter (hrate : BaseFeeInRange rate)
    (hlight : weight < blockWeightTarget) :
    ∃ rate', adjustedBaseFeeRate rate weight = .ok rate' ∧
      rate'.toNat = max (rate.toNat - rate.toNat * (2 ^ 16 - weight.toNat) / 2 ^ 22) (2 ^ 32) := by
  have htarget : blockWeightTarget.toNat = 2 ^ 16 := rfl
  have hmin : baseFeeMinQ32.toNat = 2 ^ 32 := rfl
  have hmax : baseFeeMaxQ32.toNat = 2 ^ 52 := rfl
  have hhigh : rate.toNat ≤ 2 ^ 52 := hmax ▸ UInt64.le_iff_toNat_le.mp hrate.2
  have hlight' := UInt64.lt_iff_toNat_lt.mp hlight
  rw [htarget] at hlight'
  have hdifference : (blockWeightTarget - weight).toNat = 2 ^ 16 - weight.toNat := by
    rw [UInt64.toNat_sub_of_le _ _ (UInt64.le_iff_toNat_le.mpr (by omega)), htarget]
  rcases tryFrom_delta (blockWeightTarget - weight) hhigh (by omega) with
    ⟨delta, hdelta, hvalue, hle⟩
  have hne : weight ≠ blockWeightTarget := fun h => absurd (h ▸ hlight) (UInt64.lt_irrefl _)
  have hnot : ¬blockWeightTarget < weight := fun h => absurd (UInt64.lt_trans h hlight) (UInt64.lt_irrefl _)
  refine ⟨max (rate.saturatingSub delta) baseFeeMinQ32, ?_, ?_⟩
  · simp only [adjustedBaseFeeRate, if_neg hne, decide_eq_false hnot, Bool.false_eq_true, if_false,
      hdelta, okOr, ok_bind]
  · have hsub : (rate.saturatingSub delta).toNat = rate.toNat - delta.toNat := by
      rw [UInt64.saturatingSub, if_pos (UInt64.le_iff_toNat_le.mpr hle),
        UInt64.toNat_sub_of_le _ _ (UInt64.le_iff_toNat_le.mpr hle)]
    rw [UInt64.toNat_max, hsub, hmin, ← hdifference, ← hvalue]

/-- Inside its limits the base fee never fails to be adjusted: it stays inside, does not fall
on a block above the target and does not rise on one below. -/
theorem adjustedBaseFeeRate_steers (hrate : BaseFeeInRange rate) (hweight : weight ≤ blockWeightMax)
    :
    ∃ rate', adjustedBaseFeeRate rate weight = .ok rate' ∧ BaseFeeInRange rate' ∧
      (blockWeightTarget < weight → rate ≤ rate') ∧
      (weight < blockWeightTarget → rate' ≤ rate) := by
  have hmin : baseFeeMinQ32.toNat = 2 ^ 32 := rfl
  have hmax : baseFeeMaxQ32.toNat = 2 ^ 52 := rfl
  have hlow : 2 ^ 32 ≤ rate.toNat := hmin ▸ UInt64.le_iff_toNat_le.mp hrate.1
  have hhigh : rate.toNat ≤ 2 ^ 52 := hmax ▸ UInt64.le_iff_toNat_le.mp hrate.2
  have hexclusive : blockWeightTarget < weight → ¬weight < blockWeightTarget := fun h h' =>
    absurd (UInt64.lt_trans h h') (UInt64.lt_irrefl _)
  by_cases hheavy : blockWeightTarget < weight
  · rcases adjustedBaseFeeRate_heavier hrate hweight hheavy with ⟨rate', hrate', hvalue⟩
    generalize rate.toNat * (weight.toNat - 2 ^ 16) / 2 ^ 22 = delta at hvalue
    refine ⟨rate', hrate', ⟨?_, ?_⟩, fun _ => ?_, fun hlight => absurd hlight (hexclusive hheavy)⟩
    all_goals
      rw [UInt64.le_iff_toNat_le]
      omega
  by_cases hlight : weight < blockWeightTarget
  · rcases adjustedBaseFeeRate_lighter hrate hlight with ⟨rate', hrate', hvalue⟩
    generalize rate.toNat * (2 ^ 16 - weight.toNat) / 2 ^ 22 = delta at hvalue
    refine ⟨rate', hrate', ⟨?_, ?_⟩, fun h => absurd h hheavy, fun _ => ?_⟩
    all_goals
      rw [UInt64.le_iff_toNat_le]
      omega
  · have heq : weight = blockWeightTarget := by
      rw [UInt64.lt_iff_toNat_lt] at hheavy hlight
      rw [← UInt64.toNat_inj]
      omega
    refine ⟨rate, ?_, hrate, fun h => absurd h hheavy, fun h => absurd h hlight⟩
    rw [adjustedBaseFeeRate, if_pos heq]

/-- A block of maximal weight raises the base fee by a 64th. -/
theorem adjustedBaseFeeRate_max (hrate : BaseFeeInRange rate) :
    ∃ rate', adjustedBaseFeeRate rate blockWeightMax = .ok rate' ∧ BaseFeeInRange rate' ∧
      rate'.toNat = min (rate.toNat + rate.toNat / 64) (2 ^ 52) := by
  have hself : blockWeightMax ≤ blockWeightMax := UInt64.le_refl _
  rcases adjustedBaseFeeRate_heavier hrate hself (by decide) with ⟨rate', hrate', hvalue⟩
  rcases adjustedBaseFeeRate_steers hrate hself with ⟨rate'', hrate'', hin, -, -⟩
  cases hrate'.symm.trans hrate''
  refine ⟨rate', hrate', hin, ?_⟩
  have hdifference : blockWeightMax.toNat - 2 ^ 16 = 2 ^ 16 := rfl
  have hdelta : rate.toNat * 2 ^ 16 / 2 ^ 22 = rate.toNat / 64 := by
    rw [show 2 ^ 22 = 64 * 2 ^ 16 from rfl, Nat.mul_div_mul_right _ _ (by decide)]
  rw [hvalue, hdifference, hdelta]

/-- Under blocks of maximal weight every turn adds at least {lit}`2 ^ 26`, until the limit. -/
theorem foldlM_max_weight (hrate : BaseFeeInRange rate) (n : Nat) :
    ∃ rate', (List.replicate n blockWeightMax).foldlM adjustedBaseFeeRate rate = .ok rate' ∧
      BaseFeeInRange rate' ∧ min (rate.toNat + n * 2 ^ 26) (2 ^ 52) ≤ rate'.toNat := by
  have hmin : baseFeeMinQ32.toNat = 2 ^ 32 := rfl
  have hmax : baseFeeMaxQ32.toNat = 2 ^ 52 := rfl
  induction n generalizing rate with
  | zero => exact ⟨rate, rfl, hrate, by omega⟩
  | succ n ih =>
    have hlow : 2 ^ 32 ≤ rate.toNat := hmin ▸ UInt64.le_iff_toNat_le.mp hrate.1
    rcases adjustedBaseFeeRate_max hrate with ⟨next, hnext, hin, hvalue⟩
    rcases ih hin with ⟨rate', hrun, hin', hprogress⟩
    refine ⟨rate', ?_, hin', ?_⟩
    · rw [List.replicate_succ, List.foldlM_cons, hnext]
      exact hrun
    · omega

/-! ## Whole runs -/

/-- The history after a run of outcomes. -/
theorem foldlM_appendHistoryValues {start : UInt64} (hstart : CorrectionInRange start)
    (outcomes : List Bool) :
    ∃ h, outcomes.foldlM appendHistoryValues ⟨0, 0, start⟩ = .ok h ∧
      Tracks outcomes h.count h.bitmap ∧ CorrectionInRange h.correction := by
  induction outcomes using List.reverseRecOn with
  | nil => exact ⟨⟨0, 0, start⟩, rfl, .empty, hstart⟩
  | append_singleton outcomes success ih =>
    rcases ih with ⟨h, hrun, htracks, hrange⟩
    rcases appendHistoryValues_steers hrange success with ⟨h', hstep, hrecorded, hrange', -, -⟩
    refine ⟨h', ?_, ?_, hrange'⟩
    · rw [List.foldlM_append, hrun]
      simpa using hstep
    · have hnext := htracks.recorded success
      rwa [← hrecorded] at hnext

/-- The base fee after a run of blocks. -/
theorem foldlM_adjustedBaseFeeRate (hrate : BaseFeeInRange rate) {weights : List UInt64}
    (hweights : ∀ w ∈ weights, w ≤ blockWeightMax) :
    ∃ rate', weights.foldlM adjustedBaseFeeRate rate = .ok rate' ∧ BaseFeeInRange rate' := by
  induction weights generalizing rate with
  | nil => exact ⟨rate, rfl, hrate⟩
  | cons w weights ih =>
    rw [List.forall_mem_cons] at hweights
    rcases adjustedBaseFeeRate_steers hrate hweights.1 with ⟨next, hnext, hin, -, -⟩
    rcases ih hin hweights.2 with ⟨rate', hrun, hin'⟩
    refine ⟨rate', ?_, hin'⟩
    rw [List.foldlM_cons, hnext]
    exact hrun

/-- Over every run of outcomes the history is the last 64 of them and the correction stays in
its limits, rising only on too few and falling only on too many successes; over every run of
blocks the base fee stays in its limits, moves with the weight, and reaches the upper limit
under blocks of maximal weight. -/
theorem controllers_track_history :
    (∀ start, CorrectionInRange start → ∀ outcomes : List Bool,
      ∃ h, outcomes.foldlM appendHistoryValues ⟨0, 0, start⟩ = .ok h ∧
        h.count.toNat = min outcomes.length 64 ∧
        (∀ i < h.count.toNat, h.bitmap.toNat.testBit i =
          (outcomes[outcomes.length - h.count.toNat + i]?).getD false) ∧
        (∀ i, h.count.toNat ≤ i → h.bitmap.toNat.testBit i = false) ∧
        CorrectionInRange h.correction ∧
        ∀ success, ∃ h', appendHistoryValues h success = .ok h' ∧
          (h.correction < h'.correction →
            (lastOutcomes (outcomes ++ [success])).count true * 64 < 40 * h'.count.toNat) ∧
          (h'.correction < h.correction →
            41 * h'.count.toNat < (lastOutcomes (outcomes ++ [success])).count true * 64)) ∧
    ∀ weights : List UInt64, (∀ w ∈ weights, w ≤ blockWeightMax) →
      ∃ rate, weights.foldlM adjustedBaseFeeRate baseFeeMinQ32 = .ok rate ∧ BaseFeeInRange rate ∧
        (∀ w ≤ blockWeightMax, ∃ rate', adjustedBaseFeeRate rate w = .ok rate' ∧
          (blockWeightTarget < w → rate ≤ rate') ∧ (w < blockWeightTarget → rate' ≤ rate)) ∧
        ∃ n, (List.replicate n blockWeightMax).foldlM adjustedBaseFeeRate rate =
          .ok baseFeeMaxQ32 := by
  constructor
  · intro start hstart outcomes
    rcases foldlM_appendHistoryValues hstart outcomes with ⟨h, hrun, htracks, hrange⟩
    have hcount := htracks.count
    refine ⟨h, hrun, hcount, ?_, ?_, hrange, ?_⟩
    · intro i hi
      have hplace : outcomes.length - h.count.toNat = outcomes.length - 64 := by omega
      rw [htracks.bits, hplace]
    · intro i hi
      rw [htracks.bits, List.getElem?_eq_none (by omega)]
      rfl
    · intro success
      rcases appendHistoryValues_steers hrange success with ⟨h', hstep, hrecorded, -, hup, hdown⟩
      have hnext := htracks.recorded success
      rw [← hrecorded] at hnext
      rw [hnext.countOnes] at hup hdown
      refine ⟨h', hstep, fun hrises => ?_, fun hfalls => ?_⟩
      · have := hup hrises
        omega
      · have := hdown hfalls
        omega
  · intro weights hweights
    have hfirst : BaseFeeInRange baseFeeMinQ32 := ⟨UInt64.le_refl _, by decide⟩
    rcases foldlM_adjustedBaseFeeRate hfirst hweights with ⟨rate, hrun, hrate⟩
    refine ⟨rate, hrun, hrate, ?_, 2 ^ 26, ?_⟩
    · intro w hw
      rcases adjustedBaseFeeRate_steers hrate hw with ⟨rate', hrate', -, hheavier, hlighter⟩
      exact ⟨rate', hrate', hheavier, hlighter⟩
    · rcases foldlM_max_weight hrate (2 ^ 26) with ⟨rate', hrun', hin, hreached⟩
      have hhigh := UInt64.le_iff_toNat_le.mp hin.2
      have hmax : baseFeeMaxQ32.toNat = 2 ^ 52 := rfl
      have hlast : rate' = baseFeeMaxQ32 := by
        rw [← UInt64.toNat_inj]
        omega
      rw [hrun', hlast]

/-- The start of a chain, and a heavy block followed by an empty one. -/
theorem controllers_track_history_start :
    (CorrectionInRange 4294967296 ∧
      ∃ h, [true, false].foldlM appendHistoryValues ⟨0, 0, 4294967296⟩ = .ok h ∧
        h.count.toNat = 2) ∧
    ∃ rate, [131072, 0].foldlM adjustedBaseFeeRate baseFeeMinQ32 = .ok rate ∧
      BaseFeeInRange rate := by
  have hstart : CorrectionInRange 4294967296 := ⟨by decide, by decide⟩
  have hall := controllers_track_history
  rcases hall.1 _ hstart [true, false] with ⟨h, hrun, hcount, -⟩
  have hweights : ∀ w ∈ [131072, 0], w ≤ blockWeightMax := by
    intro w hw
    rcases List.mem_pair.mp hw with rfl | rfl
    · decide
    · decide
  rcases hall.2 [131072, 0] hweights with ⟨rate, hrate, hin, -⟩
  exact ⟨⟨hstart, h, hrun, hcount⟩, rate, hrate, hin⟩

end Mutiny
