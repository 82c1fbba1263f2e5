import Mutiny.Bitcoin

/-!
# Compact targets and retargeting

A compact target is a mantissa of 23 bits and a size in bytes.  Here a target's compact form
is described by its bit length alone: the size is the least for which the sign bit stays
clear, and the denoted target is the given one with its low bytes cleared.

Main result:

- Theorem {lit}`compact_targets_exact`: the compact form is exact up to its rounding.
-/

namespace Mutiny

open Result

/-! ## The compact form of a number -/

/-- The size of the compact form: the bytes of the number and one more bit. -/
def compactSize (target : Nat) : Nat := (Nat.log2 target + 1) / 8 + 1

/-- The leading three bytes of a target. -/
def compactMantissa (target : Nat) : Nat :=
  if compactSize target ≤ 3 then target * 2 ^ (8 * (3 - compactSize target))
  else target / 2 ^ (8 * (compactSize target - 3))

/-- The number the compact form denotes: all but the leading bytes cleared. -/
def compactRound (target : Nat) : Nat :=
  target / 2 ^ (8 * (compactSize target - 3)) * 2 ^ (8 * (compactSize target - 3))

variable {target : Nat}

theorem two_pow_le_of_ne_zero (h : target ≠ 0) : 2 ^ (8 * compactSize target - 9) ≤ target := by
  refine le_trans (Nat.pow_le_pow_right (by decide) ?_) (Nat.log2_self_le h)
  simp only [compactSize]
  omega

theorem lt_two_pow_compactSize (target : Nat) : target < 2 ^ (8 * compactSize target - 1) := by
  refine lt_of_lt_of_le Nat.lt_log2_self (Nat.pow_le_pow_right (by decide) ?_)
  simp only [compactSize]
  omega

/-- The mantissa has between 16 and 23 bits. -/
theorem compactMantissa_bounds (h : target ≠ 0) :
    2 ^ 15 ≤ compactMantissa target ∧ compactMantissa target < 2 ^ 23 := by
  have hlow := Nat.log2_self_le h
  have hhigh : target < 2 ^ (Nat.log2 target + 1) := Nat.lt_log2_self
  unfold compactMantissa
  by_cases hsmall : compactSize target ≤ 3
  · rw [if_pos hsmall]
    simp only [compactSize] at hsmall ⊢
    constructor
    · calc 2 ^ 15
          ≤ 2 ^ (Nat.log2 target + 8 * (3 - ((Nat.log2 target + 1) / 8 + 1))) :=
            Nat.pow_le_pow_right (by decide) (by omega)
        _ = 2 ^ Nat.log2 target * 2 ^ (8 * (3 - ((Nat.log2 target + 1) / 8 + 1))) := pow_add ..
        _ ≤ _ := Nat.mul_le_mul_right _ hlow
    · calc target * 2 ^ (8 * (3 - ((Nat.log2 target + 1) / 8 + 1)))
          < 2 ^ (Nat.log2 target + 1) * 2 ^ (8 * (3 - ((Nat.log2 target + 1) / 8 + 1))) :=
            Nat.mul_lt_mul_of_pos_right hhigh (Nat.two_pow_pos _)
        _ = 2 ^ (Nat.log2 target + 1 + 8 * (3 - ((Nat.log2 target + 1) / 8 + 1))) :=
            (pow_add ..).symm
        _ ≤ 2 ^ 23 := Nat.pow_le_pow_right (by decide) (by omega)
  · rw [if_neg hsmall]
    simp only [compactSize] at hsmall ⊢
    constructor
    · rw [Nat.le_div_iff_mul_le (Nat.two_pow_pos _), ← pow_add]
      exact le_trans (Nat.pow_le_pow_right (by decide) (by omega)) hlow
    · rw [Nat.div_lt_iff_lt_mul (Nat.two_pow_pos _), ← pow_add]
      exact lt_of_lt_of_le hhigh (Nat.pow_le_pow_right (by decide) (by omega))

/-- The compact form as 32 bits. -/
def compactWord (target : Nat) : Nat := compactSize target * 2 ^ 24 + compactMantissa target

/-- The mantissa of a number of so many whole bytes, before the sign bit is cleared. -/
def leadingBytes (target : Nat) : Nat :=
  if byteLength target ≤ 3 then target * 2 ^ (8 * (3 - byteLength target))
  else target / 2 ^ (8 * (byteLength target - 3))

/-- The sign bit is set exactly when the bit length is a multiple of eight. -/
theorem sign_of_leadingBytes (h : target ≠ 0) :
    2 ^ 23 ≤ leadingBytes target ↔ Nat.log2 target % 8 = 7 := by
  have hlow := Nat.log2_self_le h
  have hhigh : target < 2 ^ (Nat.log2 target + 1) := Nat.lt_log2_self
  unfold leadingBytes
  by_cases hsmall : byteLength target ≤ 3
  · rw [if_pos hsmall]
    simp only [byteLength] at hsmall ⊢
    constructor
    · intro hsign
      by_contra hlast
      have hlt : target * 2 ^ (8 * (3 - (Nat.log2 target / 8 + 1))) < 2 ^ 23 :=
        calc target * 2 ^ (8 * (3 - (Nat.log2 target / 8 + 1)))
            < 2 ^ (Nat.log2 target + 1) * 2 ^ (8 * (3 - (Nat.log2 target / 8 + 1))) :=
              Nat.mul_lt_mul_of_pos_right hhigh (Nat.two_pow_pos _)
          _ = 2 ^ (Nat.log2 target + 1 + 8 * (3 - (Nat.log2 target / 8 + 1))) := (pow_add ..).symm
          _ ≤ 2 ^ 23 := Nat.pow_le_pow_right (by decide) (by omega)
      omega
    · intro hlast
      calc 2 ^ 23 ≤ 2 ^ (Nat.log2 target + 8 * (3 - (Nat.log2 target / 8 + 1))) :=
            Nat.pow_le_pow_right (by decide) (by omega)
        _ = 2 ^ Nat.log2 target * 2 ^ (8 * (3 - (Nat.log2 target / 8 + 1))) := pow_add ..
        _ ≤ _ := Nat.mul_le_mul_right _ hlow
  · rw [if_neg hsmall]
    simp only [byteLength] at hsmall ⊢
    rw [Nat.le_div_iff_mul_le (Nat.two_pow_pos _), ← pow_add]
    constructor
    · intro hsign
      by_contra hlast
      have hexponent : 23 + 8 * (Nat.log2 target / 8 + 1 - 3) < Nat.log2 target + 1 :=
        (Nat.pow_lt_pow_iff_right (by decide)).mp (lt_of_le_of_lt hsign hhigh)
      omega
    · intro hlast
      exact le_trans (Nat.pow_le_pow_right (by decide) (by omega)) hlow

/-- Clearing the sign bit moves one byte into the size. -/
theorem compactMantissa_of_sign (hlast : Nat.log2 target % 8 = 7) :
    compactSize target = byteLength target + 1 ∧
      compactMantissa target = leadingBytes target / 256 := by
  have hsize : compactSize target = byteLength target + 1 := by
    simp only [compactSize, byteLength]
    omega
  refine ⟨hsize, ?_⟩
  have h256 : (256 : Nat) = 2 ^ 8 := rfl
  unfold compactMantissa leadingBytes
  rw [hsize]
  rcases Nat.lt_trichotomy (byteLength target) 3 with hlt | heq | hgt
  · rw [if_pos (by omega), if_pos (by omega)]
    have hexponent : 8 * (3 - byteLength target) = 8 * (3 - (byteLength target + 1)) + 8 := by omega
    rw [hexponent, pow_add, ← Nat.mul_assoc, h256, Nat.mul_div_cancel _ (Nat.two_pow_pos 8)]
  · rw [heq, if_neg (by decide), if_pos (by decide)]
    simp
  · rw [if_neg (by omega), if_neg (by omega), Nat.div_div_eq_div_mul, h256, ← pow_add]
    congr 2
    omega

theorem compactMantissa_of_no_sign (hlast : Nat.log2 target % 8 ≠ 7) :
    compactSize target = byteLength target ∧ compactMantissa target = leadingBytes target := by
  have hsize : compactSize target = byteLength target := by
    simp only [compactSize, byteLength]
    omega
  refine ⟨hsize, ?_⟩
  rw [compactMantissa, leadingBytes, hsize]

/-- The leading bytes and the size once the sign bit is clear. -/
theorem clear_sign (h : target ≠ 0) :
    (if 2 ^ 23 ≤ leadingBytes target then (leadingBytes target / 256, byteLength target + 1)
      else (leadingBytes target, byteLength target)) =
        (compactMantissa target, compactSize target) := by
  by_cases hlast : Nat.log2 target % 8 = 7
  · rcases compactMantissa_of_sign hlast with ⟨hbytes, hleading⟩
    rw [if_pos ((sign_of_leadingBytes h).mpr hlast), hbytes, hleading]
  · rcases compactMantissa_of_no_sign hlast with ⟨hbytes, hleading⟩
    rw [if_neg (fun hsign => hlast ((sign_of_leadingBytes h).mp hsign)), hbytes, hleading]

theorem compactBitsFromNat_eq_reject (h : target ≠ 0) :
    compactBitsFromNat target =
      (reject (255 < compactSize target) BitcoinError.arithmeticOverflow >>= fun _ =>
        .ok (UInt32.ofNat (compactWord target))) := by
  have hunfold : compactBitsFromNat target =
      (reject (target = 0) BitcoinError.badCompactTarget >>= fun _ =>
        let form := if 2 ^ 23 ≤ leadingBytes target
          then (leadingBytes target / 256, byteLength target + 1)
          else (leadingBytes target, byteLength target)
        reject (255 < form.2) BitcoinError.arithmeticOverflow >>= fun _ =>
          .ok (UInt32.ofNat (form.2 * 2 ^ 24 + form.1 % 2 ^ 23))) := rfl
  rw [hunfold, reject_of_not h, ok_bind, clear_sign h, compactWord]
  simp only [Nat.mod_eq_of_lt (compactMantissa_bounds h).2]

/-- The compact bits of a number that is not zero. -/
theorem compactBitsFromNat_eq (h : target ≠ 0) (hsize : compactSize target ≤ 255) :
    compactBitsFromNat target = .ok (UInt32.ofNat (compactWord target)) := by
  rw [compactBitsFromNat_eq_reject h, reject_of_not (Nat.not_lt.mpr hsize)]
  rfl

/-! ## Rounding -/

theorem compactRound_le (target : Nat) : compactRound target ≤ target := Nat.div_mul_le_self _ _

/-- Rounding loses less than one part in 2^15. -/
theorem compactRound_error (h : target ≠ 0) :
    (target - compactRound target) * 2 ^ 15 < target := by
  have hrest : target - compactRound target = target % 2 ^ (8 * (compactSize target - 3)) := by
    have hsplit := Nat.div_add_mod' target (2 ^ (8 * (compactSize target - 3)))
    rw [compactRound]
    omega
  rw [hrest]
  by_cases hsmall : compactSize target ≤ 3
  · have hzero : compactSize target - 3 = 0 := by omega
    rw [hzero]
    simp only [Nat.mul_zero, pow_zero, Nat.mod_one, Nat.zero_mul]
    exact Nat.pos_of_ne_zero h
  · calc target % 2 ^ (8 * (compactSize target - 3)) * 2 ^ 15
        < 2 ^ (8 * (compactSize target - 3)) * 2 ^ 15 :=
          Nat.mul_lt_mul_of_pos_right (Nat.mod_lt _ (Nat.two_pow_pos _)) (Nat.two_pow_pos _)
      _ = 2 ^ (8 * (compactSize target - 3) + 15) := (pow_add ..).symm
      _ = 2 ^ (8 * compactSize target - 9) := by congr 1; omega
      _ ≤ target := two_pow_le_of_ne_zero h

/-- A power of two at or below a number stays below its rounding, if the cleared bytes are
below that power. -/
theorem two_pow_le_compactRound {e : Nat} (he : 8 * (compactSize target - 3) ≤ e)
    (h : 2 ^ e ≤ target) : 2 ^ e ≤ compactRound target := by
  have hsplit : 2 ^ e = 2 ^ (e - 8 * (compactSize target - 3)) *
      2 ^ (8 * (compactSize target - 3)) := by
    rw [← pow_add]
    congr 1
    omega
  rw [compactRound, hsplit]
  refine Nat.mul_le_mul_right _ ?_
  rw [Nat.le_div_iff_mul_le (Nat.two_pow_pos _), ← hsplit]
  exact h

theorem log2_compactRound (h : target ≠ 0) :
    compactRound target ≠ 0 ∧ Nat.log2 (compactRound target) = Nat.log2 target := by
  have hpow : 2 ^ Nat.log2 target ≤ compactRound target := by
    refine two_pow_le_compactRound ?_ (Nat.log2_self_le h)
    simp only [compactSize]
    omega
  have hne : compactRound target ≠ 0 := by
    have := Nat.two_pow_pos (Nat.log2 target)
    omega
  refine ⟨hne, Nat.le_antisymm ?_ ((Nat.le_log2 hne).mpr hpow)⟩
  refine (Nat.le_log2 h).mpr (le_trans (Nat.log2_self_le hne) (compactRound_le target))

theorem compactSize_mono {a b : Nat} (h : a ≤ b) : compactSize a ≤ compactSize b := by
  have hlog : Nat.log2 a ≤ Nat.log2 b := by
    rcases Nat.eq_zero_or_pos a with rfl | hpos
    · simp
    · exact (Nat.le_log2 (by omega)).mpr (le_trans (Nat.log2_self_le (by omega)) h)
  simp only [compactSize]
  omega

/-- Rounding is monotone: numbers of one size are cut at the same place, and a number of a
larger size is rounded to at least the first number of that size. -/
theorem compactRound_mono {a b : Nat} (h : a ≤ b) : compactRound a ≤ compactRound b := by
  rcases Nat.eq_or_lt_of_le (compactSize_mono h) with heq | hlt
  · rw [compactRound, compactRound, heq]
    exact Nat.mul_le_mul_right _ (Nat.div_le_div_right h)
  · have hne : b ≠ 0 := by
      rintro rfl
      have : a = 0 := by omega
      subst this
      exact absurd hlt (Nat.lt_irrefl _)
    have hfirst : a < 2 ^ (8 * compactSize b - 9) :=
      lt_of_lt_of_le (lt_two_pow_compactSize a) (Nat.pow_le_pow_right (by decide) (by omega))
    have hround : 2 ^ (8 * compactSize b - 9) ≤ compactRound b :=
      two_pow_le_compactRound (by omega) (two_pow_le_of_ne_zero hne)
    exact le_trans (compactRound_le a) (le_trans hfirst.le hround)

/-! ## Decoding -/

theorem compactWord_fields (h : target ≠ 0) (hsize : compactSize target ≤ 255) :
    (UInt32.ofNat (compactWord target)).toNat / 2 ^ 24 = compactSize target ∧
      (UInt32.ofNat (compactWord target)).toNat % 2 ^ 23 = compactMantissa target ∧
      (UInt32.ofNat (compactWord target)).toNat / 2 ^ 23 % 2 = 0 := by
  have hmantissa := (compactMantissa_bounds h).2
  have hword : (UInt32.ofNat (compactWord target)).toNat = compactWord target := by
    rw [UInt32.toNat_ofNat', compactWord]
    omega
  rw [hword, compactWord]
  omega

/-- The mantissa moved back to its place is the rounded number. -/
theorem compactRound_eq_mantissa (target : Nat) :
    compactRound target =
      if compactSize target ≤ 3 then compactMantissa target / 2 ^ (8 * (3 - compactSize target))
      else compactMantissa target * 2 ^ (8 * (compactSize target - 3)) := by
  by_cases hsmall : compactSize target ≤ 3
  · have hzero : compactSize target - 3 = 0 := by omega
    rw [compactRound, compactMantissa, if_pos hsmall, if_pos hsmall, hzero,
      Nat.mul_div_cancel _ (Nat.two_pow_pos _)]
    simp
  · rw [compactRound, compactMantissa, if_neg hsmall, if_neg hsmall]

theorem compactTargetBe_compactWord (h : target ≠ 0) (hsize : compactSize target ≤ 32) :
    compactTargetBe (UInt32.ofNat (compactWord target)) =
      .ok (BitVec.ofNat 256 (compactRound target)) := by
  rcases compactWord_fields h (by omega) with ⟨hexponent, hmantissa, hsign⟩
  have hbounds := compactMantissa_bounds h
  have hpos : compactSize target ≠ 0 := by simp [compactSize]
  rw [compactTargetBe, hexponent, hmantissa, hsign, reject_of_not (by omega), ok_bind,
    compactRound_eq_mantissa]
  split <;> rfl

theorem compactSize_le (hlt : target < 2 ^ 255) : compactSize target ≤ 32 := by
  rcases Nat.eq_zero_or_pos target with rfl | hpos
  · decide
  · have hlog : Nat.log2 target < 255 := (Nat.log2_lt (by omega)).mpr hlt
    simp only [compactSize]
    omega

theorem compactWord_compactRound (h : target ≠ 0) :
    compactWord (compactRound target) = compactWord target := by
  have hsize : compactSize (compactRound target) = compactSize target := by
    rw [compactSize, (log2_compactRound h).2, compactSize]
  rw [compactWord, compactWord, compactMantissa, compactMantissa, hsize]
  by_cases hsmall : compactSize target ≤ 3
  · have hzero : compactSize target - 3 = 0 := by omega
    have hexact : compactRound target = target := by
      rw [compactRound, hzero]
      simp
    rw [if_pos hsmall, if_pos hsmall, hexact]
  · rw [if_neg hsmall, if_neg hsmall, compactRound, Nat.mul_div_cancel _ (Nat.two_pow_pos _)]

/-- The compact bits of a number below 2^255 are canonical and denote its rounding. -/
theorem canonicalCompactTargetBe_compactBits (h : target ≠ 0) (hlt : target < 2 ^ 255) :
    canonicalCompactTargetBe (UInt32.ofNat (compactWord target)) =
      .ok (BitVec.ofNat 256 (compactRound target)) := by
  have hsize := compactSize_le hlt
  have hround : (BitVec.ofNat 256 (compactRound target)).toNat = compactRound target := by
    rw [BitVec.toNat_ofNat]
    exact Nat.mod_eq_of_lt (lt_of_le_of_lt (compactRound_le target)
      (lt_trans hlt (Nat.pow_lt_pow_right (by decide) (by decide))))
  have hsame : compactBitsFromTargetBe (BitVec.ofNat 256 (compactRound target)) =
      .ok (UInt32.ofNat (compactWord target)) := by
    have hsize' : compactSize (compactRound target) ≤ 255 :=
      le_trans (compactSize_mono (compactRound_le target)) (by omega)
    rw [compactBitsFromTargetBe, hround, compactBitsFromNat_eq (log2_compactRound h).1 hsize',
      compactWord_compactRound h]
  rw [canonicalCompactTargetBe, compactTargetBe_compactWord h hsize, ok_bind, hsame, ok_bind,
    reject_of_not (by simp)]
  rfl

variable {bits : UInt32} {t : Bytes32}

/-- Canonical bits and what they denote. -/
theorem canonicalCompactTargetBe_eq_ok :
    canonicalCompactTargetBe bits = .ok t ↔
      compactTargetBe bits = .ok t ∧ compactBitsFromTargetBe t = .ok bits := by
  simp only [canonicalCompactTargetBe, ok_rules, not_not]
  constructor
  · rintro ⟨t', htarget, canonical, hbits, _, rfl, rfl⟩
    exact ⟨htarget, hbits⟩
  · rintro ⟨htarget, hbits⟩
    exact ⟨t, htarget, bits, hbits, (), rfl, rfl⟩

/-- A target that canonical bits denote is not zero. -/
theorem ne_zero_of_canonical (h : canonicalCompactTargetBe bits = .ok t) : t.toNat ≠ 0 := by
  have hbits := (canonicalCompactTargetBe_eq_ok.mp h).2
  simp only [compactBitsFromTargetBe, compactBitsFromNat, ok_rules] at hbits
  rcases hbits with ⟨_, hne, -⟩
  exact hne

/-! ## Retargeting and work -/

/-- The largest target of Bitcoin's main network. -/
def powLimit : Nat := 0xffff * 2 ^ 208

theorem compactTargetBe_powLimit :
    compactTargetBe bitcoinMainnetPowLimitBits = .ok (BitVec.ofNat 256 powLimit) := by
  decide +kernel

theorem toNat_powLimit : (BitVec.ofNat 256 powLimit).toNat = powLimit := by decide +kernel

/-- The time between two retargets that counts, from the signed time that has passed. -/
def clampedElapsed (first last : UInt32) : Nat :=
  (min (4 * bitcoinMainnetTargetTimespanSeconds : Int)
    (max (bitcoinMainnetTargetTimespanSeconds / 4 : Int) (last.toNat - first.toNat))).toNat

/-- The exact quotient a retarget rounds. -/
def retargetValue (old elapsed : Nat) : Nat :=
  min powLimit (old * elapsed / bitcoinMainnetTargetTimespanSeconds)

theorem retargetValue_mono {old e e' : Nat} (h : e ≤ e') : retargetValue old e ≤ retargetValue old e' :=
  min_le_min_left _ (Nat.div_le_div_right (Nat.mul_le_mul_left _ h))

variable {first last : UInt32}

theorem clampedElapsed_mono {first' last' : UInt32}
    (h : (last.toNat - first.toNat : Int) ≤ last'.toNat - first'.toNat) :
    clampedElapsed first last ≤ clampedElapsed first' last' := by
  simp only [clampedElapsed, bitcoinMainnetTargetTimespanSeconds]
  omega

theorem validateMainnetTargetBits_eq_ok :
    validateMainnetTargetBits bits = .ok t ↔
      canonicalCompactTargetBe bits = .ok t ∧ t.toNat ≤ powLimit := by
  simp only [validateMainnetTargetBits, compactTargetBe_powLimit, ok_rules, exists_eq_left',
    BitVec.not_lt, BitVec.le_def, toNat_powLimit]
  constructor
  · rintro ⟨t', hcanonical, _, hle, rfl⟩
    exact ⟨hcanonical, hle⟩
  · rintro ⟨hcanonical, hle⟩
    exact ⟨t, hcanonical, (), hle, rfl⟩

theorem bitcoinMainnetRetargetBits_eq {oldBits : UInt32} {old : Bytes32}
    (h : validateMainnetTargetBits oldBits = .ok old) :
    bitcoinMainnetRetargetBits oldBits first last =
      compactBitsFromNat (retargetValue old.toNat (clampedElapsed first last)) := by
  have helapsed : min (bitcoinMainnetTargetTimespanSeconds * 4)
      (max (bitcoinMainnetTargetTimespanSeconds / 4) (last.toNat - first.toNat)) =
        clampedElapsed first last := by
    simp only [clampedElapsed, bitcoinMainnetTargetTimespanSeconds]
    omega
  simp only [bitcoinMainnetRetargetBits, h, ok_bind, compactTargetBe_powLimit, toNat_powLimit,
    helapsed, retargetValue]
  rw [Nat.min_comm]

/-- What a retarget returns is valid and denotes the rounding of the exact quotient. -/
theorem validate_retarget {oldBits : UInt32} {old : Bytes32}
    (hold : validateMainnetTargetBits oldBits = .ok old)
    (h : bitcoinMainnetRetargetBits oldBits first last = .ok bits) :
    ∃ t, validateMainnetTargetBits bits = .ok t ∧
      t.toNat = compactRound (retargetValue old.toNat (clampedElapsed first last)) := by
  rw [bitcoinMainnetRetargetBits_eq hold] at h
  generalize hvalue : retargetValue old.toNat (clampedElapsed first last) = value at h ⊢
  have hle : value ≤ powLimit := hvalue ▸ min_le_left _ _
  have hlt : value < 2 ^ 255 := lt_of_le_of_lt hle (by decide +kernel)
  have hne : value ≠ 0 := by
    rintro rfl
    simp [compactBitsFromNat, reject_of] at h
  rw [compactBitsFromNat_eq hne (le_trans (compactSize_le hlt) (by decide)), Except.ok.injEq] at h
  have hround : (BitVec.ofNat 256 (compactRound value)).toNat = compactRound value := by
    rw [BitVec.toNat_ofNat]
    exact Nat.mod_eq_of_lt (lt_of_le_of_lt (compactRound_le value)
      (lt_trans hlt (Nat.pow_lt_pow_right (by decide) (by decide))))
  refine ⟨BitVec.ofNat 256 (compactRound value), ?_, hround⟩
  rw [validateMainnetTargetBits_eq_ok, ← h, hround]
  exact ⟨canonicalCompactTargetBe_compactBits hne hlt, le_trans (compactRound_le value) hle⟩

theorem bitcoinHeaderWorkBe_eq (h : canonicalCompactTargetBe bits = .ok t) :
    ∃ work, bitcoinHeaderWorkBe bits = .ok work ∧ work.toNat = 2 ^ 256 / (t.toNat + 1) := by
  have hne := ne_zero_of_canonical h
  have hlt : 2 ^ 256 / (t.toNat + 1) < 2 ^ 256 :=
    Nat.div_lt_self (Nat.two_pow_pos _) (by omega)
  refine ⟨BitVec.ofNat 256 (2 ^ 256 / (t.toNat + 1)), ?_, ?_⟩
  · rw [bitcoinHeaderWorkBe, h, ok_bind, natToBe32, reject_of_not (Nat.not_le.mpr hlt)]
    rfl
  · rw [BitVec.toNat_ofNat, Nat.mod_eq_of_lt hlt]

/-- The compact form loses only low bytes.  Bits and targets correspond on canonical bits; the
rounding of a target of at most 31 bytes is at most the target and off by less than one part in
2^15; a retarget gives valid bits of the rounded, clamped quotient, monotone in the elapsed time;
the work of a header is the exact quotient, antitone in the target. -/
theorem compact_targets_exact :
    (∀ bits t, canonicalCompactTargetBe bits = .ok t → compactBitsFromTargetBe t = .ok bits) ∧
    (∀ t, (∃ bits, canonicalCompactTargetBe bits = .ok t) →
      ∃ bits, compactBitsFromTargetBe t = .ok bits ∧ canonicalCompactTargetBe bits = .ok t) ∧
    (∀ t : Bytes32, t.toNat ≠ 0 → t.toNat < 2 ^ 248 →
      ∃ bits rounded, compactBitsFromTargetBe t = .ok bits ∧
        canonicalCompactTargetBe bits = .ok rounded ∧ rounded.toNat = compactRound t.toNat ∧
        rounded.toNat ≤ t.toNat ∧ (t.toNat - rounded.toNat) * 2 ^ 15 < t.toNat) ∧
    (∀ oldBits old first last bits, validateMainnetTargetBits oldBits = .ok old →
      bitcoinMainnetRetargetBits oldBits first last = .ok bits →
      ∃ t, validateMainnetTargetBits bits = .ok t ∧
        t.toNat = compactRound (retargetValue old.toNat (clampedElapsed first last)) ∧
        ∀ first' last' bits', (last.toNat - first.toNat : Int) ≤ last'.toNat - first'.toNat →
          bitcoinMainnetRetargetBits oldBits first' last' = .ok bits' →
          ∃ t', validateMainnetTargetBits bits' = .ok t' ∧ t ≤ t') ∧
    ∀ bits t, canonicalCompactTargetBe bits = .ok t →
      ∃ work, bitcoinHeaderWorkBe bits = .ok work ∧ work.toNat = 2 ^ 256 / (t.toNat + 1) ∧
        ∀ bits' t', canonicalCompactTargetBe bits' = .ok t' → t ≤ t' →
          ∃ work', bitcoinHeaderWorkBe bits' = .ok work' ∧ work' ≤ work := by
  refine ⟨fun bits t h => (canonicalCompactTargetBe_eq_ok.mp h).2, ?_, ?_, ?_, ?_⟩
  · rintro t ⟨bits, h⟩
    exact ⟨bits, (canonicalCompactTargetBe_eq_ok.mp h).2, h⟩
  · intro t hne hlt
    have hlt' : t.toNat < 2 ^ 255 := lt_trans hlt (Nat.pow_lt_pow_right (by decide) (by decide))
    have hround : (BitVec.ofNat 256 (compactRound t.toNat)).toNat = compactRound t.toNat := by
      rw [BitVec.toNat_ofNat]
      exact Nat.mod_eq_of_lt (lt_of_le_of_lt (compactRound_le t.toNat) t.isLt)
    refine ⟨UInt32.ofNat (compactWord t.toNat), BitVec.ofNat 256 (compactRound t.toNat), ?_,
      canonicalCompactTargetBe_compactBits hne hlt', hround, ?_, ?_⟩
    · exact compactBitsFromNat_eq hne (le_trans (compactSize_le hlt') (by decide))
    · rw [hround]
      exact compactRound_le t.toNat
    · rw [hround]
      exact compactRound_error hne
  · intro oldBits old first last bits hold hbits
    rcases validate_retarget hold hbits with ⟨t, ht, hvalue⟩
    refine ⟨t, ht, hvalue, ?_⟩
    intro first' last' bits' hlater hbits'
    rcases validate_retarget hold hbits' with ⟨t', ht', hvalue'⟩
    refine ⟨t', ht', ?_⟩
    rw [BitVec.le_def, hvalue, hvalue']
    exact compactRound_mono (retargetValue_mono (clampedElapsed_mono hlater))
  · intro bits t h
    rcases bitcoinHeaderWorkBe_eq h with ⟨work, hwork, hvalue⟩
    refine ⟨work, hwork, hvalue, ?_⟩
    intro bits' t' h' hle
    rcases bitcoinHeaderWorkBe_eq h' with ⟨work', hwork', hvalue'⟩
    refine ⟨work', hwork', ?_⟩
    rw [BitVec.le_def, hvalue, hvalue']
    exact Nat.div_le_div_left (Nat.succ_le_succ (BitVec.le_def.mp hle)) (Nat.succ_pos _)

/-- The easiest target of the main network, a retarget after half the time, and the target
0x800001, whose sign bit grows the size. -/
theorem compact_targets_at_limit :
    (∃ t, validateMainnetTargetBits bitcoinMainnetPowLimitBits = .ok t ∧
      bitcoinMainnetRetargetBits bitcoinMainnetPowLimitBits 0 604800 = .ok 0x1c7fff80 ∧
      ∃ t', validateMainnetTargetBits 0x1c7fff80 = .ok t') ∧
    ∃ rounded, canonicalCompactTargetBe 0x04008000 = .ok rounded ∧
      rounded.toNat ≤ 0x800001 := by
  rcases compact_targets_exact with ⟨-, -, hround, hretarget, -⟩
  have hvalid : validateMainnetTargetBits bitcoinMainnetPowLimitBits =
      .ok (BitVec.ofNat 256 powLimit) := by decide +kernel
  have hbits : bitcoinMainnetRetargetBits bitcoinMainnetPowLimitBits 0 604800 = .ok 0x1c7fff80 := by
    decide +kernel
  rcases hretarget _ _ _ _ _ hvalid hbits with ⟨t', ht', -, -⟩
  rcases hround 0x800001 (by decide) (by decide +kernel) with ⟨bits, rounded, hcompact, hcanonical,
    -, hle, -⟩
  have hsame : compactBitsFromTargetBe 0x800001 = .ok 0x04008000 := by decide +kernel
  rw [hsame, Except.ok.injEq] at hcompact
  exact ⟨⟨_, hvalid, hbits, t', ht'⟩, rounded, by rw [hcompact]; exact hcanonical, hle⟩

end Mutiny
