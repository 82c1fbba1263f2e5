import Mutiny.Node.Mining

/-!
# What the passing of epochs changes

Scheduled transitions touch the registry, the offences, the dividend accounts,
the queue and the pool; an empty epoch also moves the tip and the difficulty
history.  Everything else stays.
-/

namespace Mutiny

open Result

/-- A state with the fields that scheduled transitions change taken from another. -/
def DevnetState.withScheduled (s t : DevnetState) : DevnetState :=
  { s with
    licenses := t.licenses
    offenseEvents := t.offenseEvents
    treasuryReservedDividendStrikes := t.treasuryReservedDividendStrikes
    dividendAccounts := t.dividendAccounts
    mempool := t.mempool
    pendingProtocolOperations := t.pendingProtocolOperations }

/-- A state with the fields that empty epochs change taken from another. -/
def DevnetState.withEpochs (s t : DevnetState) : DevnetState :=
  { s.withScheduled t with
    tipEpoch := t.tipEpoch
    difficultyHistoryCount := t.difficultyHistoryCount
    difficultyHistoryBitmap := t.difficultyHistoryBitmap
    difficultyCorrectionQ32 := t.difficultyCorrectionQ32 }

variable {s s' : DevnetState} {epoch : UInt64}

theorem Punishment.expireEvents_frame (h : Punishment.expireEvents s epoch = .ok s') :
    s' = { s with licenses := s'.licenses, offenseEvents := s'.offenseEvents } := by
  simp only [Punishment.expireEvents, ok_rules] at h
  rcases h with ⟨_, -, _, -, rfl⟩
  rfl

theorem Dividends.awardDividends_frame (h : Dividends.awardDividends s epoch = .ok s') :
    s' = { s with
      treasuryReservedDividendStrikes := s'.treasuryReservedDividendStrikes
      dividendAccounts := s'.dividendAccounts } := by
  simp only [Dividends.awardDividends, bind_eq_ok] at h
  rcases h with ⟨_, -, _, -, award, -, h⟩
  split at h
  · cases h
    rfl
  · simp only [ok_rules] at h
    rcases h with ⟨_, -, _, -, rfl⟩
    rfl

theorem Dividends.processEpoch_frame (h : Dividends.processEpoch s epoch = .ok s') :
    s' = { s with
      treasuryReservedDividendStrikes := s'.treasuryReservedDividendStrikes
      dividendAccounts := s'.dividendAccounts
      mempool := s'.mempool
      pendingProtocolOperations := s'.pendingProtocolOperations } := by
  simp only [Dividends.processEpoch, Dividends.expireAccounts, ok_rules] at h
  rcases h with ⟨_, ⟨_, -, _, -, rfl⟩, h⟩
  split at h
  · rw [Dividends.awardDividends_frame h]
    rfl
  · cases h
    rfl

theorem applyScheduledLicenseTransitions_frame
    (h : applyScheduledLicenseTransitions s epoch = .ok s') : s' = s.withScheduled s' := by
  simp only [applyScheduledLicenseTransitions, bind_eq_ok] at h
  rcases h with ⟨s₁, hexpire, hprocess⟩
  rw [Dividends.processEpoch_frame hprocess, Punishment.expireEvents_frame hexpire]
  rfl

/-! ## Empty epochs -/

theorem appendDifficultyResult_frame {success : Bool}
    (h : appendDifficultyResult s success = .ok s') :
    s' = s.setDifficultyHistory s'.difficultyHistory := by
  simp only [appendDifficultyResult, ok_rules] at h
  rcases h with ⟨_, -, rfl⟩
  rfl

/-- What one empty epoch can change. -/
theorem emptyEpoch_frame (h : emptyEpoch s = .ok s') :
    s' = s.withEpochs s' ∧ s'.tipEpoch = s.tipEpoch + 1 := by
  simp only [emptyEpoch, bind_eq_ok] at h
  rcases h with ⟨s₁, hscheduled, h⟩
  have hframe := applyScheduledLicenseTransitions_frame hscheduled
  split at h
  · rw [appendDifficultyResult_frame h, hframe]
    exact ⟨rfl, rfl⟩
  · cases h
    rw [hframe]
    exact ⟨rfl, rfl⟩

/-- What every epoch keeps, a number of epochs keeps. -/
theorem emptyEpochs_invariant {P : DevnetState → Prop} {n : Nat}
    (hstep : ∀ s s', P s → s'.tipEpoch.toNat = s.tipEpoch.toNat + 1 → emptyEpoch s = .ok s' → P s')
    (hs : P s) (hroom : s.tipEpoch.toNat + n < 2 ^ 64) (h : emptyEpochs n s = .ok s') :
    P s' ∧ s'.tipEpoch.toNat = s.tipEpoch.toNat + n := by
  induction n generalizing s with
  | zero =>
    cases h
    exact ⟨hs, rfl⟩
  | succ n ih =>
    simp only [emptyEpochs, bind_eq_ok] at h
    rcases h with ⟨s₁, hfirst, hrest⟩
    have htip : s₁.tipEpoch.toNat = s.tipEpoch.toNat + 1 := by
      rw [(emptyEpoch_frame hfirst).2, UInt64.toNat_add, UInt64.toNat_one,
        Nat.mod_eq_of_lt (by omega)]
    rcases ih (hstep s s₁ hs htip hfirst) (by omega) hrest with ⟨hs', htip'⟩
    exact ⟨hs', by omega⟩

theorem emptyEpochs_add (m n : Nat) (s : DevnetState) :
    emptyEpochs (m + n) s = emptyEpochs m s >>= emptyEpochs n := by
  induction m generalizing s with
  | zero =>
    rw [Nat.zero_add]
    rfl
  | succ m ih =>
    rw [Nat.succ_add, emptyEpochs, emptyEpochs]
    cases emptyEpoch s with
    | error e => rfl
    | ok s₁ => exact ih s₁

section Roots

variable [Crypto]

theorem refreshCurrentStateRoot_eq_ok {s s' : DevnetState} :
    refreshCurrentStateRoot s = .ok s' ↔
      computeStateRoot s s.rootInputs = .ok s'.currentStateRoot ∧
        s' = { s with currentStateRoot := s'.currentStateRoot } := by
  simp only [refreshCurrentStateRoot, ok_rules]
  constructor
  · rintro ⟨root, hroot, rfl⟩
    exact ⟨hroot, rfl⟩
  · rintro ⟨hroot, hframe⟩
    exact ⟨_, hroot, hframe.symm⟩

variable {s s' : DevnetState} {throughEpoch : UInt64}

/-- What every epoch keeps and does not depend on the root, a run of empty epochs keeps. -/
theorem advanceEmptyEpochs_invariant {P : DevnetState → Prop}
    (hstep : ∀ s s', P s → s'.tipEpoch.toNat = s.tipEpoch.toNat + 1 → emptyEpoch s = .ok s' → P s')
    (hroot : ∀ s root, P s → P { s with currentStateRoot := root }) (hs : P s)
    (h : advanceEmptyEpochs s throughEpoch = .ok s') :
    P s' ∧ s'.tipEpoch.toNat = max s.tipEpoch.toNat throughEpoch.toNat := by
  unfold advanceEmptyEpochs at h
  split at h
  next hle =>
    cases h
    exact ⟨hs, (max_eq_left (UInt64.le_iff_toNat_le.mp hle)).symm⟩
  next hlt =>
    rw [bind_eq_ok] at h
    rcases h with ⟨s₁, hepochs, hrefresh⟩
    have hlt := UInt64.lt_iff_toNat_lt.mp (UInt64.not_le.mp hlt)
    have hbound := throughEpoch.toNat_lt
    rcases emptyEpochs_invariant hstep hs (by omega) hepochs with ⟨hs₁, htip⟩
    rw [(refreshCurrentStateRoot_eq_ok.mp hrefresh).2]
    refine ⟨hroot s₁ _ hs₁, ?_⟩
    change s₁.tipEpoch.toNat = _
    omega

/-- What a run of empty epochs can change. -/
theorem advanceEmptyEpochs_frame (h : advanceEmptyEpochs s throughEpoch = .ok s') :
    s' = { s.withEpochs s' with currentStateRoot := s'.currentStateRoot } ∧
      s'.tipEpoch.toNat = max s.tipEpoch.toNat throughEpoch.toNat := by
  refine advanceEmptyEpochs_invariant
    (P := fun t => t = { s.withEpochs t with currentStateRoot := t.currentStateRoot }) ?_ ?_ rfl h
  · intro t t' ht _ hepoch
    rw [(emptyEpoch_frame hepoch).1, ht]
    rfl
  · intro t root ht
    rw [ht]
    rfl

end Roots

end Mutiny
