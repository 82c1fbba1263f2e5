import Mutiny.Node.EpochRuns
import Mutiny.Node.Spending

/-!
# Scheduled transitions in detail

Expiry and activation settle: doing them twice for one epoch is doing them once.
An award is different, since a second award for the same epoch is refused.
-/

namespace Mutiny

open Result Lists

/-! ## Expiry of offences -/

namespace Punishment

/-- The offences that are still active at an epoch. -/
def liveEvents (events : List OffenseEventState) (epoch : UInt64) : List OffenseEventState :=
  events.filter fun e => decide (epoch < e.expiryEpoch)

/-- A licence with the weight a table gives it. -/
def reweigh (weights : List (HexText × UInt8)) (l : LicenseState) : LicenseState :=
  if l.status = licenseStatusRevoked then l
  else { l with strikeWeight := weightOf weights l.licenseIdText }

/-- The weight of a licence agrees with its status. -/
def SoundWeight (weights : List (HexText × UInt8)) (l : LicenseState) : Prop :=
  if l.status = licenseStatusRevoked then l.strikeWeight = revocationThreshold
  else weightOf weights l.licenseIdText < revocationThreshold

theorem refreshStrikeWeight_eq_ok {weights : List (HexText × UInt8)} (l l' : LicenseState) :
    refreshStrikeWeight weights l = .ok l' ↔ SoundWeight weights l ∧ l' = reweigh weights l := by
  by_cases hrevoked : l.status = licenseStatusRevoked
  · simp only [refreshStrikeWeight, SoundWeight, reweigh, if_pos hrevoked, reject_ok_eq_ok,
      not_not]
  · simp only [refreshStrikeWeight, SoundWeight, reweigh, if_neg hrevoked, reject_ok_eq_ok,
      UInt8.not_le]

theorem expireEvents_eq_ok {s s' : DevnetState} {epoch : UInt64} :
    expireEvents s epoch = .ok s' ↔
      ∃ weights, activeWeights (liveEvents s.offenseEvents epoch) = .ok weights ∧
        (∀ l ∈ s.licenses, SoundWeight weights l) ∧
        s' = { s with
          offenseEvents := liveEvents s.offenseEvents epoch
          licenses := s.licenses.map (reweigh weights) } := by
  simp only [expireEvents, ok_rules, mapM_eq_ok refreshStrikeWeight_eq_ok]
  constructor
  · rintro ⟨weights, hweights, _, ⟨hsound, rfl⟩, rfl⟩
    exact ⟨weights, hweights, hsound, rfl⟩
  · rintro ⟨weights, hweights, hsound, rfl⟩
    exact ⟨weights, hweights, _, ⟨hsound, rfl⟩, rfl⟩

/-- Expiry at an epoch makes no difference to expiry at a later one. -/
theorem liveEvents_liveEvents {events : List OffenseEventState} {epoch epoch' : UInt64}
    (h : epoch ≤ epoch') :
    liveEvents (liveEvents events epoch) epoch' = liveEvents events epoch' := by
  rw [liveEvents, liveEvents, liveEvents, List.filter_filter]
  apply List.filter_congr
  intro e _
  rw [UInt64.le_iff_toNat_le] at h
  by_cases hlt : epoch' < e.expiryEpoch
  · have hlt' : epoch < e.expiryEpoch := by
      rw [UInt64.lt_iff_toNat_lt] at hlt ⊢
      omega
    simp [hlt, hlt']
  · simp [hlt]

end Punishment

theorem activateLicense_activateLicense (epoch : UInt64) (l : LicenseState) :
    activateLicense epoch (activateLicense epoch l) = activateLicense epoch l := by
  by_cases h : l.status = licenseStatusPending ∧ l.activationEpoch ≤ epoch
  · have hactive : licenseStatusActive ≠ licenseStatusPending := by decide
    simp [activateLicense, h, hactive]
  · simp [activateLicense, h]

namespace Punishment

/-- A licence after the expiry and the activations of an epoch. -/
def scheduledLicense (epoch : UInt64) (weights : List (HexText × UInt8)) (l : LicenseState) :
    LicenseState :=
  activateLicense epoch (reweigh weights l)

variable {weights : List (HexText × UInt8)} {epoch : UInt64} {l : LicenseState}

/-- A revoked licence stays as it is; another one gets its weight and may become active. -/
theorem scheduledLicense_cases (epoch : UInt64) (weights : List (HexText × UInt8))
    (l : LicenseState) :
    (l.status = licenseStatusRevoked ∧ scheduledLicense epoch weights l = l) ∨
      (l.status ≠ licenseStatusRevoked ∧ ∃ status,
        (status = l.status ∨ status = licenseStatusActive) ∧ status ≠ licenseStatusRevoked ∧
        scheduledLicense epoch weights l =
          { l with status := status, strikeWeight := weightOf weights l.licenseIdText }) := by
  have hpending : licenseStatusPending ≠ licenseStatusRevoked := by decide
  have hactive : licenseStatusActive ≠ licenseStatusRevoked := by decide
  by_cases hrevoked : l.status = licenseStatusRevoked
  · refine Or.inl ⟨hrevoked, ?_⟩
    rw [scheduledLicense, reweigh, if_pos hrevoked, activateLicense, if_neg]
    exact fun h => hpending (h.1.symm.trans hrevoked)
  · refine Or.inr ⟨hrevoked, ?_⟩
    rw [scheduledLicense, reweigh, if_neg hrevoked, activateLicense]
    split
    · exact ⟨_, Or.inr rfl, hactive, rfl⟩
    · exact ⟨_, Or.inl rfl, hrevoked, rfl⟩

/-- Only the status and the weight of a licence are scheduled. -/
theorem scheduledLicense_frame (epoch : UInt64) (weights : List (HexText × UInt8))
    (l : LicenseState) :
    scheduledLicense epoch weights l =
      { l with
        status := (scheduledLicense epoch weights l).status
        strikeWeight := (scheduledLicense epoch weights l).strikeWeight } := by
  rcases scheduledLicense_cases epoch weights l with ⟨-, hsame⟩ | ⟨-, status, -, -, hsame⟩
  · rw [hsame]
  · rw [hsame]

/-- Activation does not get in the way of the weights. -/
theorem scheduledLicense_scheduledLicense (l : LicenseState) :
    scheduledLicense epoch weights (scheduledLicense epoch weights l) =
      scheduledLicense epoch weights l := by
  have hweighed : reweigh weights (scheduledLicense epoch weights l) =
      scheduledLicense epoch weights l := by
    rcases scheduledLicense_cases epoch weights l with ⟨hrevoked, hsame⟩ | ⟨-, status, -, hlive, hsame⟩
    · rw [hsame, reweigh, if_pos hrevoked]
    · rw [hsame, reweigh, if_neg hlive]
  rw [scheduledLicense, hweighed]
  exact activateLicense_activateLicense epoch _

theorem SoundWeight.scheduled (h : SoundWeight weights l) :
    SoundWeight weights (scheduledLicense epoch weights l) := by
  rcases scheduledLicense_cases epoch weights l with
    ⟨-, hsame⟩ | ⟨hrevoked, status, -, hlive, hsame⟩
  · rw [hsame]
    exact h
  · rw [SoundWeight, if_neg hrevoked] at h
    rw [hsame, SoundWeight, if_neg hlive]
    exact h

end Punishment

/-! ## Dividends -/

/-- A state with other accounts and what is reserved for them. -/
def DevnetState.withDividends (s : DevnetState) (reserve : UInt64)
    (accounts : List DividendAccountState) : DevnetState :=
  { s with treasuryReservedDividendStrikes := reserve, dividendAccounts := accounts }

theorem calculateDividendAward_eq_ok {available eligible : UInt64}
    {award : DividendAwardCalculationV1}
    (h : calculateDividendAward available eligible = .ok award) :
    award.totalReservedStrikes.toNat = award.perLicenseStrikes.toNat * eligible.toNat ∧
      award.totalReservedStrikes.toNat ≤ available.toNat ∧
      (award.totalReservedStrikes ≠ 0 ↔
        eligible ≠ 0 ∧ eligible.toNat ≤ available.toNat / 2) := by
  simp only [calculateDividendAward, ok_rules, UInt64.checkedMul_eq_some, UInt64.checkedSub_eq_some,
    UInt64.toNat_div] at h
  rcases h with ⟨total, hproduct, _, hcovered, rfl⟩
  refine ⟨hproduct, ?_, ?_⟩
  · have hhalf := Nat.div_le_self available.toNat (2 : UInt64).toNat
    dsimp only
    omega
  dsimp only
  rw [ne_eq, ← UInt64.toNat_inj, hproduct]
  by_cases hnone : eligible = 0
  · simp [hnone]
  · have hpos : 0 < eligible.toNat :=
      Nat.pos_of_ne_zero fun hz => hnone (UInt64.toNat_inj.mp hz)
    have hhalf : (available / 2 / eligible).toNat = available.toNat / 2 / eligible.toNat := by
      rw [UInt64.toNat_div, UInt64.toNat_div]
      rfl
    have hshare : available.toNat / 2 / eligible.toNat = 0 ↔
        available.toNat / 2 < eligible.toNat := by
      rw [Nat.div_eq_zero_iff]
      omega
    rw [if_neg hnone, hhalf, UInt64.toNat_zero, Nat.mul_eq_zero, hshare]
    constructor
    · intro h
      exact ⟨hnone, by omega⟩
    · intro h
      omega

namespace Dividends

/-- The accounts whose claims end at an epoch or before. -/
def lapsed (accounts : List DividendAccountState) (epoch : UInt64) : List DividendAccountState :=
  accounts.filter fun a => decide (a.claimDeadlineEpoch ≤ epoch)

/-- The accounts whose claims go on. -/
def kept (accounts : List DividendAccountState) (epoch : UInt64) : List DividendAccountState :=
  accounts.filter fun a => !decide (a.claimDeadlineEpoch ≤ epoch)

/-- What accounts hold together. -/
def claimable (accounts : List DividendAccountState) : Nat :=
  (accounts.map fun a => a.claimableStrikes.toNat).sum

theorem releaseReserve_eq_ok {reserved returned reserved' : UInt64} :
    releaseReserve reserved returned = .ok reserved' ↔
      reserved'.toNat + returned.toNat = reserved.toNat := by
  unfold releaseReserve
  split
  next => rw [okOr_eq_ok, UInt64.checkedSub_eq_some]
  next hnone =>
    have hzero : returned.toNat = 0 := by
      have hle := UInt64.le_iff_toNat_le.mp (UInt64.not_lt.mp hnone)
      simpa using hle
    rw [Except.ok.injEq, ← UInt64.toNat_inj, hzero, Nat.add_zero]
    exact eq_comm

variable {s : DevnetState}

theorem expireAccounts_eq_ok {s' : DevnetState} {epoch returned : UInt64} :
    expireAccounts s epoch = .ok (returned, s') ↔
      returned.toNat = claimable (lapsed s.dividendAccounts epoch) ∧
        ∃ reserved : UInt64,
          reserved.toNat + returned.toNat = s.treasuryReservedDividendStrikes.toNat ∧
          s' = { s with
            dividendAccounts := kept s.dividendAccounts epoch
            treasuryReservedDividendStrikes := reserved } := by
  simp only [expireAccounts, ok_rules, addStrikes_foldlM_eq_ok, releaseReserve_eq_ok, Prod.mk.injEq,
    List.map_map, UInt64.toNat_zero, Nat.zero_add]
  constructor
  · rintro ⟨returned, hreturned, reserved, hreserved, rfl, rfl⟩
    exact ⟨hreturned, reserved, hreserved, rfl⟩
  · rintro ⟨hreturned, reserved, hreserved, rfl⟩
    exact ⟨returned, hreturned, reserved, hreserved, rfl, rfl⟩

/-- The licences a dividend at an epoch goes to. -/
def eligibleIds (licenses : List LicenseState) (epoch : UInt64) : List HexText :=
  (licenses.filter fun l => l.isEligible epoch).map (·.licenseIdText)

/-- The accounts an award opens. -/
def awardedAccounts (licenses : List LicenseState) (epoch deadline share : UInt64) :
    List DividendAccountState :=
  (eligibleIds licenses epoch).map fun licenseId =>
    { licenseIdText := licenseId
      awardEpoch := epoch
      claimDeadlineEpoch := deadline
      claimableStrikes := share }

/-- An award changes nothing, or opens accounts and reserves what they hold. -/
theorem awardDividends_eq_ok {s' : DevnetState} {epoch : UInt64} :
    awardDividends s epoch = .ok s' ↔
      (∀ a ∈ s.dividendAccounts, a.awardEpoch ≠ epoch) ∧
        ∃ treasury award, treasuryState s s.utxos = .ok treasury ∧
          calculateDividendAward treasury.availableStrikes
            (UInt64.ofNat (eligibleIds s.licenses epoch).length) = .ok award ∧
          ((award.totalReservedStrikes = 0 ∧ s' = s) ∨
            (award.totalReservedStrikes ≠ 0 ∧ ∃ deadline reserved : UInt64,
              deadline.toNat = epoch.toNat + dividendClaimWindow.toNat ∧
              reserved.toNat =
                s.treasuryReservedDividendStrikes.toNat + award.totalReservedStrikes.toNat ∧
              s' = s.withDividends reserved (sortByKey (fun a => a.licenseIdText.text)
                (s.dividendAccounts ++
                  awardedAccounts s.licenses epoch deadline award.perLicenseStrikes)))) := by
  have hnew : (¬ (s.dividendAccounts.any fun a => a.awardEpoch == epoch) = true) ↔
      ∀ a ∈ s.dividendAccounts, a.awardEpoch ≠ epoch := by simp
  simp only [awardDividends, ok_rules, hnew]
  constructor
  · rintro ⟨_, hfresh, treasury, htreasury, award, haward, h⟩
    refine ⟨hfresh, treasury, award, htreasury, haward, ?_⟩
    by_cases hzero : award.totalReservedStrikes = 0
    · rw [if_pos hzero, Except.ok.injEq] at h
      exact Or.inl ⟨hzero, h.symm⟩
    · rw [if_neg hzero] at h
      simp only [ok_rules, UInt64.checkedAdd_eq_some] at h
      rcases h with ⟨deadline, hdeadline, reserved, hreserved, rfl⟩
      exact Or.inr ⟨hzero, deadline, reserved, hdeadline, hreserved, rfl⟩
  · rintro ⟨hfresh, treasury, award, htreasury, haward, h⟩
    refine ⟨(), hfresh, treasury, htreasury, award, haward, ?_⟩
    rcases h with ⟨hzero, rfl⟩ | ⟨hzero, deadline, reserved, hdeadline, hreserved, rfl⟩
    · rw [if_pos hzero]
    · rw [if_neg hzero]
      simp only [ok_rules, UInt64.checkedAdd_eq_some]
      exact ⟨deadline, hdeadline, reserved, hreserved, rfl⟩

/-- The value of the outputs the treasury controls. -/
def treasuryValue (utxos : List UtxoState) : Nat := utxoSupply (utxos.filter isTreasuryControlled)

theorem treasuryTotal_eq_ok {utxos : List UtxoState} {total : UInt64} :
    treasuryTotal utxos = .ok total ↔ total.toNat = treasuryValue utxos := by
  rw [treasuryTotal, addStrikes_foldlM_eq_ok, List.map_map, UInt64.toNat_zero, Nat.zero_add]
  rfl

theorem treasuryState_eq_ok {utxos : List UtxoState} {t : TreasuryStateV1} :
    treasuryState s utxos = .ok t ↔
      t.availableStrikes.toNat + s.treasuryReservedDividendStrikes.toNat = treasuryValue utxos ∧
        treasuryValue utxos < 2 ^ 64 ∧
        t.reservedDividendStrikes = s.treasuryReservedDividendStrikes := by
  simp only [treasuryState, ok_rules, treasuryTotal_eq_ok, UInt64.checkedSub_eq_some]
  constructor
  · rintro ⟨total, htotal, available, havailable, rfl⟩
    have hbound := total.toNat_lt
    exact ⟨by rw [← htotal]; exact havailable, by omega, rfl⟩
  · rintro ⟨hsum, hfits, hreserved⟩
    have htotal : (UInt64.ofNat (treasuryValue utxos)).toNat = treasuryValue utxos := by
      rw [UInt64.toNat_ofNat', Nat.mod_eq_of_lt hfits]
    exact ⟨_, htotal, t.availableStrikes, by omega, by rw [← hreserved]⟩

theorem dropStaleClaims_dropStaleClaims (s : DevnetState) (epoch : UInt64) :
    dropStaleClaims (dropStaleClaims s epoch) epoch = dropStaleClaims s epoch := by
  have hnone : (s.pendingProtocolOperations.filter fun p =>
      !isStaleClaim s.dividendAccounts epoch p).filter (isStaleClaim s.dividendAccounts epoch) =
      [] := by
    rw [List.filter_filter, List.filter_eq_nil_iff]
    intro p _
    cases isStaleClaim s.dividendAccounts epoch p <;> simp
  have hqueue : (s.pendingProtocolOperations.filter fun p =>
      !isStaleClaim s.dividendAccounts epoch p).filter
        (fun p => !isStaleClaim s.dividendAccounts epoch p) =
      s.pendingProtocolOperations.filter fun p => !isStaleClaim s.dividendAccounts epoch p := by
    simp
  simp only [dropStaleClaims, hnone, hqueue]
  simp

theorem kept_kept (accounts : List DividendAccountState) (epoch : UInt64) :
    kept (kept accounts epoch) epoch = kept accounts epoch := by
  simp [kept]

theorem lapsed_kept (accounts : List DividendAccountState) (epoch : UInt64) :
    lapsed (kept accounts epoch) epoch = [] := by
  rw [lapsed, kept, List.filter_filter, List.filter_eq_nil_iff]
  simp

end Dividends

/-! ## The transitions of an epoch -/

open Punishment Dividends

/-- A state after the expiry and the activations of an epoch, before an award. -/
def settled (s : DevnetState) (epoch : UInt64) (weights : List (HexText × UInt8))
    (reserved : UInt64) : DevnetState :=
  dropStaleClaims
    { s with
      offenseEvents := liveEvents s.offenseEvents epoch
      licenses := s.licenses.map (scheduledLicense epoch weights)
      dividendAccounts := kept s.dividendAccounts epoch
      treasuryReservedDividendStrikes := reserved } epoch

/-- Expiry can be carried out: the weights add up, they agree with the registry, and
the reserve covers what lapses. -/
structure Settles (s : DevnetState) (epoch : UInt64) (weights : List (HexText × UInt8))
    (reserved : UInt64) : Prop where
  weighed : activeWeights (liveEvents s.offenseEvents epoch) = .ok weights
  sound : ∀ l ∈ s.licenses, SoundWeight weights l
  reserve : reserved.toNat + claimable (lapsed s.dividendAccounts epoch) =
    s.treasuryReservedDividendStrikes.toNat

variable {s s' : DevnetState} {epoch : UInt64}

/-- The transitions of an epoch are expiry and activation, and then an award if the
epoch has one. -/
theorem applyScheduledLicenseTransitions_eq_ok :
    applyScheduledLicenseTransitions s epoch = .ok s' ↔
      ∃ weights reserved, Settles s epoch weights reserved ∧
        if isAwardEpoch epoch then awardDividends (settled s epoch weights reserved) epoch = .ok s'
        else s' = settled s epoch weights reserved := by
  simp only [applyScheduledLicenseTransitions, processEpoch, bind_eq_ok, expireEvents_eq_ok]
  constructor
  · rintro ⟨_, ⟨weights, hweights, hsound, rfl⟩, ⟨returned, s₁⟩, hexpire, h⟩
    rcases expireAccounts_eq_ok.mp hexpire with ⟨hreturned, reserved, hreserved, rfl⟩
    simp only [List.map_map] at h
    refine ⟨weights, reserved, ⟨hweights, hsound, by rw [← hreturned]; exact hreserved⟩, ?_⟩
    split at h
    next haward =>
      rw [if_pos haward]
      exact h
    next haward =>
      rw [if_neg haward]
      cases h
      rfl
  · rintro ⟨weights, reserved, ⟨hweights, hsound, hreserve⟩, h⟩
    have hbound := s.treasuryReservedDividendStrikes.toNat_lt
    have hreturned : (UInt64.ofNat (claimable (lapsed s.dividendAccounts epoch))).toNat =
        claimable (lapsed s.dividendAccounts epoch) := by
      rw [UInt64.toNat_ofNat', Nat.mod_eq_of_lt (by omega)]
    refine ⟨_, ⟨weights, hweights, hsound, rfl⟩, ⟨UInt64.ofNat (claimable (lapsed s.dividendAccounts epoch)), _⟩,
      expireAccounts_eq_ok.mpr ⟨hreturned, reserved, by rw [hreturned]; exact hreserve, rfl⟩, ?_⟩
    simp only [List.map_map]
    split
    next haward =>
      rw [if_pos haward] at h
      exact h
    next haward =>
      rw [if_neg haward] at h
      rw [h]
      rfl

theorem settled_settled (s : DevnetState) (epoch : UInt64) (weights : List (HexText × UInt8))
    (reserved : UInt64) :
    settled (settled s epoch weights reserved) epoch weights reserved =
      settled s epoch weights reserved := by
  have hlicenses : (s.licenses.map (scheduledLicense epoch weights)).map
      (scheduledLicense epoch weights) = s.licenses.map (scheduledLicense epoch weights) := by
    rw [List.map_map]
    exact List.map_congr_left fun l _ => scheduledLicense_scheduledLicense l
  have hstate : { settled s epoch weights reserved with
      offenseEvents := liveEvents (settled s epoch weights reserved).offenseEvents epoch
      licenses := (settled s epoch weights reserved).licenses.map (scheduledLicense epoch weights)
      dividendAccounts := kept (settled s epoch weights reserved).dividendAccounts epoch
      treasuryReservedDividendStrikes := reserved } = settled s epoch weights reserved := by
    simp only [settled, dropStaleClaims, liveEvents_liveEvents (UInt64.le_refl epoch), kept_kept, hlicenses]
  rw [settled, hstate]
  exact dropStaleClaims_dropStaleClaims _ _

variable {weights : List (HexText × UInt8)}

theorem Settles.settled {reserved : UInt64} (h : Settles s epoch weights reserved) :
    Settles (settled s epoch weights reserved) epoch weights reserved := by
  constructor
  · change activeWeights (liveEvents (liveEvents s.offenseEvents epoch) epoch) = _
    rw [liveEvents_liveEvents (UInt64.le_refl epoch)]
    exact h.weighed
  · intro l hl
    rcases List.mem_map.mp hl with ⟨l, hmem, rfl⟩
    exact (h.sound l hmem).scheduled
  · change reserved.toNat + claimable (lapsed (kept s.dividendAccounts epoch) epoch) =
      reserved.toNat
    rw [lapsed_kept]
    rfl

/-! ## Awards -/

/-- How many licences a dividend at an epoch goes to, as the machine counts them. -/
def eligibleAt (s : DevnetState) (epoch : UInt64) : UInt64 :=
  UInt64.ofNat (s.licenses.countP fun l => (activateLicense epoch l).isEligible epoch)

/-- What the treasury has for an award at an epoch, the lapsed awards included. -/
def freeTreasury (s : DevnetState) (epoch : UInt64) : Nat :=
  treasuryValue s.utxos + claimable (lapsed s.dividendAccounts epoch) -
    s.treasuryReservedDividendStrikes.toNat

/-- An epoch at which every eligible licence gets something: it is an award epoch and
half of the free treasury has a unit for each of them. -/
def AwardsAt (s : DevnetState) (epoch : UInt64) : Prop :=
  isAwardEpoch epoch = true ∧ eligibleAt s epoch ≠ 0 ∧
    (eligibleAt s epoch).toNat ≤ freeTreasury s epoch / 2

instance (s : DevnetState) (epoch : UInt64) : Decidable (AwardsAt s epoch) := by
  unfold AwardsAt
  infer_instance

theorem isEligible_scheduledLicense (weights : List (HexText × UInt8)) (epoch : UInt64)
    (l : LicenseState) :
    (scheduledLicense epoch weights l).isEligible epoch =
      (activateLicense epoch l).isEligible epoch := by
  by_cases hrevoked : l.status = licenseStatusRevoked
  · rw [scheduledLicense, reweigh, if_pos hrevoked]
  · rw [scheduledLicense, reweigh, if_neg hrevoked]
    by_cases h : l.status = licenseStatusPending ∧ l.activationEpoch ≤ epoch
    · simp [activateLicense, h, LicenseState.isEligible]
    · simp [activateLicense, h, LicenseState.isEligible]

theorem length_eligibleIds_settled (s : DevnetState) (epoch : UInt64)
    (weights : List (HexText × UInt8)) (reserved : UInt64) :
    UInt64.ofNat (eligibleIds (settled s epoch weights reserved).licenses epoch).length =
      eligibleAt s epoch := by
  have hlicenses : (settled s epoch weights reserved).licenses =
      s.licenses.map (scheduledLicense epoch weights) := rfl
  rw [eligibleIds, List.length_map, ← List.countP_eq_length_filter, hlicenses, List.countP_map,
    eligibleAt]
  congr 2
  funext l
  exact isEligible_scheduledLicense weights epoch l

/-- At an award epoch accounts are opened exactly when there is something to award. -/
theorem awardDividends_settled {reserved : UInt64} (hsettles : Settles s epoch weights reserved)
    (hepoch : isAwardEpoch epoch = true)
    (h : awardDividends (settled s epoch weights reserved) epoch = .ok s') :
    (¬ AwardsAt s epoch ∧ s' = settled s epoch weights reserved) ∨
      (AwardsAt s epoch ∧ ∃ a ∈ s'.dividendAccounts,
        a.awardEpoch = epoch ∧ epoch < a.claimDeadlineEpoch) := by
  rcases awardDividends_eq_ok.mp h with ⟨-, treasury, award, htreasury, haward, hcases⟩
  rw [length_eligibleIds_settled] at haward
  rcases treasuryState_eq_ok.mp htreasury with ⟨hbacking, -, -⟩
  have havailable : treasury.availableStrikes.toNat = freeTreasury s epoch := by
    have hreserve := hsettles.reserve
    have hsum : treasury.availableStrikes.toNat + reserved.toNat = treasuryValue s.utxos :=
      hbacking
    rw [freeTreasury]
    omega
  rcases calculateDividendAward_eq_ok haward with ⟨-, -, hpositive⟩
  rw [havailable] at hpositive
  rcases hcases with ⟨hzero, hsame⟩ | ⟨hnonzero, deadline, _, hdeadline, -, rfl⟩
  · refine Or.inl ⟨?_, hsame⟩
    rintro ⟨-, hawards⟩
    exact hpositive.mpr hawards hzero
  · refine Or.inr ⟨⟨hepoch, hpositive.mp hnonzero⟩, ?_⟩
    -- A total above zero means that some licence gets an account.
    have hsome : eligibleIds (settled s epoch weights reserved).licenses epoch ≠ [] := by
      intro hnone
      have hcount := length_eligibleIds_settled s epoch weights reserved
      rw [hnone] at hcount
      exact (hpositive.mp hnonzero).1 hcount.symm
    rcases List.exists_mem_of_ne_nil _ hsome with ⟨licenseId, hmem⟩
    refine ⟨⟨licenseId, epoch, deadline, award.perLicenseStrikes⟩, ?_, rfl, ?_⟩
    · apply (List.perm_insertionSort _ _).mem_iff.mpr
      exact List.mem_append_right _ (List.mem_map_of_mem hmem)
    · apply UInt64.lt_iff_toNat_lt.mpr
      have hwindow : 0 < dividendClaimWindow.toNat := by decide
      change epoch.toNat < deadline.toNat
      omega

/-- The transitions of an epoch without an award can be repeated. -/
theorem applyScheduledLicenseTransitions_again
    (h : applyScheduledLicenseTransitions s epoch = .ok s') (hnone : ¬ AwardsAt s epoch) :
    applyScheduledLicenseTransitions s' epoch = .ok s' := by
  rcases applyScheduledLicenseTransitions_eq_ok.mp h with ⟨weights, reserved, hsettles, hrest⟩
  by_cases hepoch : isAwardEpoch epoch = true
  · rw [if_pos hepoch] at hrest
    rcases awardDividends_settled hsettles hepoch hrest with ⟨-, hsame⟩ | ⟨hawards, -⟩
    · rw [hsame] at hrest ⊢
      refine applyScheduledLicenseTransitions_eq_ok.mpr ⟨weights, reserved, hsettles.settled, ?_⟩
      rw [if_pos hepoch, settled_settled]
      exact hrest
    · exact absurd hawards hnone
  · rw [if_neg hepoch] at hrest
    rw [hrest]
    refine applyScheduledLicenseTransitions_eq_ok.mpr ⟨weights, reserved, hsettles.settled, ?_⟩
    rw [if_neg hepoch, settled_settled]

/-- The transitions of an epoch with an award cannot be repeated: the accounts it
opened are still there. -/
theorem applyScheduledLicenseTransitions_award
    (h : applyScheduledLicenseTransitions s epoch = .ok s') (hawards : AwardsAt s epoch)
    (t : DevnetState) : applyScheduledLicenseTransitions s' epoch ≠ .ok t := by
  rcases applyScheduledLicenseTransitions_eq_ok.mp h with ⟨weights, reserved, hsettles, hrest⟩
  rw [if_pos hawards.1] at hrest
  rcases awardDividends_settled hsettles hawards.1 hrest with ⟨hnone, -⟩ | ⟨-, a, ha, hepoch, hlater⟩
  · exact absurd hawards hnone
  intro hagain
  rcases applyScheduledLicenseTransitions_eq_ok.mp hagain with ⟨weights', reserved', -, hsecond⟩
  rw [if_pos hawards.1] at hsecond
  have hfresh := (awardDividends_eq_ok.mp hsecond).1
  refine hfresh a (List.mem_filter.mpr ⟨ha, ?_⟩) hepoch
  simpa using hlater

/-! ## Quiet epochs -/

/-- An epoch at which nothing of the consensus state is due: no activation, no expiry
of an offence or an account, no award. -/
structure QuietEpoch (s : DevnetState) (epoch : UInt64) : Prop where
  licenses : ∀ l ∈ s.licenses, l.status = licenseStatusPending → epoch < l.activationEpoch
  offenses : ∀ e ∈ s.offenseEvents, epoch < e.expiryEpoch
  accounts : ∀ a ∈ s.dividendAccounts, epoch < a.claimDeadlineEpoch
  award : ¬ AwardsAt s epoch

instance (s : DevnetState) (epoch : UInt64) : Decidable (QuietEpoch s epoch) :=
  decidable_of_iff
    ((∀ l ∈ s.licenses, l.status = licenseStatusPending → epoch < l.activationEpoch) ∧
      (∀ e ∈ s.offenseEvents, epoch < e.expiryEpoch) ∧
      (∀ a ∈ s.dividendAccounts, epoch < a.claimDeadlineEpoch) ∧ ¬ AwardsAt s epoch)
    ⟨fun ⟨hlicenses, hoffenses, haccounts, haward⟩ => ⟨hlicenses, hoffenses, haccounts, haward⟩,
      fun ⟨hlicenses, hoffenses, haccounts, haward⟩ => ⟨hlicenses, hoffenses, haccounts, haward⟩⟩

/-- The licences carry the weights of the stored offences. -/
def Weighed (s : DevnetState) : Prop :=
  ∃ weights, activeWeights s.offenseEvents = .ok weights ∧
    ∀ l ∈ s.licenses, reweigh weights l = l

/-- In a quiet epoch only the queue and the pool change. -/
theorem applyScheduledLicenseTransitions_quiet
    (h : applyScheduledLicenseTransitions s epoch = .ok s') (hquiet : QuietEpoch s epoch)
    (hweighed : Weighed s) : s' = dropStaleClaims s epoch := by
  rcases applyScheduledLicenseTransitions_eq_ok.mp h with ⟨weights, reserved, hsettles, hrest⟩
  have hoffenses : liveEvents s.offenseEvents epoch = s.offenseEvents := by
    rw [liveEvents, List.filter_eq_self]
    intro e he
    simpa using hquiet.offenses e he
  have haccounts : kept s.dividendAccounts epoch = s.dividendAccounts := by
    rw [kept, List.filter_eq_self]
    intro a ha
    simpa using hquiet.accounts a ha
  have hlapsed : lapsed s.dividendAccounts epoch = [] := by
    rw [lapsed, List.filter_eq_nil_iff]
    intro a ha
    simpa using hquiet.accounts a ha
  have hreserved : reserved = s.treasuryReservedDividendStrikes := by
    have hreserve := hsettles.reserve
    rw [hlapsed] at hreserve
    exact UInt64.toNat_inj.mp hreserve
  have hlicenses : s.licenses.map (scheduledLicense epoch weights) = s.licenses := by
    rcases hweighed with ⟨weights', hweights', hsame⟩
    have heq : weights = weights' := by
      have hw := hsettles.weighed
      rw [hoffenses, hweights', Except.ok.injEq] at hw
      exact hw.symm
    rw [heq]
    calc s.licenses.map (scheduledLicense epoch weights')
        = s.licenses.map id := by
          apply List.map_congr_left
          intro l hl
          rw [scheduledLicense, hsame l hl, activateLicense, if_neg]
          · rfl
          · rintro ⟨hpending, hdue⟩
            exact absurd hdue (UInt64.not_le.mpr (hquiet.licenses l hl hpending))
      _ = s.licenses := List.map_id _
  have hsettled : settled s epoch weights reserved = dropStaleClaims s epoch := by
    rw [settled, hoffenses, haccounts, hreserved, hlicenses]
  split at hrest
  next hepoch =>
    rcases awardDividends_settled hsettles hepoch hrest with ⟨-, hsame⟩ | ⟨hawards, -⟩
    · rw [hsame, hsettled]
    · exact absurd hawards hquiet.award
  next => rw [hrest, hsettled]

/-! ## What the transitions do not read -/

/-- A state with another registry and other offences. -/
def DevnetState.withRegistry (s : DevnetState) (licenses : List LicenseState)
    (offenses : List OffenseEventState) : DevnetState :=
  { s with licenses := licenses, offenseEvents := offenses }

/-- A change of a state that scheduled transitions do not notice: it keeps what they
read and commutes with what they write. -/
structure Blind (g : DevnetState → DevnetState) : Prop where
  licenses : ∀ s, (g s).licenses = s.licenses
  offenses : ∀ s, (g s).offenseEvents = s.offenseEvents
  reserve : ∀ s, (g s).treasuryReservedDividendStrikes = s.treasuryReservedDividendStrikes
  accounts : ∀ s, (g s).dividendAccounts = s.dividendAccounts
  utxos : ∀ s, (g s).utxos = s.utxos
  registry : ∀ s licenses offenses,
    g (s.withRegistry licenses offenses) = (g s).withRegistry licenses offenses
  dividends : ∀ s reserve accounts,
    g (s.withDividends reserve accounts) = (g s).withDividends reserve accounts
  drop : ∀ s epoch, g (dropStaleClaims s epoch) = dropStaleClaims (g s) epoch

namespace Blind

variable {g : DevnetState → DevnetState}

theorem expireEvents (hg : Blind g) (s : DevnetState) (epoch : UInt64) :
    expireEvents (g s) epoch = (expireEvents s epoch).map g := by
  simp only [Punishment.expireEvents, hg.offenses, hg.licenses, exceptMap_bind]
  exact bind_congr fun _ => bind_congr fun _ => congrArg Except.ok (hg.registry s _ _).symm

theorem expireAccounts (hg : Blind g) (s : DevnetState) (epoch : UInt64) :
    expireAccounts (g s) epoch = (expireAccounts s epoch).map fun p => (p.1, g p.2) := by
  simp only [Dividends.expireAccounts, hg.accounts, hg.reserve, exceptMap_bind]
  exact bind_congr fun returned => bind_congr fun reserved =>
    congrArg (fun t => Except.ok (returned, t)) (hg.dividends s _ _).symm

theorem awardDividends (hg : Blind g) (s : DevnetState) (epoch : UInt64) :
    awardDividends (g s) epoch = (awardDividends s epoch).map g := by
  simp only [Dividends.awardDividends, treasuryState, hg.utxos, hg.licenses, hg.accounts,
    hg.reserve, exceptMap_bind]
  refine bind_congr fun _ => bind_congr fun _ => bind_congr fun award => ?_
  split
  · rfl
  · simp only [exceptMap_bind]
    refine bind_congr fun _ => bind_congr fun reserved => congrArg Except.ok ?_
    exact Eq.trans (by simp only [DevnetState.withDividends, hg.licenses, hg.utxos])
      (hg.dividends s reserved _).symm

/-- Scheduled transitions commute with a change they do not notice. -/
theorem applyScheduledLicenseTransitions (hg : Blind g) (s : DevnetState) (epoch : UInt64) :
    applyScheduledLicenseTransitions (g s) epoch =
      (applyScheduledLicenseTransitions s epoch).map g := by
  simp only [Mutiny.applyScheduledLicenseTransitions, processEpoch, hg.expireEvents, bind_exceptMap,
    exceptMap_bind]
  refine bind_congr fun s₁ => ?_
  have hactive : { g s₁ with licenses := (g s₁).licenses.map (activateLicense epoch) } =
      g { s₁ with licenses := s₁.licenses.map (activateLicense epoch) } := by
    rw [hg.licenses]
    exact (congrArg _ (hg.offenses s₁)).trans (hg.registry s₁ _ s₁.offenseEvents).symm
  rw [hactive, hg.expireAccounts, bind_exceptMap]
  refine bind_congr fun p => ?_
  simp only [← hg.drop]
  split
  · exact hg.awardDividends _ epoch
  · rfl

end Blind

theorem blind_setTip (tip : UInt64) : Blind fun s => { s with tipEpoch := tip } := by
  constructor <;> intros <;> rfl

/-- The parts of an empty epoch: scheduled transitions at the next epoch, the move of
the tip, and perhaps an observation. -/
theorem emptyEpoch_scheduled {s s₁ : DevnetState} (h : emptyEpoch s = .ok s₁) :
    ∃ s₂, applyScheduledLicenseTransitions s (s.tipEpoch + 1) = .ok s₂ ∧
      s₁ = { s₂ with tipEpoch := s.tipEpoch + 1 }.setDifficultyHistory s₁.difficultyHistory := by
  simp only [emptyEpoch, bind_eq_ok] at h
  rcases h with ⟨s₂, hs₂, hrest⟩
  rw [(blind_setTip (s.tipEpoch + 1)).applyScheduledLicenseTransitions, map_eq_ok] at hs₂
  rcases hs₂ with ⟨s₃, hs₃, rfl⟩
  refine ⟨s₃, hs₃, ?_⟩
  split at hrest
  · exact appendDifficultyResult_frame hrest
  · cases hrest
    rfl

/-- What the consensus of a chain is about: all but the queue and the pool. -/
def DevnetState.consensus (s : DevnetState) : DevnetState :=
  { s with mempool := [], pendingProtocolOperations := [] }

/-- A state without the queue, the pool and the stored root. -/
def DevnetState.bare (s : DevnetState) : DevnetState :=
  { s.consensus with currentStateRoot := 0 }

/-- A change that empty epochs do not notice either. -/
structure BlindEpoch (g : DevnetState → DevnetState) : Prop extends Blind g where
  tip : ∀ s, (g s).tipEpoch = s.tipEpoch
  moved : ∀ s epoch, g { s with tipEpoch := epoch } = { g s with tipEpoch := epoch }
  history : ∀ s, (g s).difficultyHistory = s.difficultyHistory
  recorded : ∀ s h, g (s.setDifficultyHistory h) = (g s).setDifficultyHistory h
  observed : ∀ s epoch,
    difficultyObservationEnabled (g s) epoch = difficultyObservationEnabled s epoch

namespace BlindEpoch

variable {g : DevnetState → DevnetState}

theorem emptyEpoch (hg : BlindEpoch g) (s : DevnetState) :
    emptyEpoch (g s) = (emptyEpoch s).map g := by
  simp only [Mutiny.emptyEpoch, hg.tip, ← hg.moved, hg.applyScheduledLicenseTransitions,
    bind_exceptMap, exceptMap_bind, hg.observed]
  refine bind_congr fun s₁ => ?_
  split
  · simp only [appendDifficultyResult, hg.history, exceptMap_bind, ← hg.recorded]
    rfl
  · rfl

/-- Empty epochs commute with a change they do not notice. -/
theorem emptyEpochs (hg : BlindEpoch g) (n : Nat) (s : DevnetState) :
    emptyEpochs n (g s) = (emptyEpochs n s).map g := by
  induction n generalizing s with
  | zero => rfl
  | succ n ih =>
    simp only [Mutiny.emptyEpochs, hg.emptyEpoch, bind_exceptMap, exceptMap_bind, ih]

end BlindEpoch

theorem blindEpoch_bare : BlindEpoch DevnetState.bare := by
  constructor
  · constructor <;> intros <;> rfl
  all_goals intros; rfl

section Advance

variable [Crypto] {s : DevnetState}

/-- A refreshed state has the root of what it held before. -/
theorem refreshCurrentStateRoot_bare (s : DevnetState) :
    refreshCurrentStateRoot s.bare = (refreshCurrentStateRoot s).map DevnetState.consensus := by
  simp only [refreshCurrentStateRoot, exceptMap_bind]
  rfl

/-- A run of empty epochs reads neither the queue, nor the pool, nor the stored
root. -/
theorem advanceEmptyEpochs_consensus {c : DevnetState} {throughEpoch : UInt64}
    (hlater : s.tipEpoch < throughEpoch) :
    (∃ s', advanceEmptyEpochs s throughEpoch = .ok s' ∧ s'.consensus = c) ↔
      (emptyEpochs (throughEpoch.toNat - s.tipEpoch.toNat) s.bare >>= refreshCurrentStateRoot) =
        .ok c := by
  rw [← map_eq_ok, advanceEmptyEpochs, if_neg (UInt64.not_le.mpr hlater), blindEpoch_bare.emptyEpochs,
    bind_exceptMap, exceptMap_bind]
  simp only [refreshCurrentStateRoot_bare]

/-- Refreshing the root after every epoch makes no difference to the rest. -/
theorem emptyEpochs_of_skipEpochs {n : Nat} {s' : DevnetState} (h : skipEpochs n s = .ok s') :
    emptyEpochs n s.bare = .ok s'.bare := by
  induction n generalizing s with
  | zero =>
    cases h
    rfl
  | succ n ih =>
    simp only [skipEpochs, bind_eq_ok] at h
    rcases h with ⟨s₁, hfirst, s₂, hrefresh, hrest⟩
    have hsame : s₂.bare = s₁.bare := by
      rw [(refreshCurrentStateRoot_eq_ok.mp hrefresh).2]
      rfl
    have hrest := ih hrest
    rw [hsame] at hrest
    rw [emptyEpochs, blindEpoch_bare.emptyEpoch, hfirst]
    exact hrest

end Advance

end Mutiny
