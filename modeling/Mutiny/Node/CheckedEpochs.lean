import Mutiny.Node.StateCheck

/-!
# The state check and the passing of epochs

An empty epoch whose root is refreshed leaves a state that passes the check, so a
run of them does.
-/

namespace Mutiny

open Result Punishment Dividends

/-! ## What scheduled transitions leave -/

/-- What an epoch does to the accounts: some lapse, and some may be opened. -/
inductive AccountsAfter (s : DevnetState) (epoch reserved : UInt64) (s' : DevnetState) : Prop where
  | kept (haccounts : s'.dividendAccounts = kept s.dividendAccounts epoch)
      (hreserve : s'.treasuryReservedDividendStrikes = reserved)
  | awarded (deadline share total : UInt64) (hepoch : isAwardEpoch epoch = true)
      (hpositive : total ≠ 0)
      (hdeadline : deadline.toNat = epoch.toNat + dividendClaimWindow.toNat)
      (haccounts : s'.dividendAccounts.Perm (Dividends.kept s.dividendAccounts epoch ++
        awardedAccounts s'.licenses epoch deadline share))
      (htotal : total.toNat =
        share.toNat * (UInt64.ofNat (eligibleIds s'.licenses epoch).length).toNat)
      (hreserve : s'.treasuryReservedDividendStrikes.toNat = reserved.toNat + total.toNat)
      (hbacked : reserved.toNat + total.toNat ≤ treasuryValue s.utxos)

variable {epoch : UInt64}

/-- The collections after scheduled transitions. -/
theorem applyScheduledLicenseTransitions_parts {s s' : DevnetState}
    (h : applyScheduledLicenseTransitions s epoch = .ok s') :
    ∃ weights reserved, Settles s epoch weights reserved ∧
      s'.licenses = s.licenses.map (scheduledLicense epoch weights) ∧
      s'.offenseEvents = liveEvents s.offenseEvents epoch ∧
      AccountsAfter s epoch reserved s' := by
  rcases applyScheduledLicenseTransitions_eq_ok.mp h with ⟨weights, reserved, hsettles, hrest⟩
  refine ⟨weights, reserved, hsettles, ?_⟩
  split at hrest
  next hepoch =>
    rcases awardDividends_eq_ok.mp hrest with ⟨-, treasury, award, htreasury, haward,
      ⟨-, rfl⟩ | ⟨hpositive, deadline, reserve, hdeadline, hreserve, rfl⟩⟩
    · exact ⟨rfl, rfl, .kept rfl rfl⟩
    · rcases treasuryState_eq_ok.mp htreasury with ⟨hbacking, -, -⟩
      rcases calculateDividendAward_eq_ok haward with ⟨htotal, hcovered, -⟩
      have hbacking : treasury.availableStrikes.toNat + reserved.toNat = treasuryValue s.utxos :=
        hbacking
      refine ⟨rfl, rfl, .awarded deadline award.perLicenseStrikes award.totalReservedStrikes
        hepoch hpositive hdeadline ?_ htotal hreserve (by omega)⟩
      exact List.perm_insertionSort _ _
  next =>
    rw [hrest]
    exact ⟨rfl, rfl, .kept rfl rfl⟩

/-- The registry names the same licences after the scheduled transitions. -/
theorem map_licenseIdText_scheduled (epoch : UInt64) (weights : List (HexText × UInt8))
    (licenses : List LicenseState) :
    (licenses.map (scheduledLicense epoch weights)).map (·.licenseIdText) =
      licenses.map (·.licenseIdText) := by
  rw [List.map_map]
  apply List.map_congr_left
  intro l _
  rw [Function.comp_apply, scheduledLicense_frame]

theorem map_licenseId_scheduled (epoch : UInt64) (weights : List (HexText × UInt8))
    (licenses : List LicenseState) :
    (licenses.map (scheduledLicense epoch weights)).map (·.licenseId) =
      licenses.map (·.licenseId) := by
  rw [LicenseState.map_licenseId, map_licenseIdText_scheduled, LicenseState.map_licenseId]

/-! ## The clauses of the check -/

variable {weights : List (HexText × UInt8)}

/-- Fields in range stay in range: only a valid status and a small weight are
written. -/
theorem ValidEntry.scheduled [Crypto] {l : LicenseState} (h : ValidEntry l)
    (hsound : SoundWeight weights l) :
    ValidEntry (scheduledLicense epoch weights l) := by
  rcases scheduledLicense_cases epoch weights l with
    ⟨-, hsame⟩ | ⟨hrevoked, status, hwritten, -, hsame⟩
  · rw [hsame]
    exact h
  · rcases LicenseRecordV1.validate_eq_ok.mp h.record with ⟨-, hstatus, hmethod, -⟩
    rw [SoundWeight, if_neg hrevoked] at hsound
    rw [hsame]
    refine ⟨LicenseRecordV1.validate_eq_ok.mpr ⟨rfl, ?_, hmethod, UInt8.le_of_lt hsound⟩, h.address⟩
    rcases hwritten with rfl | rfl
    · exact hstatus
    · exact List.mem_cons_of_mem _ List.mem_cons_self

theorem CarriesWeight.scheduled {sums : List (HexText × UInt8)} {l : LicenseState}
    (h : CarriesWeight sums l) : CarriesWeight weights (scheduledLicense epoch weights l) := by
  rcases scheduledLicense_cases epoch weights l with
    ⟨hrevoked, hsame⟩ | ⟨hrevoked, status, -, hlive, hsame⟩
  · rw [CarriesWeight, if_pos hrevoked] at h
    rw [hsame, CarriesWeight, if_pos hrevoked]
    exact h
  · rw [CarriesWeight, if_neg hrevoked] at h
    rw [hsame, CarriesWeight, if_neg hlive]
    exact ⟨rfl, h.2⟩

theorem Punishment.checkState_scheduled {s s' : DevnetState} (hs : Punishment.checkState s = .ok ())
    (h : applyScheduledLicenseTransitions s epoch = .ok s') {t : DevnetState}
    (hlicenses : t.licenses = s'.licenses) (hevents : t.offenseEvents = s'.offenseEvents)
    (hconsumed : t.consumedEvidence = s.consumedEvidence) (htip : t.tipEpoch = epoch) :
    Punishment.checkState t = .ok () := by
  rcases Punishment.checkState_eq_ok.mp hs with ⟨hdistinct, hids, hvalid, sums, -, hcarry⟩
  rcases applyScheduledLicenseTransitions_parts h with
    ⟨weights, reserved, hsettles, hlicenses', hevents', -⟩
  rw [hlicenses'] at hlicenses
  rw [hevents'] at hevents
  refine Punishment.checkState_eq_ok.mpr ⟨hconsumed ▸ hdistinct, ?_, ?_, weights, ?_, ?_⟩
  · rw [hevents]
    exact hids.sublist (List.filter_sublist.map _)
  · intro e he
    rw [hevents] at he
    rcases List.mem_filter.mp he with ⟨hmem, hlive⟩
    have hold := hvalid e hmem
    refine ⟨hconsumed ▸ hold.consumed, hold.weight, hold.expiry, ?_, ?_⟩
    · rw [htip]
      exact of_decide_eq_true hlive
    · rw [hlicenses, map_licenseIdText_scheduled]
      exact hold.known
  · rw [hevents]
    exact hsettles.weighed
  · intro l hl
    rw [hlicenses] at hl
    rcases List.mem_map.mp hl with ⟨l, hmem, rfl⟩
    exact CarriesWeight.scheduled (hcarry l hmem)

/-! ## Accounts -/

namespace Dividends

theorem claimable_append (xs ys : List DividendAccountState) :
    claimable (xs ++ ys) = claimable xs + claimable ys := by
  simp [claimable]

theorem claimable_perm {xs ys : List DividendAccountState} (h : xs.Perm ys) :
    claimable xs = claimable ys :=
  (h.map _).sum_eq

theorem claimable_kept_add_lapsed (accounts : List DividendAccountState) (epoch : UInt64) :
    claimable (kept accounts epoch) + claimable (lapsed accounts epoch) = claimable accounts := by
  rw [← claimable_append]
  apply claimable_perm
  have h := List.filter_append_perm (fun a => decide (a.claimDeadlineEpoch ≤ epoch)) accounts
  exact List.perm_append_comm.trans h

theorem claimable_awardedAccounts (licenses : List LicenseState) (epoch deadline share : UInt64) :
    claimable (awardedAccounts licenses epoch deadline share) =
      share.toNat * (eligibleIds licenses epoch).length := by
  simp [claimable, awardedAccounts, Nat.mul_comm, Function.comp_def]

theorem length_eligibleIds_le (licenses : List LicenseState) (epoch : UInt64) :
    (eligibleIds licenses epoch).length ≤ licenses.length := by
  rw [eligibleIds, List.length_map]
  exact List.length_filter_le _ _

/-- Accounts that lapse give their claims back and accounts that open are backed, so
the reserve stays what the accounts hold. -/
theorem checkState_scheduled {s s' : DevnetState} {epoch : UInt64}
    (hs : Dividends.checkState s = .ok ())
    (h : applyScheduledLicenseTransitions s epoch = .ok s') (hsize : s.licenses.length < 2 ^ 64)
    {t : DevnetState} (hutxos : t.utxos = s.utxos) (hlicenses : t.licenses = s'.licenses)
    (haccounts : t.dividendAccounts = s'.dividendAccounts)
    (hreserve : t.treasuryReservedDividendStrikes = s'.treasuryReservedDividendStrikes)
    (hdistinct : (t.dividendAccounts.map (·.licenseIdText)).Nodup) :
    Dividends.checkState t = .ok () := by
  rcases Dividends.checkState_eq_ok.mp hs with ⟨hbound, hbacked, -, hvalid, hclaimable⟩
  rcases applyScheduledLicenseTransitions_parts h with
    ⟨weights, reserved, hsettles, hlicenses', -, hafter⟩
  have hids : t.licenses.map (·.licenseIdText) = s.licenses.map (·.licenseIdText) := by
    rw [hlicenses, hlicenses', map_licenseIdText_scheduled]
  have hkept : ∀ a ∈ kept s.dividendAccounts epoch, ValidAccount t a := by
    intro a ha
    have hold := hvalid a (List.mem_filter.mp ha).1
    exact ⟨hold.award, hold.deadline, hids ▸ hold.known⟩
  have hreserved : claimable (kept s.dividendAccounts epoch) = reserved.toNat := by
    have hsplit := claimable_kept_add_lapsed s.dividendAccounts epoch
    have hreserve := hsettles.reserve
    omega
  have hsame : treasuryValue t.utxos = treasuryValue s.utxos := by rw [hutxos]
  cases hafter with
  | kept haccounts' hreserve' =>
    rw [hreserve'] at hreserve
    refine Dividends.checkState_eq_ok.mpr ⟨hsame ▸ hbound, ?_, hdistinct, ?_, ?_⟩
    · have hsettled := hsettles.reserve
      rw [hreserve, hsame]
      omega
    · rw [haccounts, haccounts']
      exact hkept
    · rw [haccounts, haccounts', hreserve]
      exact hreserved
  | awarded deadline share total hepoch _ hdeadline haccounts' htotal hreserve' hcovered =>
    refine Dividends.checkState_eq_ok.mpr ⟨hsame ▸ hbound, ?_, hdistinct, ?_, ?_⟩
    · rw [hreserve, hreserve', hsame]
      exact hcovered
    · intro a ha
      rw [haccounts, haccounts'.mem_iff, List.mem_append] at ha
      rcases ha with ha | ha
      · exact hkept a ha
      · rcases List.mem_map.mp ha with ⟨id, hid, rfl⟩
        refine ⟨hepoch, hdeadline, ?_⟩
        rcases List.mem_map.mp hid with ⟨l, hl, rfl⟩
        rw [hlicenses]
        exact List.mem_map_of_mem (List.mem_filter.mp hl).1
    · have hcount : (eligibleIds s'.licenses epoch).length < 2 ^ 64 := by
        have hle := length_eligibleIds_le s'.licenses epoch
        rw [hlicenses', List.length_map, ← hlicenses'] at hle
        omega
      rw [haccounts, claimable_perm haccounts', claimable_append, claimable_awardedAccounts,
        hreserved, hreserve, hreserve', htotal, UInt64.toNat_ofNat', Nat.mod_eq_of_lt hcount]

end Dividends

/-! ## One epoch and many -/

section Epochs

variable [Crypto] {s : DevnetState}

/-- A root exists only for accounts of distinct licences: equal ones have equal
keys. -/
theorem nodup_accounts_of_root {r : RootInputs} {root : Bytes32}
    (h : computeStateRoot s r = .ok root) :
    (s.dividendAccounts.map (·.licenseIdText)).Nodup := by
  simp only [computeStateRoot, computeProtocolStateRoot, bind_eq_ok] at h
  rcases h with ⟨_, -, _, -, _, -, _, ⟨_, -, _, hcollections, -⟩, -⟩
  rw [protocolCollections, List.foldlM_cons, bind_eq_ok] at hcollections
  rcases hcollections with ⟨_, haccounts, -⟩
  have hkeys := (insertEntries_eq_ok.mp haccounts).1
  rw [List.map_map, List.map_map] at hkeys
  have hids : ((s.dividendAccounts.map (·.licenseIdText)).map
      fun t => protocolStateKey psDividendAccount t.bytes).Nodup := by
    rw [List.map_map]
    exact hkeys
  exact hids.of_map

/-- One empty epoch with a refreshed root keeps every clause of the check. -/
theorem CheckedState.emptyEpoch {s₁ s' : DevnetState} (hs : CheckedState s)
    (hsize : s.licenses.length < 2 ^ 64) (hepoch : emptyEpoch s = .ok s₁)
    (hrefresh : refreshCurrentStateRoot s₁ = .ok s') :
    CheckedState s' ∧ s'.licenses.length = s.licenses.length := by
  rcases refreshCurrentStateRoot_eq_ok.mp hrefresh with ⟨hroot, hrefreshed⟩
  rcases emptyEpoch_scheduled hepoch with ⟨s₂, hsched, hobserved⟩
  rcases emptyEpoch_frame hepoch with ⟨hframe₁, htip₁⟩
  rcases applyScheduledLicenseTransitions_parts hsched with
    ⟨weights, reserved, hsettles, hlicenses₂, -, -⟩
  have hframe : s' = { s.withEpochs s' with currentStateRoot := s'.currentStateRoot } := by
    rw [hrefreshed, hframe₁]
    rfl
  have hlicenses : s'.licenses = s₂.licenses := by
    rw [hrefreshed, hobserved]
    rfl
  have hids : s'.licenses.map (·.licenseIdText) = s.licenses.map (·.licenseIdText) := by
    rw [hlicenses, hlicenses₂, map_licenseIdText_scheduled]
  have hroot' : computeStateRoot s' s'.rootInputs = .ok s'.currentStateRoot := by
    rw [hrefreshed]
    exact hroot
  refine ⟨⟨?_, ?_, ?_, ?_, ?_, ?_, ?_, ?_, ?_, ?_, ?_, ?_, ?_, ?_, hroot'⟩, ?_⟩
  · rw [hframe]
    exact hs.identity
  · rw [hframe]
    exact hs.words
  · rw [hframe]
    exact hs.tip
  · rw [hframe]
    exact hs.height
  · rw [hids]
    exact hs.registry
  · intro l hl
    rw [hlicenses, hlicenses₂] at hl
    rcases List.mem_map.mp hl with ⟨l, hmem, rfl⟩
    exact (hs.entries l hmem).scheduled (hsettles.sound l hmem)
  · rw [hframe]
    exact hs.nativePayments
  · rw [hframe]
    exact hs.bitcoinPayments
  · rw [hframe]
    exact hs.bitcoinHeaders
  · refine Punishment.checkState_scheduled hs.punishment hsched hlicenses ?_ ?_ ?_
    · rw [hrefreshed, hobserved]
      rfl
    · rw [hframe]
      rfl
    · rw [hrefreshed]
      exact htip₁
  · refine Dividends.checkState_scheduled hs.dividends hsched hsize ?_ hlicenses ?_ ?_
      (nodup_accounts_of_root hroot')
    · rw [hframe]
      rfl
    · rw [hrefreshed, hobserved]
      rfl
    · rw [hrefreshed, hobserved]
      rfl
  · rcases Presence.checkState_eq_ok.mp hs.presence with ⟨hdistinct, hknown⟩
    have hsame : s'.miningPresence = s.miningPresence := by rw [hframe]; rfl
    refine Presence.checkState_eq_ok.mpr ⟨hsame ▸ hdistinct, ?_⟩
    rw [hids, hsame]
    exact hknown
  · rw [hframe]
    exact hs.historical
  · rw [hframe]
    exact hs.supply
  · rw [hlicenses, hlicenses₂, List.length_map]

/-- A run of empty epochs, each with a refreshed root, leaves a state that passes the
check. -/
theorem CheckedState.skipEpochs {n : Nat} {s' : DevnetState} (hs : CheckedState s)
    (hsize : s.licenses.length < 2 ^ 64) (h : skipEpochs n s = .ok s') : CheckedState s' := by
  induction n generalizing s with
  | zero =>
    cases h
    exact hs
  | succ n ih =>
    simp only [Mutiny.skipEpochs, bind_eq_ok] at h
    rcases h with ⟨s₁, hepoch, s₂, hrefresh, hrest⟩
    rcases hs.emptyEpoch hsize hepoch hrefresh with ⟨hs₂, hlength⟩
    exact ih hs₂ (hlength ▸ hsize) hrest

end Epochs

end Mutiny
