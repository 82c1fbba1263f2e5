import Mutiny.Node.Scheduled

/-!
# The state check, clause by clause

The check a node runs on a state is a sequence of loops with accumulators.  Here
each of them is replaced by what it says about the collection as a whole.
-/

namespace Mutiny

open Result

/-! ## Offences -/

namespace Punishment

/-- An active offence that fits a state. -/
structure ValidEvent (s : DevnetState) (e : OffenseEventState) : Prop where
  consumed : e.evidenceId ∈ s.consumedEvidence
  weight : offenseWeight e.offenseType = .ok e.weight
  expiry : e.expiryEpoch.toNat = e.appliedEpoch.toNat + strikeDecayEpochs.toNat
  active : s.tipEpoch < e.expiryEpoch
  known : e.licenseIdText ∈ s.licenses.map (·.licenseIdText)

/-- A licence that carries the weight of its offences, or the mark of its
revocation. -/
def CarriesWeight (sums : List (HexText × UInt8)) (l : LicenseState) : Prop :=
  if l.status = licenseStatusRevoked then
    l.strikeWeight = revocationThreshold ∧ l.revocationEpoch ≠ 0
  else l.strikeWeight = weightOf sums l.licenseIdText ∧ l.revocationEpoch = 0

variable {s : DevnetState}

theorem not_all_ne_iff {id : HexText} :
    (¬ (s.licenses.all fun l => decide (l.licenseIdText ≠ id)) = true) ↔
      id ∈ s.licenses.map (·.licenseIdText) := by
  simp

theorem checkEvent_eq_ok (seen : List Bytes32) (sums : List (HexText × UInt8))
    (e : OffenseEventState) (r : List Bytes32 × List (HexText × UInt8)) :
    checkEvent s (seen, sums) e = .ok r ↔
      e.evidenceId ∉ seen ∧ ValidEvent s e ∧
        ∃ sums', addWeight sums e = .ok sums' ∧ r = (e.evidenceId :: seen, sums') := by
  simp only [checkEvent, ok_rules, not_not, UInt64.checkedAdd_eq_some, not_all_ne_iff,
    UInt64.not_le]
  constructor
  · rintro ⟨_, hconsumed, _, hnew, weight, hweight, _, rfl, expiry, hexpiry, _, hsame, _, hactive, _,
      hknown, sums', hsums, rfl⟩
    exact ⟨hnew, ⟨hconsumed, hweight, hsame ▸ hexpiry, hactive, hknown⟩, sums', hsums, rfl⟩
  · rintro ⟨hnew, ⟨hconsumed, hweight, hexpiry, hactive, hknown⟩, sums', hsums, rfl⟩
    exact ⟨(), hconsumed, (), hnew, _, hweight, (), rfl, _, hexpiry, (), rfl, (), hactive, (),
      hknown, sums', hsums, rfl⟩

variable {sums : List (HexText × UInt8)}

theorem checkLicense_eq_ok {l : LicenseState} :
    checkLicense sums l = .ok () ↔ CarriesWeight sums l := by
  unfold checkLicense CarriesWeight
  split
  next => simp
  next => simp

/-- The check passes exactly when every clause of {lit}`CheckedState` holds. -/
theorem checkState_eq_ok :
    Punishment.checkState s = .ok () ↔
      s.consumedEvidence.Nodup ∧ (s.offenseEvents.map (·.evidenceId)).Nodup ∧
        (∀ e ∈ s.offenseEvents, ValidEvent s e) ∧
        ∃ sums, activeWeights s.offenseEvents = .ok sums ∧
          ∀ l ∈ s.licenses, CarriesWeight sums l := by
  simp only [Punishment.checkState, ok_rules, not_not, foldlM_distinct Prod.mk checkEvent_eq_ok,
    forM_eq_ok, checkLicense_eq_ok]
  constructor
  · rintro ⟨_, hconsumed, _, ⟨hdistinct, -, hvalid, sums, hsums, rfl⟩, hlicenses⟩
    exact ⟨hconsumed, hdistinct, hvalid, sums, hsums, hlicenses⟩
  · rintro ⟨hconsumed, hdistinct, hvalid, sums, hsums, hlicenses⟩
    exact ⟨(), hconsumed, _, ⟨hdistinct, by simp, hvalid, sums, hsums, rfl⟩, hlicenses⟩

theorem CarriesWeight.reweigh {l : LicenseState} (h : CarriesWeight sums l) :
    reweigh sums l = l := by
  unfold CarriesWeight at h
  unfold Punishment.reweigh
  split at h
  next hrevoked => rw [if_pos hrevoked]
  next hrevoked => rw [if_neg hrevoked, ← h.1]

end Punishment

/-! ## Dividends -/

namespace Dividends

/-- An account that fits a state. -/
structure ValidAccount (s : DevnetState) (a : DividendAccountState) : Prop where
  award : isAwardEpoch a.awardEpoch = true
  deadline : a.claimDeadlineEpoch.toNat = a.awardEpoch.toNat + dividendClaimWindow.toNat
  known : a.licenseIdText ∈ s.licenses.map (·.licenseIdText)

theorem checkAccount_eq_ok {s : DevnetState} (seen : List HexText) (sum : UInt64)
    (a : DividendAccountState) (r : List HexText × UInt64) :
    checkAccount s (seen, sum) a = .ok r ↔
      a.licenseIdText ∉ seen ∧ ValidAccount s a ∧
        ∃ sum', addStrikes "dividend claimable sum overflow" sum a.claimableStrikes = .ok sum' ∧
          r = (a.licenseIdText :: seen, sum') := by
  have haward : ¬ (a.awardEpoch = 0 ∨ a.awardEpoch % dividendAwardInterval ≠ 0) ↔
      isAwardEpoch a.awardEpoch = true := by
    simp [isAwardEpoch]
  simp only [checkAccount, ok_rules, not_not, haward, UInt64.checkedAdd_eq_some,
    Punishment.not_all_ne_iff]
  constructor
  · rintro ⟨_, hnew, _, hepoch, deadline, hdeadline, _, hsame, _, hknown, sum', hsum, rfl⟩
    exact ⟨hnew, ⟨hepoch, hsame ▸ hdeadline, hknown⟩, sum', hsum, rfl⟩
  · rintro ⟨hnew, ⟨hepoch, hdeadline, hknown⟩, sum', hsum, rfl⟩
    exact ⟨(), hnew, (), hepoch, _, hdeadline, (), rfl, (), hknown, sum', hsum, rfl⟩

theorem checkState_eq_ok {s : DevnetState} :
    Dividends.checkState s = .ok () ↔
      treasuryValue s.utxos < 2 ^ 64 ∧
        s.treasuryReservedDividendStrikes.toNat ≤ treasuryValue s.utxos ∧
        (s.dividendAccounts.map (·.licenseIdText)).Nodup ∧
        (∀ a ∈ s.dividendAccounts, ValidAccount s a) ∧
        claimable s.dividendAccounts = s.treasuryReservedDividendStrikes.toNat := by
  have hsum : ∀ sum' : UInt64, s.dividendAccounts.foldlM (fun sum a =>
      addStrikes "dividend claimable sum overflow" sum a.claimableStrikes) 0 = .ok sum' ↔
      sum'.toNat = claimable s.dividendAccounts := by
    intro sum'
    have hamounts : (s.dividendAccounts.map (·.claimableStrikes)).foldlM
        (addStrikes "dividend claimable sum overflow") 0 = .ok sum' ↔ _ := addStrikes_foldlM_eq_ok
    rw [List.foldlM_map, List.map_map, UInt64.toNat_zero, Nat.zero_add] at hamounts
    exact hamounts
  simp only [Dividends.checkState, ok_rules, treasuryTotal_eq_ok, UInt64.not_lt, not_not,
    foldlM_distinct Prod.mk checkAccount_eq_ok, hsum]
  constructor
  · rintro ⟨total, htotal, _, hbacked, _, ⟨hdistinct, -, hvalid, sum, hclaimable, rfl⟩, hreserved⟩
    have hbound := total.toNat_lt
    have hle := UInt64.le_iff_toNat_le.mp hbacked
    refine ⟨by omega, by omega, hdistinct, hvalid, ?_⟩
    rw [← hclaimable, ← hreserved]
  · rintro ⟨hbound, hbacked, hdistinct, hvalid, hclaimable⟩
    have htotal : (UInt64.ofNat (treasuryValue s.utxos)).toNat = treasuryValue s.utxos := by
      rw [UInt64.toNat_ofNat', Nat.mod_eq_of_lt hbound]
    refine ⟨_, htotal, (), ?_, _, ⟨hdistinct, by simp, hvalid, _, hclaimable.symm, rfl⟩, rfl⟩
    rw [UInt64.le_iff_toNat_le, htotal]
    exact hbacked

end Dividends

/-! ## Presence -/

theorem Presence.checkState_eq_ok {s : DevnetState} :
    Presence.checkState s = .ok () ↔
      (s.miningPresence.map (·.licenseIdText)).Nodup ∧
        ∀ p ∈ s.miningPresence, .encode p.licenseId ∈ s.licenses.map (·.licenseIdText) := by
  have hentry : ∀ (seen : List HexText) (p : MiningPresenceState) (r : List HexText),
      Presence.checkEntry s seen p = .ok r ↔ p.licenseIdText ∉ seen ∧
        .encode p.licenseId ∈ s.licenses.map (·.licenseIdText) ∧ r = p.licenseIdText :: seen := by
    intro seen p r
    simp only [Presence.checkEntry, ok_rules, Punishment.not_all_ne_iff]
    constructor
    · rintro ⟨_, hnew, _, hknown, rfl⟩
      exact ⟨hnew, hknown, rfl⟩
    · rintro ⟨hnew, hknown, rfl⟩
      exact ⟨(), hnew, (), hknown, rfl⟩
  simp only [Presence.checkState, bind_eq_ok, foldlM_keys hentry]
  simp

/-! ## The whole state -/

section Whole

variable [Crypto]

/-- A licence of the registry whose fields are in range and whose address is its
owner's. -/
structure ValidEntry (l : LicenseState) : Prop where
  record : l.record.validate = .ok ()
  address : l.paymentAddressId = addressId l.ownerPublicKey

theorem checkLicenseEntry_eq_ok (seen : List HexText) (l : LicenseState) (r : List HexText) :
    checkLicenseEntry seen l = .ok r ↔
      l.licenseIdText ∉ seen ∧ ValidEntry l ∧ r = l.licenseIdText :: seen := by
  simp only [checkLicenseEntry, ok_rules, not_not]
  constructor
  · rintro ⟨_, hrecord, _, hnew, _, haddress, rfl⟩
    exact ⟨hnew, ⟨hrecord, haddress⟩, rfl⟩
  · rintro ⟨hnew, ⟨hrecord, haddress⟩, rfl⟩
    exact ⟨(), hrecord, (), hnew, (), haddress, rfl⟩

/-- What the check of a state says, clause by clause. -/
structure CheckedState (s : DevnetState) : Prop where
  identity : validTuple s = true
  words : s.motto = motto
  tip : s.tipHash = (s.blocks.getLast?.map (·.blockHash)).getD s.genesisHash
  height : s.height = UInt64.ofNat s.blocks.length
  registry : (s.licenses.map (·.licenseIdText)).Nodup
  entries : ∀ l ∈ s.licenses, ValidEntry l
  nativePayments : s.consumedNativePayments.Nodup
  bitcoinPayments : BitcoinPurchase.checkState s = .ok ()
  bitcoinHeaders : BitcoinHeaders.checkState s = .ok ()
  punishment : Punishment.checkState s = .ok ()
  dividends : Dividends.checkState s = .ok ()
  presence : Presence.checkState s = .ok ()
  historical : (s.historicalLicenseKeys.map (·.operationId)).Nodup
  supply : utxoSupply s.utxos = s.totalIssuedStrikes.toNat
  root : computeStateRoot s s.rootInputs = .ok s.currentStateRoot

variable {s : DevnetState}

theorem checkState_eq_ok : checkState s = .ok () ↔ CheckedState s := by
  simp only [checkState, ok_rules, foldlM_keys checkLicenseEntry_eq_ok, not_or, not_not,
    Bool.not_eq_false, Nat.not_le]
  constructor
  · rintro ⟨_, ⟨hidentity, hwords⟩, _, htip, _, hheight, _, ⟨hregistry, -, hentries, -⟩, _, hnative,
      _, hpayments, _, hheaders, _, hpunishment, _, hdividends, _, hpresence, _, hhistorical, _, -,
      _, hsupply, root, hroot, rfl⟩
    exact ⟨hidentity, hwords, htip, hheight, hregistry, hentries, hnative, hpayments, hheaders,
      hpunishment, hdividends, hpresence, hhistorical, hsupply, hroot⟩
  · rintro ⟨hidentity, hwords, htip, hheight, hregistry, hentries, hnative, hpayments, hheaders,
      hpunishment, hdividends, hpresence, hhistorical, hsupply, hroot⟩
    have hbound : utxoSupply s.utxos < 2 ^ 128 := by
      have hissued := s.totalIssuedStrikes.toNat_lt
      omega
    exact ⟨(), ⟨hidentity, hwords⟩, (), htip, (), hheight, _, ⟨hregistry, by simp, hentries, rfl⟩,
      (), hnative, (), hpayments, (), hheaders, (), hpunishment, (), hdividends, (), hpresence, (),
      hhistorical, (), hbound, (), hsupply, _, hroot, rfl⟩

theorem CheckedState.outpoints_nodup (h : CheckedState s) :
    (s.utxos.map UtxoState.outpoint).Nodup := by
  have hroot := h.root
  simp only [computeStateRoot, bind_eq_ok] at hroot
  rcases hroot with ⟨_, hutxoRoot, -⟩
  exact nodup_of_computeUtxoRoot hutxoRoot

/-- Licences carry the weights of the stored offences. -/
theorem CheckedState.weighed (h : CheckedState s) : Weighed s := by
  rcases Punishment.checkState_eq_ok.mp h.punishment with ⟨-, -, -, sums, hsums, hlicenses⟩
  exact ⟨sums, hsums, fun l hl => (hlicenses l hl).reweigh⟩

end Whole

end Mutiny
