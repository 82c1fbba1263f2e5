import Mutiny.Protocol.License

/-!
# Licence updates that fail

A transfer, a rotation, an offence and a dividend claim change their arguments in place.
A caller that goes on after an error relies on the arguments being as they were before
the call.

Main result:

- Theorem {lit}`failed_updates_keep_arguments`: which failing calls leave a change behind.
-/

namespace Mutiny

open Result

/-- A failed call left its mutable arguments as they were. -/
def KeepsOnError {ε α σ : Type} (r : Except ε α × σ) (before : σ) : Prop :=
  ∀ e, r.1 = .error e → r.2 = before

theorem KeepsOnError.of_ok {ε α σ : Type} {a : α} {after before : σ} :
    KeepsOnError ((.ok a, after) : Except ε α × σ) before :=
  fun _ h => by cases h

theorem keepsOnError_error {ε α σ : Type} {e : ε} {after before : σ} :
    KeepsOnError ((.error e, after) : Except ε α × σ) before ↔ after = before :=
  ⟨fun h => h e rfl, fun h _ _ => h⟩

/-! ## Offences -/

/-- An offence on a record that is changed in place. -/
def applyOffenseInPlace (record : LicenseRecordV1) (offenseType : UInt16)
    (appliedEpoch : UInt64) : Except ProtocolError OffenseApplicationV1 × LicenseRecordV1 :=
  if record.status = licenseStatusRevoked then (.error .revoked, record)
  else
    match offenseWeight offenseType with
    | .error e => (.error e, record)
    | .ok weight =>
      if 256 ≤ record.strikeWeight.toNat + weight.toNat then (.error .overflow, record)
      else
        let newWeight := record.strikeWeight + weight
        match appliedEpoch.checkedAdd strikeDecayEpochs with
        | none => (.error .overflow, record)
        | some expiry =>
          if revocationThreshold ≤ newWeight then
            (.ok { newStrikeWeight := revocationThreshold
                   suspendedUntilEpoch := record.suspendedUntilEpoch
                   offenseExpiryEpoch := expiry
                   revoked := true },
              { record with
                strikeWeight := revocationThreshold
                status := licenseStatusRevoked
                revocationEpoch := appliedEpoch })
          else
            let timeout := UInt64.ofNat (2 ^ (5 + newWeight.toNat))
            let base := max record.suspendedUntilEpoch appliedEpoch
            match base.checkedAdd timeout with
            | none => (.error .overflow, record)
            | some suspendedUntil =>
              (.ok { newStrikeWeight := newWeight
                     suspendedUntilEpoch := suspendedUntil
                     offenseExpiryEpoch := expiry
                     revoked := false },
                { record with
                  strikeWeight := newWeight
                  suspendedUntilEpoch := suspendedUntil })

/-- The record is replaced if all checks pass and kept otherwise. -/
theorem applyOffenseInPlace_eq (record : LicenseRecordV1) (offenseType : UInt16)
    (appliedEpoch : UInt64) :
    applyOffenseInPlace record offenseType appliedEpoch =
      ((applyOffense record offenseType appliedEpoch).map Prod.fst,
        ((applyOffense record offenseType appliedEpoch).map Prod.snd).toOption.getD record) := by
  unfold applyOffenseInPlace applyOffense
  by_cases hrevoked : record.status = licenseStatusRevoked
  · simp [hrevoked, reject, bind, Except.bind, Except.map, Except.toOption]
  cases hweight : offenseWeight offenseType with
  | error e => simp [hrevoked, reject, bind, Except.bind, Except.map, Except.toOption]
  | ok weight =>
    by_cases hsum : 256 ≤ record.strikeWeight.toNat + weight.toNat
    · simp [hrevoked, hsum, reject, bind, Except.bind, Except.map, Except.toOption]
    cases hexpiry : appliedEpoch.checkedAdd strikeDecayEpochs with
    | none => simp [hrevoked, hsum, reject, okOr, bind, Except.bind, Except.map, Except.toOption]
    | some expiry =>
      by_cases hreached : revocationThreshold ≤ record.strikeWeight + weight
      · simp [hrevoked, hsum, hreached, reject, okOr, bind, Except.bind, Except.map,
          Except.toOption]
      cases hsuspended : (max record.suspendedUntilEpoch appliedEpoch).checkedAdd
          (UInt64.ofNat (2 ^ (5 + (record.strikeWeight + weight).toNat))) <;>
        simp [-UInt8.toNat_add, hrevoked, hsum, hreached, hsuspended, reject, okOr, bind,
          Except.bind, Except.map, Except.toOption]

theorem keepsOnError_applyOffense (record : LicenseRecordV1) (offenseType : UInt16)
    (appliedEpoch : UInt64) :
    KeepsOnError (applyOffenseInPlace record offenseType appliedEpoch) record := by
  intro e he
  rw [applyOffenseInPlace_eq] at he ⊢
  cases happly : applyOffense record offenseType appliedEpoch with
  | error e => rfl
  | ok r =>
    rw [happly] at he
    cases he

/-! ## Keys -/

/-- The last value of a key sequence: it has no successor. -/
def lastSequence : UInt32 := 4294967295

theorem nextSequence_eq_none {s : UInt32} : nextSequence s = none ↔ s = lastSequence := by
  have hbound := s.toNat_lt
  have hone : (1 : UInt32).toNat = 1 := rfl
  have hlast : lastSequence.toNat = 4294967295 := rfl
  rw [nextSequence, UInt32.checkedAdd, ite_eq_right_iff, ← UInt32.toNat_inj]
  simp only [reduceCtorEq, imp_false]
  omega

theorem ne_lastSequence {s n : UInt32} (h : nextSequence s = some n) : s ≠ lastSequence := by
  intro hlast
  rw [nextSequence_eq_none.mpr hlast] at h
  cases h

section Authority

variable [Crypto]

/-- The owner of a licence that is not revoked signed an operation for its current
sequences. -/
structure OwnerSigned (record : LicenseRecordV1)
    (expectedOwnerSequence expectedMiningSequence : UInt32) (digest : Bytes32)
    (signature : Bytes64) : Prop where
  live : record.status ≠ licenseStatusRevoked
  owner : record.ownerKeySequence = expectedOwnerSequence
  mining : record.miningKeySequence = expectedMiningSequence
  valid : Crypto.validPublicKey record.ownerPublicKey = true
  signed : Crypto.verify record.ownerPublicKey (Bytes.b32 digest) signature = true

theorem verifyOwnerSignature_eq_ok {publicKey digest : Bytes32} {signature : Bytes64} :
    verifyOwnerSignature publicKey digest signature = .ok () ↔
      Crypto.validPublicKey publicKey = true ∧
        Crypto.verify publicKey (Bytes.b32 digest) signature = true := by
  simp only [verifyOwnerSignature, ok_rules, Bool.not_eq_false, exists_const]

theorem checkAuthority_eq_ok_iff {record : LicenseRecordV1} {ownerSequence miningSequence : UInt32}
    {digest : Bytes32} {signature : Bytes64} :
    checkAuthority record ownerSequence miningSequence digest signature = .ok () ↔
      OwnerSigned record ownerSequence miningSequence digest signature := by
  simp only [checkAuthority, ok_rules, not_not, verifyOwnerSignature_eq_ok]
  constructor
  · rintro ⟨_, hlive, _, howner, _, hmining, hvalid, hsigned⟩
    exact ⟨hlive, howner, hmining, hvalid, hsigned⟩
  · intro h
    exact ⟨(), h.live, (), h.owner, (), h.mining, h.valid, h.signed⟩

omit [Crypto] in
theorem rekeyed_eq (record : LicenseRecordV1) (owner mining : Bytes32) :
    { record with ownerPublicKey := owner, miningPublicKey := mining } = record ↔
      owner = record.ownerPublicKey ∧ mining = record.miningPublicKey := by
  cases record
  simp

/-- A transfer that passes its checks on a record with a sequence at its end: new keys are
written before the sequence that cannot grow. -/
def StrandsTransfer (record : LicenseRecordV1) (transfer : LicenseTransferV1) : Prop :=
  OwnerSigned record transfer.expectedOwnerSequence transfer.expectedMiningSequence
      transfer.signingDigest transfer.ownerSignature ∧
    (record.ownerKeySequence = lastSequence ∧
        (transfer.newOwnerPublicKey ≠ record.ownerPublicKey ∨
          transfer.newMiningPublicKey ≠ record.miningPublicKey) ∨
      record.ownerKeySequence ≠ lastSequence ∧ record.miningKeySequence = lastSequence)

/-- A rotation that passes its checks on a record with its mining sequence at its end. -/
def StrandsRotation (record : LicenseRecordV1) (rotation : MiningKeyRotateV1) : Prop :=
  OwnerSigned record rotation.expectedOwnerSequence rotation.expectedMiningSequence
      rotation.signingDigest rotation.ownerSignature ∧
    record.miningKeySequence = lastSequence ∧
    rotation.newMiningPublicKey ≠ record.miningPublicKey

theorem keepsOnError_applyLicenseTransfer (record : LicenseRecordV1)
    (transfer : LicenseTransferV1) :
    KeepsOnError (applyLicenseTransfer record transfer) record ↔
      ¬ StrandsTransfer record transfer := by
  unfold applyLicenseTransfer StrandsTransfer
  rw [← checkAuthority_eq_ok_iff]
  cases hauthority : checkAuthority record transfer.expectedOwnerSequence
      transfer.expectedMiningSequence transfer.signingDigest transfer.ownerSignature with
  | error e => simp [keepsOnError_error]
  | ok u =>
    cases howner : nextSequence record.ownerKeySequence with
    | none =>
      -- only the keys have changed
      have hlast := nextSequence_eq_none.mp howner
      simp only [keepsOnError_error, rekeyed_eq]
      tauto
    | some ownerKeySequence =>
      have hnotLast := ne_lastSequence howner
      have hgrown := UInt32.checkedAdd_eq_some.mp howner
      cases hmining : nextSequence record.miningKeySequence with
      | none =>
        -- the owner's sequence has grown
        have hlast := nextSequence_eq_none.mp hmining
        have hchanged : { record with
            ownerPublicKey := transfer.newOwnerPublicKey
            miningPublicKey := transfer.newMiningPublicKey
            ownerKeySequence := ownerKeySequence } ≠ record := by
          intro hsame
          have howner' : ownerKeySequence = record.ownerKeySequence :=
            congrArg LicenseRecordV1.ownerKeySequence hsame
          have hone : (1 : UInt32).toNat = 1 := rfl
          rw [howner'] at hgrown
          omega
        simp only [keepsOnError_error]
        tauto
      | some miningKeySequence =>
        have hnotLast' := ne_lastSequence hmining
        simp [KeepsOnError.of_ok, hnotLast, hnotLast']

theorem keepsOnError_applyMiningKeyRotation (record : LicenseRecordV1)
    (rotation : MiningKeyRotateV1) :
    KeepsOnError (applyMiningKeyRotation record rotation) record ↔
      ¬ StrandsRotation record rotation := by
  unfold applyMiningKeyRotation StrandsRotation
  rw [← checkAuthority_eq_ok_iff]
  cases hauthority : checkAuthority record rotation.expectedOwnerSequence
      rotation.expectedMiningSequence rotation.signingDigest rotation.ownerSignature with
  | error e => simp [keepsOnError_error]
  | ok u =>
    cases hmining : nextSequence record.miningKeySequence with
    | none =>
      have hlast := nextSequence_eq_none.mp hmining
      have hsame : { record with miningPublicKey := rotation.newMiningPublicKey } = record ↔
          rotation.newMiningPublicKey = record.miningPublicKey :=
        (rekeyed_eq record record.ownerPublicKey _).trans (and_iff_right rfl)
      simp only [keepsOnError_error]
      tauto
    | some miningKeySequence =>
      have hnotLast := ne_lastSequence hmining
      simp [KeepsOnError.of_ok, hnotLast]

/-! ## Dividend claims -/

/-- A claim that passes its checks while the reserve does not cover it: the account is
debited before the reserve. -/
def StrandsClaim (record : LicenseRecordV1) (account : LicenseDividendAccountV1)
    (treasury : TreasuryStateV1) (claim : DividendClaimV1) (blockEpoch : UInt64) : Prop :=
  OwnerSigned record claim.expectedOwnerSequence record.miningKeySequence claim.signingDigest
      claim.ownerSignature ∧
    account.licenseId = claim.licenseId ∧ account.awardEpoch ≤ blockEpoch ∧
    blockEpoch < account.claimDeadlineEpoch ∧ claim.amountStrikes ≠ 0 ∧
    claim.amountStrikes ≤ account.claimableStrikes ∧
    treasury.reservedDividendStrikes < claim.amountStrikes

theorem keepsOnError_applyDividendClaim (record : LicenseRecordV1)
    (account : LicenseDividendAccountV1) (treasury : TreasuryStateV1) (claim : DividendClaimV1)
    (blockEpoch : UInt64) :
    KeepsOnError (applyDividendClaim record account treasury claim blockEpoch)
        (account, treasury) ↔
      ¬ StrandsClaim record account treasury claim blockEpoch := by
  unfold applyDividendClaim StrandsClaim
  dsimp only
  split
  next e hchecks =>
    rw [keepsOnError_error, iff_true_left rfl]
    rintro ⟨hsigned, hid, haward, hdeadline, hpositive, hcovered, -⟩
    have hpasses : verifyOwnerSignature record.ownerPublicKey claim.signingDigest
        claim.ownerSignature = .ok () :=
      verifyOwnerSignature_eq_ok.mpr ⟨hsigned.valid, hsigned.signed⟩
    simp [reject, bind, Except.bind, hsigned.live, hsigned.owner, hid, UInt64.not_lt.mpr haward,
      UInt64.not_le.mpr hdeadline, hpositive, UInt64.not_lt.mpr hcovered, hpasses] at hchecks
  next hchecks =>
    simp only [ok_rules, not_or, not_not, UInt64.not_lt, UInt64.not_le,
      verifyOwnerSignature_eq_ok] at hchecks
    rcases hchecks with ⟨_, hlive, _, howner, _, ⟨hid, haward, hdeadline⟩, _,
      ⟨hpositive, hcovered⟩, hvalid, hsigned⟩
    cases hreserved : treasury.reservedDividendStrikes.checkedSub claim.amountStrikes with
    | none =>
      have hshort : treasury.reservedDividendStrikes < claim.amountStrikes := by
        rw [UInt64.checkedSub, ite_eq_right_iff] at hreserved
        exact UInt64.not_le.mp fun hle => by cases hreserved hle
      -- the account is debited by a positive amount
      have hchanged : { account with
          claimableStrikes := account.claimableStrikes - claim.amountStrikes } ≠ account := by
        intro hsame
        have hsame := congrArg (fun a => a.claimableStrikes.toNat) hsame
        dsimp only at hsame
        rw [UInt64.toNat_sub_of_le _ _ hcovered] at hsame
        have hle := UInt64.le_iff_toNat_le.mp hcovered
        exact hpositive (UInt64.toNat_inj.mp (by rw [UInt64.toNat_zero]; omega))
      simp only [keepsOnError_error, Prod.mk.injEq, hchanged, false_and, false_iff, not_not]
      exact ⟨⟨hlive, howner, rfl, hvalid, hsigned⟩, hid, haward, hdeadline, hpositive, hcovered,
        hshort⟩
    | some reserved =>
      have hcovers := UInt64.checkedSub_eq_some.mp hreserved
      refine iff_of_true .of_ok ?_
      rintro ⟨-, -, -, -, -, -, hshort⟩
      have hshort := UInt64.lt_iff_toNat_lt.mp hshort
      omega

/-- A failing transfer or rotation leaves its record as it was, a failing claim its account
and the Treasury, exactly outside the cases in which a sequence that cannot grow, or a
reserve that is too small, is met after the first change; a failing offence always leaves
its record as it was. -/
theorem failed_updates_keep_arguments (record : LicenseRecordV1) (transfer : LicenseTransferV1)
    (rotation : MiningKeyRotateV1) (offenseType : UInt16) (account : LicenseDividendAccountV1)
    (treasury : TreasuryStateV1) (claim : DividendClaimV1) (epoch : UInt64) :
    (KeepsOnError (applyLicenseTransfer record transfer) record ↔
        ¬ StrandsTransfer record transfer) ∧
      (KeepsOnError (applyMiningKeyRotation record rotation) record ↔
        ¬ StrandsRotation record rotation) ∧
      KeepsOnError (applyOffenseInPlace record offenseType epoch) record ∧
      (KeepsOnError (applyDividendClaim record account treasury claim epoch)
          (account, treasury) ↔
        ¬ StrandsClaim record account treasury claim epoch) :=
  ⟨keepsOnError_applyLicenseTransfer record transfer,
    keepsOnError_applyMiningKeyRotation record rotation,
    keepsOnError_applyOffense record offenseType epoch,
    keepsOnError_applyDividendClaim record account treasury claim epoch⟩

end Authority

section Evaluation

attribute [local instance] sampleCrypto

/-- A licence whose mining key was rotated as often as it can be. -/
def spentRecord : LicenseRecordV1 where
  version := 1
  status := licenseStatusActive
  purchaseMethod := purchaseMethodBtc
  purchaseId := 1
  ownerPublicKey := 2
  ownerKeySequence := 0
  miningPublicKey := 3
  miningKeySequence := lastSequence
  issuedEpoch := 10
  activationEpoch := 74
  strikeWeight := 0
  suspendedUntilEpoch := 0
  revocationEpoch := 0

/-- Its owner sells it. -/
def spentTransfer : LicenseTransferV1 where
  licenseId := 5
  expectedOwnerSequence := 0
  expectedMiningSequence := lastSequence
  newOwnerPublicKey := 6
  newMiningPublicKey := 7
  ownerSignature := 0

/-- The transfer fails, and the record has the buyer's keys and the next owner sequence. -/
theorem failed_transfer_changes_owner :
    applyLicenseTransfer spentRecord spentTransfer =
      (.error .overflow, { spentRecord with
        ownerPublicKey := 6
        ownerKeySequence := 1
        miningPublicKey := 7 }) := by
  decide +kernel

end Evaluation

end Mutiny
