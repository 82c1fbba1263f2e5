import Mutiny.Node.Operations

/-!
# What one operation of a block does

Every operation a block applies goes through one of eight functions.  Here is which
one it was, and what the two operations on keys and the two purchases change.
-/

namespace Mutiny

open Result Lists

/-! ## Purchases -/

/-- A licence as a purchase registers it at an epoch. -/
structure IssuedAt (epoch : UInt64) (l : LicenseState) : Prop where
  status : l.status = licenseStatusPending
  ownerSequence : l.ownerKeySequence = 0
  miningSequence : l.miningKeySequence = 0
  issued : l.issuedEpoch = epoch
  activation : l.activationEpoch.toNat = epoch.toNat + activationDelayEpochs.toNat
  strikes : l.strikeWeight = 0
  suspension : l.suspendedUntilEpoch = 0
  revocation : l.revocationEpoch = 0

theorem issueLicenses_eq_ok {purchaseId : Bytes32} {purchaseMethod : UInt8} {epoch : UInt64}
    [Crypto] {licenses licenses' : List LicenseState}
    {entries : List (Bytes32 × LicenseManifestEntryV1)}
    (h : BitcoinPurchase.issueLicenses purchaseId purchaseMethod epoch licenses entries =
      .ok licenses') :
    ∃ issued, licenses' = licenses ++ issued ∧ (∀ l ∈ issued, IssuedAt epoch l) ∧
      issued.map (·.licenseId) = entries.map Prod.fst ∧
      licenses'.length ≤ max licenses.length (2 ^ 32) := by
  induction entries generalizing licenses with
  | nil =>
    rw [BitcoinPurchase.issueLicenses, List.foldlM_nil, pure_eq_ok] at h
    exact ⟨[], by rw [h, List.append_nil], by simp, rfl, h ▸ le_max_left _ _⟩
  | cons entry entries ih =>
    rw [BitcoinPurchase.issueLicenses, List.foldlM_cons, bind_eq_ok] at h
    rcases h with ⟨licenses₁, hfirst, hrest⟩
    simp only [ok_rules] at hfirst
    rcases hfirst with ⟨_, hroom, activation, hactivation, rfl⟩
    rcases ih hrest with ⟨issued, rfl, hissued, hids, hbound⟩
    refine ⟨_ :: issued, by rw [List.append_assoc, List.singleton_append], ?_, ?_, ?_⟩
    · rw [List.forall_mem_cons]
      exact ⟨⟨rfl, rfl, rfl, rfl, UInt64.checkedAdd_eq_some.mp hactivation, rfl, rfl, rfl⟩,
        hissued⟩
    · rw [List.map_cons, List.map_cons, hids]
      rfl
    · simp only [List.length_append, List.length_cons, List.length_nil] at hbound ⊢
      omega

variable {duplicate : String} {ids known' : List Bytes32}

theorem insertNewIds_eq_ok {known : List Bytes32} :
    insertNewIds duplicate known ids = .ok known' ↔
      ids.Nodup ∧ (∀ id ∈ ids, id ∉ known) ∧ known' = ids.reverse ++ known := by
  have hstep : ∀ (seen : List Bytes32) (id : Bytes32) (r : List Bytes32),
      (do
        reject (id ∈ seen) duplicate
        .ok (id :: seen)) = .ok r ↔ id ∉ seen ∧ True ∧ r = id :: seen := by
    intro seen id r
    simp only [ok_rules, exists_and_left, exists_const, true_and, eq_comm (a := r)]
  have hloop : ids.foldlM (fun seen id => do
      reject (id ∈ seen) duplicate
      .ok (id :: seen)) known = .ok known' ↔ _ := foldlM_keys hstep
  simpa [insertNewIds] using hloop

/-- The licences of the state are among the identifiers a block treats as taken. -/
def OperationRun.KnowsLicenses (run : OperationRun) : Prop :=
  ∀ l ∈ run.state.licenses, l.licenseId ∈ run.knownLicenses

/-- Licences issued under new identifiers: none of them is in the registry yet. -/
theorem issued_fresh {run : OperationRun} (hknown : run.KnowsLicenses)
    (hids : insertNewIds duplicate run.knownLicenses ids = .ok known')
    {manifests : List LicenseManifestEntryV1} {issued : List LicenseState}
    (hissued : issued.map (·.licenseId) = (ids.zip manifests).map Prod.fst) :
    (issued.map (·.licenseId)).Nodup ∧
      (∀ l ∈ issued, l.licenseId ∉ run.state.licenses.map (·.licenseId)) ∧
      ∀ l ∈ run.state.licenses ++ issued, l.licenseId ∈ known' := by
  rcases insertNewIds_eq_ok.mp hids with ⟨hnodup, hfresh, rfl⟩
  have hsub : List.Sublist (issued.map (·.licenseId)) ids := by
    rw [hissued]
    exact map_fst_zip_sublist _ _
  have hmem : ∀ l ∈ issued, l.licenseId ∈ ids := fun l hl =>
    hsub.subset (List.mem_map_of_mem hl)
  refine ⟨hnodup.sublist hsub, ?_, ?_⟩
  · intro l hl htaken
    rcases List.mem_map.mp htaken with ⟨m, hm, heq⟩
    exact hfresh _ (hmem l hl) (heq ▸ hknown m hm)
  · intro l hl
    rw [List.mem_append, List.mem_reverse]
    rcases List.mem_append.mp hl with hold | hnew
    · exact Or.inr (hknown l hold)
    · exact Or.inl (hmem l hnew)

/-- A purchase appends new licences and records its payment. -/
structure Issues (s : DevnetState) (epoch : UInt64) (s' : DevnetState) : Prop where
  result : ∃ issued native bitcoin, (∀ l ∈ issued, IssuedAt epoch l) ∧
    (issued.map (·.licenseId)).Nodup ∧
    (∀ l ∈ issued, l.licenseId ∉ s.licenses.map (·.licenseId)) ∧
    s' = { s with
      licenses := s.licenses ++ issued
      consumedNativePayments := native
      consumedBitcoinPayments := bitcoin }
  bounded : s'.licenses.length ≤ max s.licenses.length (2 ^ 32)

/-! ## Changes of keys -/

/-- A licence with its keys, their sequences and its address taken from another. -/
def LicenseState.withKeys (l k : LicenseState) : LicenseState :=
  { l with
    ownerPublicKey := k.ownerPublicKey
    ownerKeySequence := k.ownerKeySequence
    miningPublicKey := k.miningPublicKey
    miningKeySequence := k.miningKeySequence
    paymentAddressId := k.paymentAddressId }

/-- The entry that records the keys of a licence before an operation. -/
def LicenseState.keyEntry (l : LicenseState) (operationId licenseId : Bytes32) :
    HistoricalLicenseKeyState where
  operationId := operationId
  licenseIdText := .encode licenseId
  ownerPublicKey := l.ownerPublicKey
  ownerKeySequence := l.ownerKeySequence
  miningPublicKey := l.miningPublicKey
  miningKeySequence := l.miningKeySequence

section Steps

variable [Crypto]

/-- A transfer or a rotation gives a licence that is not revoked new keys and records
the old ones. -/
structure KeyChange (s : DevnetState) (op : ProtocolOperationV1) (id : Bytes32)
    (old new : LicenseState) (s' : DevnetState) : Prop where
  found : s.findLicense id = some old
  live : old.status ≠ licenseStatusRevoked
  others : new = old.withKeys new
  mining : new.miningKeySequence.toNat = old.miningKeySequence.toNat + 1
  fresh : ∀ h ∈ s.historicalLicenseKeys, h.operationId ≠ op.operationId
  result : s' = { s with
    licenses := updateFirst (fun l => l.licenseIdText == .encode id) (·.withKeys new) s.licenses
    historicalLicenseKeys := sortByKey HistoricalLicenseKeyState.operationId
      (s.historicalLicenseKeys ++ [old.keyEntry op.operationId id]) }

/-- A transfer gives both keys away; it speaks of the current sequences. -/
structure TransferStep (s : DevnetState) (op : ProtocolOperationV1) (t : LicenseTransferV1)
    (old new : LicenseState) (s' : DevnetState) : Prop extends
    KeyChange s op t.licenseId old new s' where
  operation : op = t.operation
  expected : t.expectedOwnerSequence = old.ownerKeySequence ∧
    t.expectedMiningSequence = old.miningKeySequence
  owner : new.ownerKeySequence.toNat = old.ownerKeySequence.toNat + 1
  keys : new.ownerPublicKey = t.newOwnerPublicKey ∧ new.miningPublicKey = t.newMiningPublicKey

/-- A rotation replaces the mining key; it speaks of the current sequences. -/
structure RotationStep (s : DevnetState) (op : ProtocolOperationV1) (r : MiningKeyRotateV1)
    (old new : LicenseState) (s' : DevnetState) : Prop extends
    KeyChange s op r.licenseId old new s' where
  operation : op = r.operation
  expected : r.expectedOwnerSequence = old.ownerKeySequence ∧
    r.expectedMiningSequence = old.miningKeySequence
  owner : new.ownerKeySequence = old.ownerKeySequence ∧
    new.ownerPublicKey = old.ownerPublicKey
  keys : new.miningPublicKey = r.newMiningPublicKey

omit [Crypto] in
theorem nextSequence_eq_some {a b : UInt32} :
    nextSequence a = some b ↔ b.toNat = a.toNat + 1 := by
  rw [nextSequence, UInt32.checkedAdd_eq_some]
  rfl

variable {record : LicenseRecordV1}

theorem checkAuthority_eq_ok {ownerSequence miningSequence : UInt32} {digest : Bytes32}
    {signature : Bytes64}
    (h : checkAuthority record ownerSequence miningSequence digest signature = .ok ()) :
    record.status ≠ licenseStatusRevoked ∧ record.ownerKeySequence = ownerSequence ∧
      record.miningKeySequence = miningSequence := by
  simp only [checkAuthority, ok_rules, not_not] at h
  rcases h with ⟨_, hlive, _, howner, _, hmining, -⟩
  exact ⟨hlive, howner, hmining⟩

variable {historical : HistoricalLicenseKeysV1}

theorem applyLicenseTransfer_eq_ok {t : LicenseTransferV1}
    (h : (applyLicenseTransfer record t).1 = .ok historical) :
    record.status ≠ licenseStatusRevoked ∧ record.ownerKeySequence = t.expectedOwnerSequence ∧
      record.miningKeySequence = t.expectedMiningSequence ∧ historical = record.historicalKeys ∧
      ∃ ownerSequence miningSequence : UInt32,
        ownerSequence.toNat = record.ownerKeySequence.toNat + 1 ∧
        miningSequence.toNat = record.miningKeySequence.toNat + 1 ∧
        (applyLicenseTransfer record t).2 = { record with
          ownerPublicKey := t.newOwnerPublicKey
          ownerKeySequence := ownerSequence
          miningPublicKey := t.newMiningPublicKey
          miningKeySequence := miningSequence } := by
  unfold applyLicenseTransfer at h ⊢
  cases hauthority : checkAuthority record t.expectedOwnerSequence t.expectedMiningSequence
      t.signingDigest t.ownerSignature with
  | error e => simp [hauthority] at h
  | ok u =>
    cases howner : nextSequence record.ownerKeySequence with
    | none => simp [hauthority, howner] at h
    | some ownerSequence =>
      cases hmining : nextSequence record.miningKeySequence with
      | none => simp [hauthority, howner, hmining] at h
      | some miningSequence =>
        simp only [hauthority, howner, hmining, Except.ok.injEq] at h
        rcases checkAuthority_eq_ok hauthority with ⟨hlive, hos, hms⟩
        exact ⟨hlive, hos, hms, h.symm, ownerSequence, miningSequence,
          nextSequence_eq_some.mp howner, nextSequence_eq_some.mp hmining, rfl⟩

theorem applyMiningKeyRotation_eq_ok {r : MiningKeyRotateV1}
    (h : (applyMiningKeyRotation record r).1 = .ok historical) :
    record.status ≠ licenseStatusRevoked ∧ record.ownerKeySequence = r.expectedOwnerSequence ∧
      record.miningKeySequence = r.expectedMiningSequence ∧ historical = record.historicalKeys ∧
      ∃ miningSequence : UInt32, miningSequence.toNat = record.miningKeySequence.toNat + 1 ∧
        (applyMiningKeyRotation record r).2 = { record with
          miningPublicKey := r.newMiningPublicKey
          miningKeySequence := miningSequence } := by
  unfold applyMiningKeyRotation at h ⊢
  cases hauthority : checkAuthority record r.expectedOwnerSequence r.expectedMiningSequence
      r.signingDigest r.ownerSignature with
  | error e => simp [hauthority] at h
  | ok u =>
    cases hmining : nextSequence record.miningKeySequence with
    | none => simp [hauthority, hmining] at h
    | some miningSequence =>
      simp only [hauthority, hmining, Except.ok.injEq] at h
      rcases checkAuthority_eq_ok hauthority with ⟨hlive, hos, hms⟩
      exact ⟨hlive, hos, hms, h.symm, miningSequence, nextSequence_eq_some.mp hmining, rfl⟩

variable {run run' : OperationRun} {txs : List TransactionV1}

omit [Crypto] in
/-- The licence a transfer or a rotation is about, once its fee ticket is taken. -/
theorem takeFeeTicket_eq_ok {id : Bytes32} {unknown missing : String} {l : LicenseState}
    (h : takeFeeTicket run txs id unknown missing = .ok (l, run')) :
    run.state.findLicense id = some l ∧ run'.state = run.state ∧
      run'.knownLicenses = run.knownLicenses := by
  simp only [takeFeeTicket, ok_rules, Prod.mk.injEq] at h
  rcases h with ⟨_, -, l', hfound, _, -, rfl, rfl⟩
  exact ⟨hfound, rfl, rfl⟩

variable {s s' : DevnetState} {op : ProtocolOperationV1}

theorem storeHistoricalKeys_eq_ok {id : Bytes32} {l : LicenseState}
    (h : storeHistoricalKeys s op id l.record.historicalKeys = .ok s') :
    (∀ h ∈ s.historicalLicenseKeys, h.operationId ≠ op.operationId) ∧
      s' = { s with
        historicalLicenseKeys := sortByKey HistoricalLicenseKeyState.operationId
          (s.historicalLicenseKeys ++ [l.keyEntry op.operationId id]) } := by
  simp only [storeHistoricalKeys, ok_rules, List.any_eq_true, beq_iff_eq, not_exists, not_and] at h
  rcases h with ⟨_, hfresh, rfl⟩
  exact ⟨hfresh, rfl⟩

theorem transferStep_of_ok (h : applyTransfer run txs op = .ok run') :
    run'.knownLicenses = run.knownLicenses ∧
      ∃ t old new, TransferStep run.state op t old new run'.state := by
  simp only [applyTransfer, ok_rules] at h
  rcases h with ⟨t, hop, ⟨old, run₁⟩, hticket, historical, htransfer, s₁, hstore, rfl⟩
  rcases takeFeeTicket_eq_ok hticket with ⟨hfound, hstate, hknown⟩
  rcases applyLicenseTransfer_eq_ok htransfer with
    ⟨hlive, hos, hms, rfl, ownerSequence, miningSequence, hos', hms', hrecord⟩
  dsimp only at hstore hrecord
  simp only [hrecord, hstate] at hstore
  rcases storeHistoricalKeys_eq_ok hstore with ⟨hfresh, rfl⟩
  let new : LicenseState := { old with
    ownerPublicKey := t.newOwnerPublicKey
    ownerKeySequence := ownerSequence
    miningPublicKey := t.newMiningPublicKey
    miningKeySequence := miningSequence
    paymentAddressId := addressId t.newOwnerPublicKey }
  exact ⟨hknown, t, old, new,
    { found := hfound
      live := hlive
      others := rfl
      mining := hms'
      fresh := hfresh
      result := rfl
      operation := decodeLicenseTransferOperation_eq_ok.mp hop
      expected := ⟨hos.symm, hms.symm⟩
      owner := hos'
      keys := ⟨rfl, rfl⟩ }⟩

theorem rotationStep_of_ok (h : applyRotation run txs op = .ok run') :
    run'.knownLicenses = run.knownLicenses ∧
      ∃ r old new, RotationStep run.state op r old new run'.state := by
  simp only [applyRotation, ok_rules] at h
  rcases h with ⟨r, hop, ⟨old, run₁⟩, hticket, historical, hrotation, s₁, hstore, rfl⟩
  rcases takeFeeTicket_eq_ok hticket with ⟨hfound, hstate, hknown⟩
  rcases applyMiningKeyRotation_eq_ok hrotation with
    ⟨hlive, hos, hms, rfl, miningSequence, hms', hrecord⟩
  dsimp only at hstore hrecord
  simp only [hrecord, hstate] at hstore
  rcases storeHistoricalKeys_eq_ok hstore with ⟨hfresh, rfl⟩
  let new : LicenseState := { old with
    miningPublicKey := r.newMiningPublicKey
    miningKeySequence := miningSequence }
  -- the source writes the mining fields only, which on this licence is the same
  have hsame : updateFirst (fun l => l.licenseIdText == .encode r.licenseId)
      (fun l => { l with
        miningPublicKey := r.newMiningPublicKey
        miningKeySequence := miningSequence }) run.state.licenses =
      updateFirst (fun l => l.licenseIdText == .encode r.licenseId) (·.withKeys new) run.state.licenses := by
    apply updateFirst_congr
    intro l hl
    have hold : some l = some old := hl.symm.trans hfound
    cases hold
    rfl
  exact ⟨hknown, r, old, new,
    { found := hfound
      live := hlive
      others := rfl
      mining := hms'
      fresh := hfresh
      result := by rw [← hsame]
      operation := decodeMiningKeyRotationOperation_eq_ok.mp hop
      expected := ⟨hos.symm, hms.symm⟩
      owner := ⟨rfl, rfl⟩
      keys := rfl }⟩

/-! ## Evidence and claims -/

omit [Crypto] in
theorem opType_of_evidence {e : PunishmentEvidenceV1} (h : decodePunishmentOperation op = .ok e) :
    op.opType = opPunishmentEvidence := by
  simp only [decodePunishmentOperation, ok_rules, not_or, not_not] at h
  rcases h with ⟨_, ⟨htype, -⟩, -⟩
  exact htype

omit [Crypto] in
theorem opType_of_claim {c : DividendClaimV1} (h : Dividends.decodeClaimOperation op = .ok c) :
    op.opType = opDividendClaim := by
  simp only [Dividends.decodeClaimOperation, ok_rules, not_or, not_not] at h
  rcases h with ⟨_, ⟨htype, -⟩, -⟩
  exact htype

/-- An offence of some weight at an epoch, on a licence: at the threshold it is revoked
for good, below it the weight grows. -/
inductive Offended (old : LicenseState) (weight : UInt8) (epoch : UInt64)
    (record : LicenseRecordV1) : Prop
  | revoked (hsum : 16 ≤ old.strikeWeight.toNat + weight.toNat)
      (hstatus : record.status = licenseStatusRevoked)
      (hweight : record.strikeWeight = revocationThreshold)
      (hepoch : record.revocationEpoch = epoch)
      (hsuspended : record.suspendedUntilEpoch = old.suspendedUntilEpoch)
  | suspended (hsum : old.strikeWeight.toNat + weight.toNat < 16)
      (hstatus : record.status = old.status)
      (hweight : record.strikeWeight.toNat = old.strikeWeight.toNat + weight.toNat)
      (hepoch : record.revocationEpoch = old.revocationEpoch)

/-- Accepted evidence is new, proves its offence, and punishes a licence that is not
revoked yet. -/
structure EvidenceStep (s : DevnetState) (op : ProtocolOperationV1) (epoch : UInt64)
    (evidence : PunishmentEvidenceV1) (old : LicenseState) (event : OffenseEventState)
    (record : LicenseRecordV1) (s' : DevnetState) : Prop where
  operation : decodePunishmentOperation op = .ok evidence
  unconsumed : evidence.evidenceId ∉ s.consumedEvidence
  proves : validateObjectiveEvidence s evidence = .ok true
  found : s.findLicense evidence.accusedLicenseId = some old
  live : old.status ≠ licenseStatusRevoked
  identifier : event.evidenceId = evidence.evidenceId
  accused : event.licenseIdText = .encode evidence.accusedLicenseId
  offense : event.offenseType = evidence.offenseType
  weight : offenseWeight evidence.offenseType = .ok event.weight
  applied : event.appliedEpoch = epoch
  expiry : epoch.checkedAdd strikeDecayEpochs = some event.expiryEpoch
  punished : Offended old event.weight epoch record
  result : s' = { s with
    licenses := updateFirst (fun l => l.licenseIdText == .encode evidence.accusedLicenseId)
      (Punishment.setOffenseFields record) s.licenses
    consumedEvidence := sortByKey id (s.consumedEvidence ++ [evidence.evidenceId])
    offenseEvents := sortByKey OffenseEventState.evidenceId (s.offenseEvents ++ [event]) }

variable {epoch : UInt64}

omit [Crypto] in
theorem offended_of_ok {old : LicenseState} {offenseType : UInt16} {weight : UInt8}
    {applied : OffenseApplicationV1} (hweight : offenseWeight offenseType = .ok weight)
    (h : applyOffense old.record offenseType epoch = .ok (applied, record)) :
    old.status ≠ licenseStatusRevoked ∧
      epoch.checkedAdd strikeDecayEpochs = some applied.offenseExpiryEpoch ∧
      Offended old weight epoch record := by
  simp only [applyOffense, ok_rules, hweight, exists_eq_left'] at h
  rcases h with ⟨_, hlive, _, hbound, expiry, hexpiry, h⟩
  have hsum : (old.strikeWeight + weight).toNat = old.strikeWeight.toNat + weight.toNat := by
    have hlt : old.strikeWeight.toNat + weight.toNat < 256 := not_le.mp hbound
    rw [UInt8.toNat_add, Nat.mod_eq_of_lt hlt]
  have hreaches : revocationThreshold ≤ old.record.strikeWeight + weight ↔
      16 ≤ old.strikeWeight.toNat + weight.toNat := by
    rw [UInt8.le_iff_toNat_le, ← hsum]
    rfl
  by_cases hrevoked : 16 ≤ old.strikeWeight.toNat + weight.toNat
  · rw [if_pos (hreaches.mpr hrevoked)] at h
    cases h
    exact ⟨hlive, hexpiry, .revoked hrevoked rfl rfl rfl rfl⟩
  · rw [if_neg (fun hle => hrevoked (hreaches.mp hle))] at h
    simp only [ok_rules, Prod.mk.injEq] at h
    rcases h with ⟨suspendedUntil, -, rfl, rfl⟩
    exact ⟨hlive, hexpiry, .suspended (not_le.mp hrevoked) rfl hsum rfl⟩

theorem evidenceStep_of_ok (h : Punishment.applyOperation s op epoch = .ok s') :
    ∃ evidence old event record, EvidenceStep s op epoch evidence old event record s' := by
  simp only [Punishment.applyOperation, ok_rules, Bool.not_eq_false] at h
  rcases h with ⟨evidence, hop, _, hnew, ready, hproves, _, rfl, old, hfound, _, hlive, weight,
    hweight, ⟨applied, record⟩, hoffense, rfl⟩
  rcases offended_of_ok hweight hoffense with ⟨-, hexpiry, hpunished⟩
  exact ⟨evidence, old, _, record,
    { operation := hop
      unconsumed := hnew
      proves := hproves
      found := hfound
      live := hlive
      identifier := rfl
      accused := rfl
      offense := rfl
      weight := hweight
      applied := rfl
      expiry := hexpiry
      punished := hpunished
      result := rfl }⟩

/-- An accepted claim lowers its account and the reserve by the same amount; its
payment is a transaction of the block. -/
structure ClaimStep (s : DevnetState) (txs : List TransactionV1) (op : ProtocolOperationV1)
    (epoch : UInt64) (claim : DividendClaimV1) (license : LicenseState)
    (account : DividendAccountState) (reserved : UInt64) (s' : DevnetState) : Prop where
  operation : Dividends.decodeClaimOperation op = .ok claim
  payment : ∃ tx ∈ txs.drop 1, tx.txid = claim.paymentTxid
  found : s.findLicense claim.licenseId = some license
  live : license.status ≠ licenseStatusRevoked
  held : s.dividendAccounts.find? (fun a => a.licenseIdText == license.licenseIdText) = some account
  window : account.awardEpoch ≤ epoch ∧ epoch < account.claimDeadlineEpoch
  positive : claim.amountStrikes ≠ 0
  covered : claim.amountStrikes ≤ account.claimableStrikes
  debited : s.treasuryReservedDividendStrikes.checkedSub claim.amountStrikes = some reserved
  result : s' = { s with
    dividendAccounts := updateFirst (fun a => a.licenseIdText == license.licenseIdText)
      (·.updateFrom { account.account with
        claimableStrikes := account.claimableStrikes - claim.amountStrikes }) s.dividendAccounts
    treasuryReservedDividendStrikes := reserved }

theorem applyDividendClaim_eq_ok {account : LicenseDividendAccountV1} {treasury : TreasuryStateV1}
    {claim : DividendClaimV1}
    (h : (applyDividendClaim record account treasury claim epoch).1 = .ok ()) :
    record.status ≠ licenseStatusRevoked ∧ account.awardEpoch ≤ epoch ∧
      epoch < account.claimDeadlineEpoch ∧ claim.amountStrikes ≠ 0 ∧
      claim.amountStrikes ≤ account.claimableStrikes ∧
      ∃ reserved,
        treasury.reservedDividendStrikes.checkedSub claim.amountStrikes = some reserved ∧
        (applyDividendClaim record account treasury claim epoch).2 =
          ({ account with claimableStrikes := account.claimableStrikes - claim.amountStrikes },
            { treasury with reservedDividendStrikes := reserved }) := by
  unfold applyDividendClaim at h ⊢
  dsimp only at h ⊢
  split at h
  · cases h
  · rename_i _ hchecks
    simp only [ok_rules, not_or, UInt64.not_lt, UInt64.not_le, not_not] at hchecks
    rcases hchecks with ⟨_, hlive, _, -, _, ⟨-, haward, hdeadline⟩, _, ⟨hpositive, hcovered⟩, -⟩
    cases hreserved : treasury.reservedDividendStrikes.checkedSub claim.amountStrikes with
    | none => simp [hreserved] at h
    | some reserved =>
      rw [hreserved] at h
      exact ⟨hlive, haward, hdeadline, hpositive, hcovered, reserved, rfl, by simp [*]⟩

theorem claimStep_of_ok (h : Dividends.applyOperation s txs op epoch = .ok s') :
    ∃ claim license account reserved,
      ClaimStep s txs op epoch claim license account reserved s' := by
  simp only [Dividends.applyOperation, ok_rules] at h
  rcases h with ⟨claim, hop, _, hpayment, license, hfound, account, haccount, _, happly, rfl⟩
  rcases applyDividendClaim_eq_ok happly with
    ⟨hlive, haward, hdeadline, hpositive, hcovered, reserved, hreserved, hresult⟩
  have hpayment' : ∃ tx ∈ txs.drop 1, tx.txid = claim.paymentTxid := by simpa using hpayment
  exact ⟨claim, license, account, reserved,
    { operation := hop
      payment := hpayment'
      found := hfound
      live := hlive
      held := haccount
      window := ⟨haward, hdeadline⟩
      positive := hpositive
      covered := hcovered
      debited := hreserved
      result := by
        simp only [hresult]
        rfl }⟩

/-! ## The eight kinds -/

/-- One operation of a block, applied to a state. -/
inductive OperationStep (txs : List TransactionV1) (epoch : UInt64) (s : DevnetState)
    (op : ProtocolOperationV1) (s' : DevnetState) : Prop
  | headers (htype : op.opType = opBitcoinHeaders)
      (h : BitcoinHeaders.applyOperation s op epoch = .ok s')
  | purchase (htype : op.opType = opLicensePurchaseBtc ∨ op.opType = opLicensePurchaseMut)
      (h : Issues s epoch s')
  | transfer (t : LicenseTransferV1) (old new : LicenseState)
      (h : TransferStep s op t old new s')
  | rotation (r : MiningKeyRotateV1) (old new : LicenseState)
      (h : RotationStep s op r old new s')
  | evidence (e : PunishmentEvidenceV1) (old : LicenseState) (event : OffenseEventState)
      (record : LicenseRecordV1) (h : EvidenceStep s op epoch e old event record s')
  | claim (c : DividendClaimV1) (license : LicenseState) (account : DividendAccountState)
      (reserved : UInt64) (h : ClaimStep s txs op epoch c license account reserved s')
  | presence (htype : op.opType = opMiningPresence)
      (h : Presence.applyValidatedOperation s op = .ok s')

theorem issues_of_bitcoinPurchase (hknown : run.KnowsLicenses)
    (h : applyBitcoinPurchase run op epoch = .ok run') :
    Issues run.state epoch run'.state ∧ run'.KnowsLicenses := by
  simp only [applyBitcoinPurchase, BitcoinPurchase.applyOperation, ok_rules] at h
  rcases h with ⟨context, hcontext, s', ⟨context', hcontext', licenses, hissue, rfl⟩, known, hids,
    rfl⟩
  rw [hcontext, Except.ok.injEq] at hcontext'
  subst hcontext'
  rcases issueLicenses_eq_ok hissue with ⟨issued, rfl, hissued, hmap, hbound⟩
  rcases issued_fresh hknown hids hmap with ⟨hnodup, hnew, hknown'⟩
  exact ⟨⟨⟨issued, run.state.consumedNativePayments, _, hissued, hnodup, hnew, rfl⟩, hbound⟩,
    hknown'⟩

theorem issues_of_nativePurchase (hknown : run.KnowsLicenses)
    (h : applyNativePurchase run txs op epoch = .ok run') :
    Issues run.state epoch run'.state ∧ run'.KnowsLicenses := by
  simp only [applyNativePurchase, ok_rules] at h
  rcases h with ⟨purchase, -, _, -, _, -, _, -, _, -, _, -, _, -, _, -, _, -, _, -, _, -, known,
    hids, licenses, hissue, rfl⟩
  rcases issueLicenses_eq_ok hissue with ⟨issued, rfl, hissued, hmap, hbound⟩
  rcases issued_fresh hknown hids hmap with ⟨hnodup, hnew, hknown'⟩
  exact ⟨⟨⟨issued, _, run.state.consumedBitcoinPayments, hissued, hnodup, hnew, rfl⟩, hbound⟩,
    hknown'⟩

theorem licenses_headers (h : BitcoinHeaders.applyOperation s op epoch = .ok s') :
    ∃ headers best, s' = { s with bitcoinHeaders := headers, bitcoinBestChain := best } := by
  simp only [BitcoinHeaders.applyOperation, ok_rules] at h
  rcases h with ⟨_, -, _, -, policy, -, batch, -, _, -, _, -, _, -, ⟨headers, best⟩, -, _, -, rfl⟩
  exact ⟨_, best, rfl⟩

theorem presence_eq_ok (h : Presence.applyValidatedOperation s op = .ok s') :
    ∃ presences, s' = { s with miningPresence := presences } := by
  simp only [Presence.applyValidatedOperation, ok_rules] at h
  rcases h with ⟨presence, -, rfl⟩
  exact ⟨_, rfl⟩

/-- Operations do not move the tip. -/
theorem OperationStep.tipEpoch (h : OperationStep txs epoch s op s') :
    s'.tipEpoch = s.tipEpoch := by
  cases h with
  | headers htype h =>
    rcases licenses_headers h with ⟨headers, best, rfl⟩
    rfl
  | purchase htype h =>
    rcases h.result with ⟨issued, native, bitcoin, -, -, -, rfl⟩
    rfl
  | transfer t old new h => rw [h.result]
  | rotation r old new h => rw [h.result]
  | evidence e old event record h => rw [h.result]
  | claim c license account reserved h => rw [h.result]
  | presence htype h =>
    rcases presence_eq_ok h with ⟨presences, rfl⟩
    rfl

/-- The registry only grows: an operation keeps the identifiers in order, and a
purchase appends new ones. -/
theorem OperationStep.licenseIds (h : OperationStep txs epoch s op s') :
    s'.licenses.map (·.licenseIdText) = s.licenses.map (·.licenseIdText) ∨
      (op.opType = opLicensePurchaseBtc ∨ op.opType = opLicensePurchaseMut) ∧
        Issues s epoch s' := by
  cases h with
  | headers htype h =>
    rcases licenses_headers h with ⟨headers, best, rfl⟩
    exact Or.inl rfl
  | purchase htype h => exact Or.inr ⟨htype, h⟩
  | transfer t old new h =>
    rw [h.result]
    exact Or.inl (map_key_updateFirst (f := (·.withKeys new)) (fun _ => rfl) s.licenses)
  | rotation r old new h =>
    rw [h.result]
    exact Or.inl (map_key_updateFirst (f := (·.withKeys new)) (fun _ => rfl) s.licenses)
  | evidence e old event record h =>
    rw [h.result]
    exact Or.inl (map_key_updateFirst (f := Punishment.setOffenseFields record)
      (fun _ => rfl) s.licenses)
  | claim c license account reserved h =>
    rw [h.result]
    exact Or.inl rfl
  | presence htype h =>
    rcases presence_eq_ok h with ⟨presences, rfl⟩
    exact Or.inl rfl

theorem OperationStep.licenseIds_of_not_purchase (h : OperationStep txs epoch s op s')
    (hbitcoin : op.opType ≠ opLicensePurchaseBtc) (hnative : op.opType ≠ opLicensePurchaseMut) :
    s'.licenses.map (·.licenseId) = s.licenses.map (·.licenseId) := by
  rcases h.licenseIds with hsame | ⟨hbuys | hbuys, -⟩
  · rw [LicenseState.map_licenseId, hsame, ← LicenseState.map_licenseId]
  · exact absurd hbuys hbitcoin
  · exact absurd hbuys hnative

theorem OperationStep.nodup_licenseIds (h : OperationStep txs epoch s op s')
    (hs : (s.licenses.map (·.licenseId)).Nodup) : (s'.licenses.map (·.licenseId)).Nodup := by
  rcases h.licenseIds with hsame | ⟨-, hissues⟩
  · rwa [LicenseState.map_licenseId, hsame, ← LicenseState.map_licenseId]
  · rcases hissues.result with ⟨issued, native, bitcoin, -, hnodup, hnew, rfl⟩
    rw [List.map_append, List.nodup_append']
    refine ⟨hs, hnodup, ?_⟩
    intro id hold hissued
    rcases List.mem_map.mp hissued with ⟨l, hl, rfl⟩
    exact hnew l hl hold

theorem OperationStep.licenses_subset (h : OperationStep txs epoch s op s') :
    s.licenses.map (·.licenseIdText) ⊆ s'.licenses.map (·.licenseIdText) ∧
      s'.licenses.length ≤ max s.licenses.length (2 ^ 32) := by
  rcases h.licenseIds with hsame | ⟨-, hissues⟩
  · have hlength := congrArg List.length hsame
    rw [List.length_map, List.length_map] at hlength
    exact ⟨hsame ▸ List.Subset.refl _, hlength ▸ le_max_left _ _⟩
  · refine ⟨?_, hissues.bounded⟩
    rcases hissues.result with ⟨issued, native, bitcoin, -, -, -, rfl⟩
    rw [List.map_append]
    exact List.subset_append_left _ _

omit [Crypto] in
/-- A run that knows the licences still knows them when none is added. -/
theorem OperationRun.KnowsLicenses.of_same (h : run.KnowsLicenses)
    (hids : run'.state.licenses.map (·.licenseId) = run.state.licenses.map (·.licenseId))
    (hknown : run'.knownLicenses = run.knownLicenses) : run'.KnowsLicenses := by
  intro l hl
  have hmem : l.licenseId ∈ run.state.licenses.map (·.licenseId) :=
    hids ▸ List.mem_map_of_mem hl
  rcases List.mem_map.mp hmem with ⟨m, hm, heq⟩
  rw [hknown, ← heq]
  exact h m hm

/-- An operation that a block applies is one of the eight kinds; new licences have
identifiers no other licence has. -/
theorem operationStep_of_ok (hknown : run.KnowsLicenses)
    (h : applyProtocolOperation txs epoch run op = .ok run') :
    OperationStep txs epoch run.state op run'.state ∧ run'.KnowsLicenses := by
  have hinState : ∀ next : Except String DevnetState,
      next.map (fun s => { run with state := s }) = .ok run' →
        next = .ok run'.state ∧ run'.knownLicenses = run.knownLicenses := by
    intro next hnext
    cases next with
    | error e => cases hnext
    | ok s =>
      cases hnext
      exact ⟨rfl, rfl⟩
  -- outside the purchases the identifiers stay as they are
  have hkeeps : op.opType ≠ opLicensePurchaseBtc → op.opType ≠ opLicensePurchaseMut →
      run'.knownLicenses = run.knownLicenses → OperationStep txs epoch run.state op run'.state →
      OperationStep txs epoch run.state op run'.state ∧ run'.KnowsLicenses := by
    intro hbitcoin hnative hsame hstep
    exact ⟨hstep, hknown.of_same (hstep.licenseIds_of_not_purchase hbitcoin hnative) hsame⟩
  simp only [applyProtocolOperation, bind_eq_ok] at h
  rcases h with ⟨_, -, h⟩
  by_cases hheaders : op.opType = opBitcoinHeaders
  · rw [if_pos hheaders] at h
    rcases hinState _ h with ⟨hs, hsame⟩
    exact hkeeps (by rw [hheaders]; decide) (by rw [hheaders]; decide) hsame
      (.headers hheaders hs)
  rw [if_neg hheaders] at h
  by_cases hbitcoin : op.opType = opLicensePurchaseBtc
  · rw [if_pos hbitcoin] at h
    rcases issues_of_bitcoinPurchase hknown h with ⟨hissues, hknown'⟩
    exact ⟨.purchase (Or.inl hbitcoin) hissues, hknown'⟩
  rw [if_neg hbitcoin] at h
  by_cases hnative : op.opType = opLicensePurchaseMut
  · rw [if_pos hnative] at h
    rcases issues_of_nativePurchase hknown h with ⟨hissues, hknown'⟩
    exact ⟨.purchase (Or.inr hnative) hissues, hknown'⟩
  rw [if_neg hnative] at h
  have hkeeps := hkeeps hbitcoin hnative
  by_cases htransfer : op.opType = opLicenseTransfer
  · rw [if_pos htransfer] at h
    rcases transferStep_of_ok h with ⟨hsame, t, old, new, hstep⟩
    exact hkeeps hsame (.transfer t old new hstep)
  rw [if_neg htransfer] at h
  by_cases hrotation : op.opType = opLicenseMiningKeyRotate
  · rw [if_pos hrotation] at h
    rcases rotationStep_of_ok h with ⟨hsame, r, old, new, hstep⟩
    exact hkeeps hsame (.rotation r old new hstep)
  rw [if_neg hrotation] at h
  by_cases hevidence : op.opType = opPunishmentEvidence
  · rw [if_pos hevidence] at h
    rcases hinState _ h with ⟨hs, hsame⟩
    rcases evidenceStep_of_ok hs with ⟨e, old, event, record, hstep⟩
    exact hkeeps hsame (.evidence e old event record hstep)
  rw [if_neg hevidence] at h
  by_cases hclaim : op.opType = opDividendClaim
  · rw [if_pos hclaim] at h
    rcases hinState _ h with ⟨hs, hsame⟩
    rcases claimStep_of_ok hs with ⟨c, license, account, reserved, hstep⟩
    exact hkeeps hsame (.claim c license account reserved hstep)
  rw [if_neg hclaim] at h
  by_cases hpresence : op.opType = opMiningPresence
  · rw [if_pos hpresence] at h
    rcases hinState _ h with ⟨hs, hsame⟩
    exact hkeeps hsame (.presence hpresence hs)
  rw [if_neg hpresence] at h
  cases h

/-- Operations applied one after the other. -/
inductive OperationSteps (txs : List TransactionV1) (epoch : UInt64) :
    DevnetState → List ProtocolOperationV1 → DevnetState → Prop
  | nil (s : DevnetState) : OperationSteps txs epoch s [] s
  | cons {s s₁ s' : DevnetState} {op : ProtocolOperationV1} {ops : List ProtocolOperationV1}
      (head : OperationStep txs epoch s op s₁) (tail : OperationSteps txs epoch s₁ ops s') :
      OperationSteps txs epoch s (op :: ops) s'

variable {ops : List ProtocolOperationV1}

theorem OperationSteps.tipEpoch (h : OperationSteps txs epoch s ops s') :
    s'.tipEpoch = s.tipEpoch := by
  induction h with
  | nil s => rfl
  | cons head _ ih => exact ih.trans head.tipEpoch

theorem operationSteps_of_ok (hknown : run.KnowsLicenses)
    (h : ops.foldlM (applyProtocolOperation txs epoch) run = .ok run') :
    OperationSteps txs epoch run.state ops run'.state := by
  induction ops generalizing run with
  | nil =>
    rw [List.foldlM_nil, pure_eq_ok] at h
    rw [h]
    exact .nil _
  | cons op ops ih =>
    rw [List.foldlM_cons, bind_eq_ok] at h
    rcases h with ⟨run₁, hhead, htail⟩
    rcases operationStep_of_ok hknown hhead with ⟨hstep, hknown₁⟩
    exact .cons hstep (ih hknown₁ htail)

/-- The operations of a block are applied one after the other; then the consumed
native payments are put in order. -/
theorem applyProtocolOperations_steps (h : applyProtocolOperations s txs ops epoch = .ok s') :
    Presence.prevalidateBlockOperations s ops epoch = .ok () ∧
      ∃ s₁, OperationSteps txs epoch s ops s₁ ∧
        s' = { s₁ with
          consumedNativePayments := (sortByKey id s₁.consumedNativePayments).eraseReps } := by
  simp only [applyProtocolOperations, ok_rules] at h
  rcases h with ⟨_, hpresence, run, hrun, _, -, rfl⟩
  refine ⟨hpresence, run.state, operationSteps_of_ok ?_ hrun, rfl⟩
  exact fun l hl => List.mem_map_of_mem hl

end Steps

end Mutiny
