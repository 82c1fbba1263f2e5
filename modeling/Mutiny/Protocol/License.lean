import Mutiny.Protocol.Decode

/-!
# Licences under operations

Identifiers and signing digests of operations, and what a transfer, a key
rotation, an offence and a dividend claim do to the record of a licence.  A
function that changes its arguments returns their final values with its result,
also when it fails.
-/

namespace Mutiny

open Result

section Digests

variable [Crypto]

def ProtocolOperationV1.operationId (op : ProtocolOperationV1) : Bytes32 :=
  sha256Domain Domains.protocolOpId [op.encode]

/-- The digest an operation signs. -/
def operationSigningDigest (opType opVersion : UInt16) (unsignedPayload : Bytes) : Bytes32 :=
  sha256Domain Domains.protocolOpSign
    [Bytes.u16 opType ++ (Bytes.u16 opVersion ++ encodeVar unsignedPayload)]

/-- A signature is checked. -/
def verifyOwnerSignature (publicKey digest : Bytes32) (signature : Bytes64) :
    Except ProtocolError Unit := do
  reject (Crypto.validPublicKey publicKey = false) .invalidSignature
  reject (Crypto.verify publicKey (Bytes.b32 digest) signature = false) .invalidSignature

def MutLicenseManifestV1.manifestHash (m : MutLicenseManifestV1) : Except ProtocolError Bytes32 := do
  let bytes ← m.encode
  .ok (sha256Domain Domains.mutLicenseManifest [bytes])

def BtcLicenseManifestV1.manifestHash (m : BtcLicenseManifestV1) : Except ProtocolError Bytes32 := do
  let bytes ← m.encode
  .ok (sha256Domain Domains.btcManifest [bytes])

def bitcoinPaymentId (txidInternal : Bytes32) (outputIndex : UInt32) : Bytes32 :=
  sha256Domain Domains.btcPaymentId [Bytes.b32 txidInternal, Bytes.u32 outputIndex]

def nativePaymentId (paymentTxid : Bytes32) (outputIndex : UInt16) : Bytes32 :=
  sha256Domain Domains.mutPaymentId [Bytes.b32 paymentTxid, Bytes.u16 outputIndex]

def deriveLicenseId (networkId : UInt32) (purchaseMethod : UInt8) (purchaseId : Bytes32)
    (manifestIndex : UInt32) (initialOwnerPublicKey : Bytes32) : Bytes32 :=
  sha256Domain Domains.licenseId
    [Bytes.u32 networkId, [purchaseMethod], Bytes.b32 purchaseId, Bytes.u32 manifestIndex,
      Bytes.b32 initialOwnerPublicKey]

/-- The licence ids a manifest gives to its entries, in order. -/
def manifestLicenseIds (networkId : UInt32) (purchaseMethod : UInt8) (purchaseId : Bytes32)
    (licenses : List LicenseManifestEntryV1) : List Bytes32 :=
  licenses.zipIdx.map fun (entry, i) =>
    deriveLicenseId networkId purchaseMethod purchaseId (UInt32.ofNat i) entry.ownerPublicKey

def LicensePurchaseMutV1.licenseIds (p : LicensePurchaseMutV1) : List Bytes32 :=
  manifestLicenseIds p.manifest.networkId purchaseMethodMut
    (nativePaymentId p.paymentTxid p.paymentOutputIndex) p.manifest.licenses

def LicensePurchaseBtcV1.licenseIds (p : LicensePurchaseBtcV1) :
    Except ProtocolError (List Bytes32) := do
  let parsed ← (parseTransaction p.proof.rawTransaction).mapError fun _ => .invalidManifest
  .ok (manifestLicenseIds p.manifest.networkId purchaseMethodBtc
    (bitcoinPaymentId parsed.txidInternal p.proof.paymentOutputIndex) p.manifest.licenses)

/-- What the old owner signs. -/
def LicenseTransferV1.signingDigest (t : LicenseTransferV1) : Bytes32 :=
  operationSigningDigest opLicenseTransfer 1 t.unsignedPayload

/-- What the owner signs. -/
def MiningKeyRotateV1.signingDigest (r : MiningKeyRotateV1) : Bytes32 :=
  operationSigningDigest opLicenseMiningKeyRotate 1 r.unsignedPayload

/-- What the miner signs. -/
def MiningPresenceV1.signingDigest (p : MiningPresenceV1) : Bytes32 :=
  operationSigningDigest opMiningPresence 1 p.unsignedPayload

/-- What the owner signs. -/
def DividendClaimV1.signingDigest (c : DividendClaimV1) : Bytes32 :=
  operationSigningDigest opDividendClaim 1 c.unsignedPayload

def PunishmentEvidenceV1.evidenceId (e : PunishmentEvidenceV1) : Bytes32 :=
  sha256Domain Domains.punishmentEvidenceId [e.canonicalEvidence]

def protocolOperationLeaf (id : Bytes32) : Bytes32 :=
  sha256Domain Domains.protocolOpLeaf [Bytes.b32 id]

/-- The order of operations in a block: by type, then by identifier. -/
def operationLt (a b : ProtocolOperationV1) : Bool :=
  decide (a.opType < b.opType) ||
    (decide (a.opType = b.opType) && decide (a.operationId < b.operationId))

/-- Neighbouring operations ascend strictly. -/
def operationsAscend : List ProtocolOperationV1 → Bool
  | a :: b :: rest => operationLt a b && operationsAscend (b :: rest)
  | _ => true

def protocolOperationsEmptyRoot : Bytes32 := sha256Domain Domains.protocolOpsEmpty []

def protocolOperationsRoot (operations : List ProtocolOperationV1) :
    Except ProtocolError Bytes32 := do
  if operations = [] then .ok protocolOperationsEmptyRoot
  else
    reject (operationsAscend operations = false) .invalidManifest
    okOr (Merkle.root (fun l r => sha256Domain Domains.protocolOpNode [Bytes.b32 l, Bytes.b32 r])
      (operations.map fun op => protocolOperationLeaf op.operationId)) .invalidManifest

end Digests

/-! ## Keys -/

/-- The keys a licence had before an operation replaced them. -/
structure HistoricalLicenseKeysV1 where
  ownerPublicKey : Bytes32
  ownerKeySequence : UInt32
  miningPublicKey : Bytes32
  miningKeySequence : UInt32
deriving DecidableEq, Repr

/-- The keys as they are recorded. -/
def LicenseRecordV1.historicalKeys (r : LicenseRecordV1) : HistoricalLicenseKeysV1 where
  ownerPublicKey := r.ownerPublicKey
  ownerKeySequence := r.ownerKeySequence
  miningPublicKey := r.miningPublicKey
  miningKeySequence := r.miningKeySequence

/-- The next sequence number, if there is one. -/
def nextSequence (s : UInt32) : Option UInt32 := s.checkedAdd 1

section Authority

variable [Crypto]

/-- The checks a transfer and a rotation share. -/
def checkAuthority (record : LicenseRecordV1)
    (expectedOwnerSequence expectedMiningSequence : UInt32) (digest : Bytes32)
    (signature : Bytes64) : Except ProtocolError Unit := do
  reject (record.status = licenseStatusRevoked) .revoked
  reject (record.ownerKeySequence ≠ expectedOwnerSequence) .staleOwnerSequence
  reject (record.miningKeySequence ≠ expectedMiningSequence) .staleMiningSequence
  verifyOwnerSignature record.ownerPublicKey digest signature

/-- Owner and mining key are replaced. -/
def applyLicenseTransfer (record : LicenseRecordV1) (transfer : LicenseTransferV1) :
    Except ProtocolError HistoricalLicenseKeysV1 × LicenseRecordV1 :=
  match checkAuthority record transfer.expectedOwnerSequence transfer.expectedMiningSequence
      transfer.signingDigest transfer.ownerSignature with
  | .error e => (.error e, record)
  | .ok () =>
    let rekeyed := { record with
      ownerPublicKey := transfer.newOwnerPublicKey
      miningPublicKey := transfer.newMiningPublicKey }
    match nextSequence record.ownerKeySequence with
    | none => (.error .overflow, rekeyed)
    | some ownerKeySequence =>
      let reowned := { rekeyed with ownerKeySequence := ownerKeySequence }
      match nextSequence record.miningKeySequence with
      | none => (.error .overflow, reowned)
      | some miningKeySequence =>
        (.ok record.historicalKeys, { reowned with miningKeySequence := miningKeySequence })

/-- The mining key is replaced, as the owner signed. -/
def applyMiningKeyRotation (record : LicenseRecordV1) (rotation : MiningKeyRotateV1) :
    Except ProtocolError HistoricalLicenseKeysV1 × LicenseRecordV1 :=
  match checkAuthority record rotation.expectedOwnerSequence rotation.expectedMiningSequence
      rotation.signingDigest rotation.ownerSignature with
  | .error e => (.error e, record)
  | .ok () =>
    let rekeyed := { record with miningPublicKey := rotation.newMiningPublicKey }
    match nextSequence record.miningKeySequence with
    | none => (.error .overflow, rekeyed)
    | some miningKeySequence =>
      (.ok record.historicalKeys, { rekeyed with miningKeySequence := miningKeySequence })

/-! ## Presence -/

/-- A presence is of the current miner, in time. -/
def MiningPresenceV1.verifyAgainst (p : MiningPresenceV1) (record : LicenseRecordV1)
    (expectedNetworkId : UInt32) (expectedGenesisId : Bytes32) (blockEpoch : UInt64) :
    Except ProtocolError Unit := do
  reject (packKActive expectedNetworkId expectedGenesisId blockEpoch = false)
    .miningPresenceInactive
  reject (p.networkId ≠ expectedNetworkId) .miningPresenceNetwork
  reject (p.genesisId ≠ expectedGenesisId) .miningPresenceGenesis
  reject (p.presenceEpoch ≠ blockEpoch) .miningPresenceEpoch
  reject (record.status = licenseStatusRevoked) .revoked
  reject (record.miningKeySequence ≠ p.expectedMiningSequence) .staleMiningSequence
  verifyOwnerSignature record.miningPublicKey p.signingDigest p.miningSignature

end Authority

/-! ## Offences -/

/-- What an offence did. -/
structure OffenseApplicationV1 where
  newStrikeWeight : UInt8
  suspendedUntilEpoch : UInt64
  offenseExpiryEpoch : UInt64
  revoked : Bool
deriving DecidableEq, Repr

/-- The weight of an offence. -/
def offenseWeight (offenseType : UInt16) : Except ProtocolError UInt8 :=
  if offenseType = offenseInvalidSignedWork then .ok 1
  else if offenseType = offenseLicenseStateEquivocation then .ok 2
  else if offenseType = offenseSameTicketEquivocation then .ok 4
  else .error .badOffenseWeight

/-- An offence adds its weight.  At the threshold the licence is revoked for good;
below it the suspension grows by a power of two of the new weight. -/
def applyOffense (record : LicenseRecordV1) (offenseType : UInt16) (appliedEpoch : UInt64) :
    Except ProtocolError (OffenseApplicationV1 × LicenseRecordV1) := do
  reject (record.status = licenseStatusRevoked) .revoked
  let weight ← offenseWeight offenseType
  reject (256 ≤ record.strikeWeight.toNat + weight.toNat) .overflow
  let newWeight := record.strikeWeight + weight
  let expiry ← okOr (appliedEpoch.checkedAdd strikeDecayEpochs) .overflow
  if revocationThreshold ≤ newWeight then
    .ok ({ newStrikeWeight := revocationThreshold
           suspendedUntilEpoch := record.suspendedUntilEpoch
           offenseExpiryEpoch := expiry
           revoked := true },
      { record with
        strikeWeight := revocationThreshold
        status := licenseStatusRevoked
        revocationEpoch := appliedEpoch })
  else
    -- the weight is below sixteen here, so the shift stays inside 64 bits
    let timeout := UInt64.ofNat (2 ^ (5 + newWeight.toNat))
    let base := max record.suspendedUntilEpoch appliedEpoch
    let suspendedUntil ← okOr (base.checkedAdd timeout) .overflow
    .ok ({ newStrikeWeight := newWeight
           suspendedUntilEpoch := suspendedUntil
           offenseExpiryEpoch := expiry
           revoked := false },
      { record with strikeWeight := newWeight, suspendedUntilEpoch := suspendedUntil })

/-! ## Dividends -/

/-- What is awarded, and to how many. -/
structure DividendAwardCalculationV1 where
  availableBefore : UInt64
  dividendPool : UInt64
  eligibleLicenses : UInt64
  perLicenseStrikes : UInt64
  totalReservedStrikes : UInt64
  undistributedRemainderStrikes : UInt64
deriving DecidableEq, Repr

/-- Half of what is available, shared equally. -/
def calculateDividendAward (availableStrikes eligibleLicenses : UInt64) :
    Except ProtocolError DividendAwardCalculationV1 := do
  let dividendPool := availableStrikes / 2
  let perLicenseStrikes := if eligibleLicenses = 0 then 0 else dividendPool / eligibleLicenses
  let totalReservedStrikes ← okOr (perLicenseStrikes.checkedMul eligibleLicenses) .overflow
  let undistributed ← okOr (dividendPool.checkedSub totalReservedStrikes) .overflow
  .ok { availableBefore := availableStrikes
        dividendPool := dividendPool
        eligibleLicenses := eligibleLicenses
        perLicenseStrikes := perLicenseStrikes
        totalReservedStrikes := totalReservedStrikes
        undistributedRemainderStrikes := undistributed }

/-- A claim lowers the account and then the reserve; only the last step can fail
after the account has changed. -/
def applyDividendClaim [Crypto] (record : LicenseRecordV1) (account : LicenseDividendAccountV1)
    (treasury : TreasuryStateV1) (claim : DividendClaimV1) (blockEpoch : UInt64) :
    Except ProtocolError Unit × LicenseDividendAccountV1 × TreasuryStateV1 :=
  let checks : Except ProtocolError Unit := do
    reject (record.status = licenseStatusRevoked) .revoked
    reject (record.ownerKeySequence ≠ claim.expectedOwnerSequence) .staleOwnerSequence
    reject (account.licenseId ≠ claim.licenseId ∨ blockEpoch < account.awardEpoch ∨
      account.claimDeadlineEpoch ≤ blockEpoch) .dividendExpired
    reject (claim.amountStrikes = 0 ∨ account.claimableStrikes < claim.amountStrikes)
      .dividendOverdraw
    verifyOwnerSignature record.ownerPublicKey claim.signingDigest claim.ownerSignature
  match checks with
  | .error e => (.error e, account, treasury)
  | .ok () =>
    let debited := { account with
      claimableStrikes := account.claimableStrikes - claim.amountStrikes }
    match treasury.reservedDividendStrikes.checkedSub claim.amountStrikes with
    | none => (.error .treasuryUnderflow, debited, treasury)
    | some reserved => (.ok (), debited, { treasury with reservedDividendStrikes := reserved })

end Mutiny
