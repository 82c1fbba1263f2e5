import Mutiny.Node.State
import Mutiny.Header

/-!
# Punishment

Evidence of an offence: its three objective forms, their validation against the
keys a licence has or had, what an accepted piece of evidence does to the state,
and the expiry of offences.
-/

namespace Mutiny

open Result Lists

def decodePunishmentOperation (op : ProtocolOperationV1) :
    Except String PunishmentEvidenceV1 := do
  reject (op.opType ≠ opPunishmentEvidence ∨ op.opVersion ≠ 1)
    "operation is not V1 punishment evidence"
  reject (op.payload.length < 35) "punishment evidence payload is truncated"
  let (offenseType, bytes) := Bytes.cut 2 op.payload
  let _ ← (offenseWeight (Bytes.toU16 offenseType)).mapError ProtocolError.message
  let (accusedLicenseId, bytes) := Bytes.cut 32 bytes
  let (evidenceLen, input) ← (readVaruint bytes).mapError DecodeError.message
  reject (input.length ≠ evidenceLen.toNat)
    "punishment evidence length does not match canonical payload"
  let evidence : PunishmentEvidenceV1 :=
    { offenseType := Bytes.toU16 offenseType
      accusedLicenseId := Bytes.toB32 accusedLicenseId
      evidence := input }
  reject (evidence.canonicalEvidence ≠ op.payload)
    "punishment evidence operation is not canonical"
  .ok evidence

/-- The accused licence. -/
def licenseById (s : DevnetState) (id : Bytes32) : Except String LicenseState :=
  okOr (s.findLicense id) "punishment evidence references unknown LicenseID"

/-- The key a sequence number stood for, among the historical entries that match. -/
def historicalKey (entries : List Bytes32) (ambiguous missing : String) :
    Except String (Option Bytes32) :=
  match entries with
  | [key] => .ok (some key)
  | [] => .error missing
  | _ => .error ambiguous

/-- The mining key of a sequence. -/
def miningKeyAtSequence (s : DevnetState) (id : Bytes32) (sequence : UInt32) :
    Except String (Option Bytes32) := do
  let license ← licenseById s id
  if license.miningKeySequence < sequence then .ok none
  else if sequence = license.miningKeySequence then .ok (some license.miningPublicKey)
  else
    let entries := s.historicalLicenseKeys.filter fun h =>
      h.licenseIdText == .encode id && h.miningKeySequence == sequence
    historicalKey (entries.map (·.miningPublicKey))
      "ambiguous historical mining authority sequence"
      "missing historical mining authority snapshot for punishment evidence"

/-- The owner key of two sequences. -/
def ownerKeyAtSequences (s : DevnetState) (id : Bytes32) (ownerSequence miningSequence : UInt32) :
    Except String (Option Bytes32) := do
  let license ← licenseById s id
  if license.ownerKeySequence < ownerSequence ∨ license.miningKeySequence < miningSequence then
    .ok none
  else if ownerSequence = license.ownerKeySequence ∧
      miningSequence = license.miningKeySequence then
    .ok (some license.ownerPublicKey)
  else
    let entries := s.historicalLicenseKeys.filter fun h =>
      h.licenseIdText == .encode id && h.ownerKeySequence == ownerSequence &&
        h.miningKeySequence == miningSequence
    historicalKey (entries.map (·.ownerPublicKey))
      "ambiguous historical owner authority sequence"
      "missing historical owner authority snapshot for punishment evidence"

/-- A header of the network. -/
def parseSignedHeader (bytes : Bytes) (networkId : UInt32) : Except String HeaderV1 := do
  reject (bytes.length ≠ 272) "punishment signed header must be exactly 272 bytes"
  let header := HeaderV1.decode bytes
  reject (header.core.version ≠ 1) "punishment signed header version is not V1"
  reject (header.core.networkId ≠ networkId) "punishment signed header NetworkID mismatch"
  .ok header

/-- An operation inside evidence, off the front of the input; also its own bytes. -/
def takeProtocolOperation (original : Bytes) :
    Except String (ProtocolOperationV1 × Bytes × Bytes) := do
  reject (original.length < 5)
    "truncated embedded authority operation in punishment evidence"
  let (opType, cursor) := Bytes.cut 2 original
  let (opVersion, cursor) := Bytes.cut 2 cursor
  let (payloadLen, cursor) ← (readVaruint cursor).mapError DecodeError.message
  let prefixLen := original.length - cursor.length
  reject (cursor.length < payloadLen.toNat) "truncated embedded authority operation payload"
  let total := prefixLen + payloadLen.toNat
  let bytes := original.take total
  let op : ProtocolOperationV1 :=
    { opType := Bytes.toU16 opType
      opVersion := Bytes.toU16 opVersion
      payload := cursor.take payloadLen.toNat }
  reject (op.encode ≠ bytes) "embedded authority operation is not canonical"
  .ok (op, bytes, original.drop total)

/-- What evidence reads off a transfer or a rotation. -/
structure AuthorityEvidenceFields where
  licenseId : Bytes32
  ownerSequence : UInt32
  miningSequence : UInt32
  digest : Bytes32
  signature : Bytes64
deriving DecidableEq, Repr

section Evidence

variable [Crypto]

/-- A header that the accused signed. -/
def validateSignedHeader (s : DevnetState) (accused : Bytes32) (miningSequence : UInt32)
    (bytes : Bytes) : Except String (Option HeaderCoreV1) := do
  let header ← parseSignedHeader bytes s.networkId
  reject (header.core.licenseId ≠ accused)
    "punishment signed header LicenseID does not match accused LicenseID"
  match ← miningKeyAtSequence s accused miningSequence with
  | none => .ok none
  | some miningKey =>
    reject (Crypto.validPublicKey miningKey = false)
      "invalid historical mining public key in punishment evidence"
    reject (Crypto.verifyStrict miningKey (Bytes.b32 (blockSigningDigest header.core))
      header.signature = false) "punishment evidence has invalid mining signature"
    .ok (some header.core)

/-- What an authority operation says. -/
def authorityEvidenceFields (op : ProtocolOperationV1) :
    Except String AuthorityEvidenceFields :=
  if op.opType = opLicenseTransfer then do
    let transfer ← decodeLicenseTransferOperation op
    .ok { licenseId := transfer.licenseId
          ownerSequence := transfer.expectedOwnerSequence
          miningSequence := transfer.expectedMiningSequence
          digest := transfer.signingDigest
          signature := transfer.ownerSignature }
  else if op.opType = opLicenseMiningKeyRotate then do
    let rotation ← decodeMiningKeyRotationOperation op
    .ok { licenseId := rotation.licenseId
          ownerSequence := rotation.expectedOwnerSequence
          miningSequence := rotation.expectedMiningSequence
          digest := rotation.signingDigest
          signature := rotation.ownerSignature }
  else .error "Tier-2 evidence must embed transfer or mining-key-rotation operations"

/-- Tier 1: a signed header whose proof is not below its target. -/
def validateInvalidSignedWork (s : DevnetState) (evidence : PunishmentEvidenceV1) :
    Except String Bool := do
  reject (evidence.evidence.length ≠ 4 + 272)
    "Tier-1 evidence must be mining_sequence:u32 + signed_header:272"
  let (miningSequence, bytes) := Bytes.cut 4 evidence.evidence
  match ← validateSignedHeader s evidence.accusedLicenseId (Bytes.toU32 miningSequence) bytes with
  | none => .ok false
  | some core =>
    reject (proofBelowTarget core.argon2Proof core.target = true)
      "Tier-1 evidence does not prove invalid signed work: proof is below Target"
    .ok true

/-- Tier 2: two signed operations that consume the same authority sequence. -/
def validateLicenseStateEquivocation (s : DevnetState) (evidence : PunishmentEvidenceV1) :
    Except String Bool := do
  let (a, aBytes, input) ← takeProtocolOperation evidence.evidence
  let (b, bBytes, input) ← takeProtocolOperation input
  reject (input ≠ []) "Tier-2 evidence has trailing bytes"
  reject (¬ aBytes < bBytes)
    "Tier-2 embedded operations are not in strict canonical byte order"
  let af ← authorityEvidenceFields a
  let bf ← authorityEvidenceFields b
  reject (af.licenseId ≠ evidence.accusedLicenseId ∨ bf.licenseId ≠ evidence.accusedLicenseId)
    "Tier-2 embedded operation LicenseID does not match accused LicenseID"
  reject (af.ownerSequence ≠ bf.ownerSequence ∨ af.miningSequence ≠ bf.miningSequence)
    "Tier-2 operations do not consume the same authority sequence"
  match ← ownerKeyAtSequences s evidence.accusedLicenseId af.ownerSequence af.miningSequence with
  | none => .ok false
  | some ownerKey =>
    reject (Crypto.validPublicKey ownerKey = false)
      "invalid historical owner public key in punishment evidence"
    reject (Crypto.verifyStrict ownerKey (Bytes.b32 af.digest) af.signature = false)
      "Tier-2 first owner signature is invalid"
    reject (Crypto.verifyStrict ownerKey (Bytes.b32 bf.digest) bf.signature = false)
      "Tier-2 second owner signature is invalid"
    .ok true

/-- Tier 3: two different signed headers for one winning ticket. -/
def validateSameTicketEquivocation (s : DevnetState) (evidence : PunishmentEvidenceV1) :
    Except String Bool := do
  reject (evidence.evidence.length ≠ 4 + 272 + 272)
    "Tier-3 evidence must be mining_sequence:u32 + two signed 272-byte headers"
  let (miningSequence, bytes) := Bytes.cut 4 evidence.evidence
  let (aBytes, bBytes) := Bytes.cut 272 bytes
  reject (¬ aBytes < bBytes) "Tier-3 signed headers are not in strict canonical byte order"
  match ← validateSignedHeader s evidence.accusedLicenseId (Bytes.toU32 miningSequence) aBytes with
  | none => .ok false
  | some a =>
    match ← validateSignedHeader s evidence.accusedLicenseId (Bytes.toU32 miningSequence)
        bBytes with
    | none => .ok false
    | some b =>
      reject (a = b) "Tier-3 signed header cores are identical"
      reject (a.epoch ≠ b.epoch ∨ a.target ≠ b.target ∨ a.licenseId ≠ b.licenseId ∨
        a.ticketIndex ≠ b.ticketIndex ∨ a.argon2Proof ≠ b.argon2Proof)
        "Tier-3 headers do not share epoch/target/license/ticket/proof"
      reject (proofBelowTarget a.argon2Proof a.target = false)
        "Tier-3 same-ticket evidence does not carry a below-target proof"
      .ok true

/-- Whether evidence proves its offence now; {lit}`false` when it speaks of a key
sequence the licence has not reached. -/
def validateObjectiveEvidence (s : DevnetState) (evidence : PunishmentEvidenceV1) :
    Except String Bool :=
  if evidence.offenseType = offenseInvalidSignedWork then validateInvalidSignedWork s evidence
  else if evidence.offenseType = offenseLicenseStateEquivocation then
    validateLicenseStateEquivocation s evidence
  else if evidence.offenseType = offenseSameTicketEquivocation then
    validateSameTicketEquivocation s evidence
  else .error "unknown punishment offense type"

namespace Punishment

/-- Whether evidence can be in a block. -/
def dependencyReady (s : DevnetState) (op : ProtocolOperationV1) : Except String Bool := do
  let evidence ← decodePunishmentOperation op
  let _ ← licenseById s evidence.accusedLicenseId
  validateObjectiveEvidence s evidence

/-- The registry with the fields an offence changes taken from a record. -/
def setOffenseFields (record : LicenseRecordV1) (l : LicenseState) : LicenseState :=
  { l with
    status := record.status
    strikeWeight := record.strikeWeight
    suspendedUntilEpoch := record.suspendedUntilEpoch
    revocationEpoch := record.revocationEpoch }

/-- The offence of evidence is recorded. -/
def applyOperation (s : DevnetState) (op : ProtocolOperationV1) (blockEpoch : UInt64) :
    Except String DevnetState := do
  let evidence ← decodePunishmentOperation op
  let evidenceId := evidence.evidenceId
  reject (evidenceId ∈ s.consumedEvidence) "EvidenceID has already been consumed"
  let ready ← validateObjectiveEvidence s evidence
  reject (ready = false) "punishment evidence depends on a future authority sequence"
  let license ← okOr (s.findLicense evidence.accusedLicenseId)
    "punishment evidence references unknown LicenseID"
  reject (license.status = licenseStatusRevoked)
    "punishment evidence targets an already revoked Mining License"
  let weight ← (offenseWeight evidence.offenseType).mapError ProtocolError.message
  let (applied, record) ←
    (applyOffense license.record evidence.offenseType blockEpoch).mapError ProtocolError.message
  let event : OffenseEventState :=
    { evidenceId := evidenceId
      licenseIdText := .encode evidence.accusedLicenseId
      offenseType := evidence.offenseType
      weight := weight
      appliedEpoch := blockEpoch
      expiryEpoch := applied.offenseExpiryEpoch }
  .ok { s with
    licenses := updateFirst (fun l => l.licenseIdText == .encode evidence.accusedLicenseId)
      (setOffenseFields record) s.licenses
    consumedEvidence := sortByKey id (s.consumedEvidence ++ [evidenceId])
    offenseEvents := sortByKey OffenseEventState.evidenceId (s.offenseEvents ++ [event]) }

end Punishment

end Evidence

/-! ## Active weights and expiry -/

/-- The weight a table gives a licence. -/
def weightOf (weights : List (HexText × UInt8)) (id : HexText) : UInt8 :=
  ((weights.find? fun w => w.1 == id).map (·.2)).getD 0

/-- Add the weight of an offence to its licence, in a table of sums. -/
def addWeight (weights : List (HexText × UInt8)) (event : OffenseEventState) :
    Except String (List (HexText × UInt8)) := do
  let old := weightOf weights event.licenseIdText
  reject (256 ≤ old.toNat + event.weight.toNat) "active strike weight overflow"
  .ok ((event.licenseIdText, old + event.weight) :: weights)

/-- The weight of each licence. -/
def activeWeights (events : List OffenseEventState) :
    Except String (List (HexText × UInt8)) :=
  events.foldlM addWeight []

namespace Punishment

/-- The strike weight of a licence after expiry. -/
def refreshStrikeWeight (weights : List (HexText × UInt8)) (l : LicenseState) :
    Except String LicenseState :=
  if l.status = licenseStatusRevoked then do
    reject (l.strikeWeight ≠ revocationThreshold)
      "revoked Mining License strike weight is not capped at 16"
    .ok l
  else do
    let active := weightOf weights l.licenseIdText
    reject (revocationThreshold ≤ active)
      "non-revoked Mining License has revocation-level active strike weight"
    .ok { l with strikeWeight := active }

/-- Old offences are dropped. -/
def expireEvents (s : DevnetState) (epoch : UInt64) : Except String DevnetState := do
  let events := s.offenseEvents.filter fun e => decide (epoch < e.expiryEpoch)
  let weights ← activeWeights events
  let licenses ← s.licenses.mapM (refreshStrikeWeight weights)
  .ok { s with offenseEvents := events, licenses := licenses }

/-- The checks of one active offence; {lit}`seen` are the evidence ids before it. -/
def checkEvent (s : DevnetState) (acc : List Bytes32 × List (HexText × UInt8))
    (event : OffenseEventState) : Except String (List Bytes32 × List (HexText × UInt8)) := do
  let (seen, sums) := acc
  reject (event.evidenceId ∉ s.consumedEvidence)
    "active offense does not have a consumed EvidenceID"
  reject (event.evidenceId ∈ seen) "duplicate active offense EvidenceID"
  let expectedWeight ← (offenseWeight event.offenseType).mapError ProtocolError.message
  reject (event.weight ≠ expectedWeight) "active offense has wrong strike weight"
  let expiry ← okOr (event.appliedEpoch.checkedAdd strikeDecayEpochs) "offense expiry overflow"
  reject (event.expiryEpoch ≠ expiry)
    "active offense expiry epoch is not AppliedEpoch + 2^21"
  reject (event.expiryEpoch ≤ s.tipEpoch) "expired offense remains in active ProtocolState"
  reject (s.licenses.all fun l => l.licenseIdText ≠ event.licenseIdText)
    "active offense references unknown LicenseID"
  let sums ← addWeight sums event
  .ok (event.evidenceId :: seen, sums)

/-- A licence carries its weight. -/
def checkLicense (sums : List (HexText × UInt8)) (l : LicenseState) : Except String Unit :=
  if l.status = licenseStatusRevoked then
    reject (l.strikeWeight ≠ revocationThreshold ∨ l.revocationEpoch = 0)
      "revoked Mining License does not carry permanent strike/revocation state"
  else do
    reject (l.strikeWeight ≠ weightOf sums l.licenseIdText)
      "Mining License strike weight does not equal active offense weight"
    reject (l.revocationEpoch ≠ 0) "non-revoked Mining License has revocation epoch"

/-- Offences, weights and evidence fit together. -/
def checkState (s : DevnetState) : Except String Unit := do
  reject (¬ s.consumedEvidence.Nodup) "duplicate consumed EvidenceID"
  let (_, sums) ← s.offenseEvents.foldlM (checkEvent s) ([], [])
  s.licenses.forM (checkLicense sums)

end Punishment

end Mutiny
