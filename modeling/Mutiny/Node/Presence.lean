import Mutiny.Node.State

/-!
# Mining presence

From an activation epoch on, a licence counts towards the difficulty only while
it keeps showing presence.  Here are the counts of eligible licences, the checks
of presence operations against the parent state, and what they record.
-/

namespace Mutiny

open Result Lists

namespace Presence

/-- Whether the state counts presence at an epoch. -/
def active (s : DevnetState) (epoch : UInt64) : Bool :=
  if s.networkId = devnetNetworkId then
    decide (s.genesisHash = devnetGenesisId ∧ packKDevnetActivationEpoch ≤ epoch)
  else packKActive s.networkId s.genesisHash epoch

/-- Licences that may mine. -/
def baseEligibleCount (s : DevnetState) (epoch : UInt64) : UInt64 :=
  UInt64.ofNat (s.licenses.countP fun l => l.isEligible epoch)

/-- A licence was present lately. -/
def licenseHasFreshPresence (s : DevnetState) (license : LicenseState) (epoch : UInt64) : Bool :=
  if active s epoch = false then true
  else
    match s.miningPresence.find? fun p => p.licenseIdText == license.licenseIdText with
    | none => false
    | some presence =>
      presence.miningKeySequence == license.miningKeySequence &&
        decide (presence.lastPresenceEpoch ≤ epoch) &&
        decide (epoch - presence.lastPresenceEpoch < miningPresenceWindowEpochs)

/-- Licences that may mine and are present. -/
def participationEligibleCount (s : DevnetState) (epoch : UInt64) : UInt64 :=
  if active s epoch = false then baseEligibleCount s epoch
  else
    UInt64.ofNat (s.licenses.countP fun l =>
      l.isEligible epoch && licenseHasFreshPresence s l epoch)

def decodeOperation (op : ProtocolOperationV1) : Except String MiningPresenceV1 :=
  (MiningPresenceV1.decodeOperation op).mapError ProtocolError.message

variable [Crypto]

/-- The checks of a presence. -/
def validateOperationAgainstParent (parent : DevnetState) (op : ProtocolOperationV1)
    (blockEpoch : UInt64) : Except String MiningPresenceV1 := do
  let presence ← decodeOperation op
  let license ← okOr (parent.findLicense presence.licenseId)
    "MINING_PRESENCE references unknown LicenseID"
  (presence.verifyAgainst license.record parent.networkId parent.genesisHash
    blockEpoch).mapError ProtocolError.message
  .ok presence

/-- The licences whose keys the operations change. -/
def authorityTargets (operations : List ProtocolOperationV1) : Except String (List Bytes32) := do
  let targets ← operations.mapM authorityOperationLicenseId
  .ok (targets.filterMap id)

/-- One presence operation of a block; {lit}`seen` are the licences that showed
presence before it. -/
def prevalidatePresence (parent : DevnetState) (authority : List Bytes32) (blockEpoch : UInt64)
    (seen : List Bytes32) (op : ProtocolOperationV1) : Except String (List Bytes32) :=
  if op.opType ≠ opMiningPresence then .ok seen
  else do
    let presence ← validateOperationAgainstParent parent op blockEpoch
    reject (presence.licenseId ∈ seen)
      "Pack K permits at most one MINING_PRESENCE per LicenseID per block"
    reject (presence.licenseId ∈ authority)
      "Pack K forbids same-block owner transfer/mining-key rotation plus MINING_PRESENCE for one LicenseID"
    .ok (presence.licenseId :: seen)

/-- The presences of a block, checked before it. -/
def prevalidateBlockOperations (parent : DevnetState) (operations : List ProtocolOperationV1)
    (blockEpoch : UInt64) : Except String Unit := do
  let authority ← authorityTargets operations
  let _ ← operations.foldlM (prevalidatePresence parent authority blockEpoch) []
  .ok ()

/-- Whether a block already shows presence for the miner; more than one is an
error. -/
def matchSelfPresence (parent : DevnetState) (epoch : UInt64) (miningLicenseId : Bytes32)
    (found : Bool) (op : ProtocolOperationV1) : Except String Bool :=
  if op.opType ≠ opMiningPresence then .ok found
  else do
    let presence ← decodeOperation op
    if presence.licenseId ≠ miningLicenseId then .ok found
    else
      reject (found = true) "candidate block contains duplicate self-presence operations"
      let _ ← validateOperationAgainstParent parent op epoch
      .ok true

/-- The count of eligible licences a candidate block is mined against. -/
def candidateEligibleCount (parent : DevnetState) (epoch : UInt64) (miningLicenseId : Bytes32)
    (operations : List ProtocolOperationV1) : Except String UInt64 := do
  let license ← okOr (parent.findLicense miningLicenseId)
    "candidate mining LicenseID is unknown"
  reject (license.isEligible epoch = false)
    "candidate mining LicenseID is not base-eligible at the candidate epoch"
  if active parent epoch = false then .ok (baseEligibleCount parent epoch)
  else
    let parentCount := participationEligibleCount parent epoch
    if licenseHasFreshPresence parent license epoch then .ok parentCount
    else
      let found ← operations.foldlM (matchSelfPresence parent epoch miningLicenseId) false
      reject (found = false)
        "candidate mining LicenseID lacks fresh parent presence and valid same-block self-presence"
      okOr (parentCount.checkedAdd 1) "Pack-K candidate eligible count overflow"

/-- Sign presence for a licence with the secret key of its miner. -/
def createOperation (s : DevnetState) (license : LicenseState) (epoch : UInt64)
    (secret : Bytes32) : Except String ProtocolOperationV1 := do
  reject (active s epoch = false) "Pack K is not active at the requested presence epoch"
  reject (Crypto.publicKey secret ≠ license.miningPublicKey)
    "presence signer does not match current on-chain mining authority"
  let unsigned : MiningPresenceV1 :=
    { networkId := s.networkId
      genesisId := s.genesisHash
      licenseId := license.licenseId
      expectedMiningSequence := license.miningKeySequence
      presenceEpoch := epoch
      miningSignature := 0 }
  let presence := { unsigned with
    miningSignature := Crypto.sign secret (Bytes.b32 unsigned.signingDigest) }
  let _ ← validateOperationAgainstParent s presence.operation epoch
  .ok presence.operation

/-- Replace the entry of a licence, or add it in order. -/
def recordPresence (value : MiningPresenceState) (entries : List MiningPresenceState) :
    List MiningPresenceState :=
  if entries.any fun e => e.licenseIdText == value.licenseIdText then
    updateFirst (fun e => e.licenseIdText == value.licenseIdText) (fun _ => value) entries
  else sortByKey (fun e => e.licenseIdText.text) (entries ++ [value])

/-- A presence is recorded. -/
def applyValidatedOperation (s : DevnetState) (op : ProtocolOperationV1) :
    Except String DevnetState := do
  let presence ← decodeOperation op
  .ok { s with
    miningPresence := recordPresence
      { licenseIdText := .encode presence.licenseId
        miningKeySequence := presence.expectedMiningSequence
        lastPresenceEpoch := presence.presenceEpoch
        lastPresenceOperationId := op.operationId } s.miningPresence }

omit [Crypto] in
/-- One stored presence; {lit}`ids` are the texts of the identifiers before it. -/
def checkEntry (s : DevnetState) (ids : List HexText) (presence : MiningPresenceState) :
    Except String (List HexText) := do
  reject (presence.licenseIdText ∈ ids) "duplicate Pack-K MiningPresenceState LicenseID"
  reject (s.licenses.all fun l => l.licenseIdText ≠ .encode presence.licenseId)
    "Pack-K MiningPresenceState references unknown LicenseID"
  .ok (presence.licenseIdText :: ids)

omit [Crypto] in
/-- The recorded presences are sound. -/
def checkState (s : DevnetState) : Except String Unit := do
  let _ ← s.miningPresence.foldlM (checkEntry s) []
  .ok ()

end Presence

end Mutiny
