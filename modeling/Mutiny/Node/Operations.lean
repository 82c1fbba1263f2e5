import Mutiny.Node.Punishment
import Mutiny.Node.Dividends
import Mutiny.Node.BitcoinPurchase

/-!
# Protocol operations of a block

Which queued operations a miner selects, which transactions go with them, and
what the operations of a block do to the state, one after the other.
-/

namespace Mutiny

open Result Lists

/-- The operation types a block may carry. -/
def liveOperationTypes : List UInt16 :=
  [opLicensePurchaseBtc, opLicensePurchaseMut, opLicenseTransfer, opLicenseMiningKeyRotate,
    opPunishmentEvidence, opDividendClaim, opMiningPresence, opBitcoinHeaders]

/-- Four hexadecimal digits. -/
def hex4 (v : UInt16) : String := Bytes.hexEncode (Bytes.u16 v)

/-- The holder of a mining key: its secret, and when it agrees to sign presence and
to sign a header.  A durable signer refuses what its journal forbids. -/
structure MiningAuthority where
  secret : Bytes32
  check : DevnetState → Nat → Except String Unit
  authorize : DevnetState → UInt64 → HeaderCoreV1 → Except String Unit

/-- A raw key signs presence always and headers on Devnet only. -/
def MiningAuthority.raw (secret : Bytes32) : MiningAuthority where
  secret := secret
  check _ _ := .ok ()
  authorize s _ _ :=
    reject (s.networkId ≠ devnetNetworkId) "Mainnet block signing requires durable MiningSigner"

section Selection

variable [Crypto]

def MiningAuthority.publicKey (a : MiningAuthority) : Bytes32 := Crypto.publicKey a.secret

/-- A header is signed, if allowed. -/
def MiningAuthority.signCandidate (a : MiningAuthority) (s : DevnetState) (height : UInt64)
    (core : HeaderCoreV1) : Except String Bytes64 := do
  a.authorize s height core
  .ok (Crypto.sign a.secret (Bytes.b32 (blockSigningDigest core)))

/-- The order of operations in a block. -/
def sortOperations (operations : List ProtocolOperationV1) : List ProtocolOperationV1 :=
  operations.insertionSort fun a b => operationLt b a = false

/-- Take up the queued operations whose transaction is pooled; {lit}`queued` are
those before. -/
def queueOperation (s : DevnetState) (queued : List ProtocolOperationV1)
    (pending : PendingProtocolOperationState) : Except String (List ProtocolOperationV1) := do
  if pending.requiredTxid.any fun txid => !s.mempool.any fun tx => tx.txid == txid then .ok queued
  else
    let op ← pending.decoded
    reject (op.opVersion ≠ 1) "unknown protocol operation version in pending queue"
    reject (op.opType ∉ liveOperationTypes)
      ("Build 5.4 live engine does not accept protocol operation type 0x" ++ hex4 op.opType)
    reject (op.operationId ∈ queued.map (·.operationId)) "duplicate pending protocol OperationID"
    .ok (queued ++ [op])

/-- What has been selected so far. -/
structure Selection where
  selected : List ProtocolOperationV1
  authorityTargets : List Bytes32
  presenceTargets : List Bytes32

/-- An operation is selected. -/
def Selection.push (sel : Selection) (op : ProtocolOperationV1) : Selection :=
  { sel with selected := sel.selected ++ [op] }

/-- Select a transfer or a rotation when its sequences are the current ones and no
other authority operation on the licence was selected. -/
def selectAuthority (s : DevnetState) (sel : Selection) (op : ProtocolOperationV1)
    (licenseId : Bytes32) (ownerSequence miningSequence : UInt32) (unknown stale : String) :
    Except String Selection := do
  let license ← okOr (s.findLicense licenseId) unknown
  reject (ownerSequence < license.ownerKeySequence ∨ miningSequence < license.miningKeySequence)
    stale
  if license.ownerKeySequence < ownerSequence ∨ license.miningKeySequence < miningSequence then
    .ok sel
  else if licenseId ∈ sel.authorityTargets then .ok sel
  else .ok { sel.push op with authorityTargets := licenseId :: sel.authorityTargets }

/-- Select a presence operation of exactly this epoch. -/
def selectPresence (s : DevnetState) (blockEpoch : UInt64) (sel : Selection)
    (op : ProtocolOperationV1) : Except String Selection := do
  let presence ← Presence.decodeOperation op
  if presence.presenceEpoch < blockEpoch then .ok sel
  else if blockEpoch < presence.presenceEpoch then .ok sel
  else
    let _ ← Presence.validateOperationAgainstParent s op blockEpoch
    reject (presence.licenseId ∈ sel.authorityTargets)
      "Pack K forbids same-block authority change plus MINING_PRESENCE for one LicenseID"
    reject (presence.licenseId ∈ sel.presenceTargets)
      "Pack K permits at most one pending MINING_PRESENCE per LicenseID per block"
    .ok { sel.push op with presenceTargets := presence.licenseId :: sel.presenceTargets }

/-- Decide about one queued operation. -/
def selectOperation (s : DevnetState) (blockEpoch : UInt64) (sel : Selection)
    (op : ProtocolOperationV1) : Except String Selection := do
  if op.opType = opLicensePurchaseBtc then
    let ready ← BitcoinPurchase.dependencyReadyAtEpoch s op blockEpoch
    .ok (if ready then sel.push op else sel)
  else if op.opType = opLicensePurchaseMut then .ok (sel.push op)
  else if op.opType = opLicenseTransfer then
    let transfer ← decodeLicenseTransferOperation op
    selectAuthority s sel op transfer.licenseId transfer.expectedOwnerSequence
      transfer.expectedMiningSequence
      "pending Mining License transfer references unknown LicenseID"
      "stale pending Mining License transfer authority sequence"
  else if op.opType = opLicenseMiningKeyRotate then
    let rotation ← decodeMiningKeyRotationOperation op
    selectAuthority s sel op rotation.licenseId rotation.expectedOwnerSequence
      rotation.expectedMiningSequence
      "pending mining-key rotation references unknown LicenseID"
      "stale pending mining-key rotation authority sequence"
  else if op.opType = opPunishmentEvidence then
    let ready ← Punishment.dependencyReady s op
    .ok (if ready then sel.push op else sel)
  else if op.opType = opDividendClaim then
    let ready ← Dividends.dependencyReady s op
    .ok (if ready then sel.push op else sel)
  else if op.opType = opMiningPresence then selectPresence s blockEpoch sel op
  else .ok (if blockEpoch < BitcoinHeaders.packMBtcDisableEpoch then sel.push op else sel)

/-- The queued operations of a block, in order. -/
def sortedPendingProtocolOperationsForEpoch (s : DevnetState) (blockEpoch : UInt64) :
    Except String (List ProtocolOperationV1) := do
  let queued ← s.pendingProtocolOperations.foldlM (queueOperation s) []
  reject (1024 < queued.length) "pending protocol operation count exceeds V1 maximum 1024"
  let sel ← (sortOperations queued).foldlM (selectOperation s blockEpoch)
    { selected := [], authorityTargets := [], presenceTargets := [] }
  let _ ← (protocolOperationsRoot sel.selected).mapError ProtocolError.message
  .ok sel.selected

/-- The operations of a candidate block: the selected ones, and the miner's own
presence where it counts. -/
def candidateProtocolOperations (s : DevnetState) (epoch : UInt64) (licenseIndex : Nat)
    (signer : MiningAuthority) : Except String (List ProtocolOperationV1) := do
  let operations ← sortedPendingProtocolOperationsForEpoch s epoch
  if Presence.active s epoch = false then .ok operations
  else
    let license ← okOr s.licenses[licenseIndex]? "license number out of range"
    let authorityConflict := operations.any fun op =>
      (authorityOperationLicenseId op).toOption.join == some license.licenseId
    let presences ← (operations.filter fun op => op.opType == opMiningPresence).mapM
      Presence.decodeOperation
    let existing := presences.countP fun p => p.licenseId == license.licenseId
    reject (1 < existing) "candidate has duplicate self-presence operations"
    let operations ←
      if authorityConflict then do
        reject (Presence.licenseHasFreshPresence s license epoch = false)
          "candidate mining license needs self-presence but has a same-block authority change"
        .ok operations
      else if existing = 0 then do
        signer.check s licenseIndex
        let own ← Presence.createOperation s license epoch signer.secret
        .ok (operations ++ [own])
      else .ok operations
    let operations := sortOperations operations
    Presence.prevalidateBlockOperations s operations epoch
    let _ ← (protocolOperationsRoot operations).mapError ProtocolError.message
    .ok operations

/-! ## The transactions of the selected operations -/

/-- The transactions that selected operations need. -/
def selectedProtocolTransactionIds (s : DevnetState) (operations : List ProtocolOperationV1) :
    Except String (List Bytes32) := do
  let entries ← s.pendingProtocolOperations.mapM fun pending => do
    let op ← pending.decoded
    .ok (if op.operationId ∈ operations.map (·.operationId) then pending.requiredTxid else none)
  .ok (entries.filterMap id)

/-- The pending transactions of a block. -/
def selectedBlockMempool (s : DevnetState) (operations : List ProtocolOperationV1) :
    Except String (List PendingTxState) := do
  let selected ← selectedProtocolTransactionIds s operations
  .ok (s.mempool.filter fun pending =>
    !transactionIsProtocolBound s pending.txid || selected.contains pending.txid)

/-! ## Authority fee tickets -/

/-- The amount that marks the fee ticket of a licence. -/
def authorityFeeMarker (licenseId : Bytes32) : UInt64 :=
  UInt64.ofNat (licenseId.toNat / 2 ^ 240 + 1)

/-- Whether a transaction is the fee ticket of a licence: it spends from and pays to
the licence's address only, the marker first. -/
def authorityFeeTicketMatches (s : DevnetState) (tx : TransactionV1) (license : LicenseState) :
    Bool :=
  let address := Bytes.b32 license.paymentAddressId
  let pays (o : TxOutput) : Bool := o.outputType == outputPubkeyHash && o.payload == address
  let spends : TxInput → Bool
    | .coinbase _ => false
    | .outpoint o =>
      (findUtxo s.utxos o).any fun u => u.outputType == outputPubkeyHash && u.payload == address
  match tx.core.outputs with
  | [] => false
  | first :: _ =>
    !tx.core.inputs.isEmpty && first.amountStrikes == authorityFeeMarker license.licenseId &&
      tx.core.outputs.all pays && tx.core.inputs.all spends

/-- The one licence whose fee ticket a transaction is. -/
def authorityFeeTicketLicenseIndex (s : DevnetState) (tx : TransactionV1) : Option Nat :=
  match s.licenses.zipIdx.filter fun (l, _) => authorityFeeTicketMatches s tx l with
  | [(_, i)] => some i
  | _ => none

/-! ## Application -/

/-- The state while the operations of a block are applied, with what has been used
up before. -/
structure OperationRun where
  state : DevnetState
  seenPayments : List Bytes32
  knownLicenses : List Bytes32
  referencedPayments : List OutPoint
  usedFeeTickets : List Nat
  authorityTargets : List Bytes32

/-- The keys before a change are recorded. -/
def storeHistoricalKeys (s : DevnetState) (op : ProtocolOperationV1) (licenseId : Bytes32)
    (historical : HistoricalLicenseKeysV1) : Except String DevnetState := do
  let opid := op.operationId
  reject (s.historicalLicenseKeys.any fun h => h.operationId == opid)
    "duplicate historical-license-key OperationID"
  let entry : HistoricalLicenseKeyState :=
    { operationId := opid
      licenseIdText := .encode licenseId
      ownerPublicKey := historical.ownerPublicKey
      ownerKeySequence := historical.ownerKeySequence
      miningPublicKey := historical.miningPublicKey
      miningKeySequence := historical.miningKeySequence }
  .ok { s with
    historicalLicenseKeys :=
      sortByKey HistoricalLicenseKeyState.operationId (s.historicalLicenseKeys ++ [entry]) }

/-- Add identifiers that must be new to a set. -/
def insertNewIds (duplicate : String) (known ids : List Bytes32) : Except String (List Bytes32) :=
  ids.foldlM (fun known id => do
    reject (id ∈ known) duplicate
    .ok (id :: known)) known

/-- A purchase with bitcoin. -/
def applyBitcoinPurchase (run : OperationRun) (op : ProtocolOperationV1) (blockEpoch : UInt64) :
    Except String OperationRun := do
  let context ← BitcoinPurchase.validatePurchaseContext run.state op blockEpoch
  let s ← BitcoinPurchase.applyOperation run.state op blockEpoch
  let known ← insertNewIds "derived Bitcoin Mining LicenseID already exists" run.knownLicenses
    context.ids
  .ok { run with state := s, knownLicenses := known }

/-- A purchase with the native coin. -/
def applyNativePurchase (run : OperationRun) (txs : List TransactionV1)
    (op : ProtocolOperationV1) (blockEpoch : UInt64) : Except String OperationRun := do
  let s := run.state
  let purchase ← decodeNativePurchaseOperation op
  let payment : OutPoint := ⟨purchase.paymentTxid, purchase.paymentOutputIndex⟩
  reject (purchase.manifest.networkId ≠ s.networkId)
    "native Mining License purchase manifest NetworkID mismatch"
  let paymentId := nativePaymentId purchase.paymentTxid purchase.paymentOutputIndex
  reject (paymentId ∈ run.seenPayments) "NativePaymentID has already been consumed"
  let txPos ← okOr (txs.findIdx? fun tx => tx.txid == purchase.paymentTxid)
    "native Mining License purchase references a transaction not earlier in the block"
  reject (txPos = 0) "native Mining License purchase cannot reference coinbase"
  let output ← okOr (txs[txPos]?.bind fun tx =>
    tx.core.outputs[purchase.paymentOutputIndex.toNat]?)
    "native Mining License purchase output index is out of range"
  reject (output.outputType ≠ outputLicensePayment ∨ output.payload.length ≠ 32)
    "native Mining License purchase does not reference a LICENSE_PAYMENT output"
  let expectedManifestHash ← purchase.manifest.manifestHash.mapError ProtocolError.message
  reject (output.payload ≠ Bytes.b32 expectedManifestHash)
    "LICENSE_PAYMENT manifest hash mismatch"
  let priceEach := max (subsidy blockEpoch) 1
  let required ← okOr (priceEach.checkedMul (UInt64.ofNat purchase.manifest.licenses.length))
    "native Mining License price overflow"
  reject (output.amountStrikes < required)
    ("LICENSE_PAYMENT underpays native Mining License price: " ++ toString output.amountStrikes ++
      " < " ++ toString required ++ " Strikes")
  let ids := purchase.licenseIds
  let known ← insertNewIds "derived LicenseID already exists" run.knownLicenses ids
  let licenses ← BitcoinPurchase.issueLicenses paymentId purchaseMethodMut blockEpoch s.licenses
    (ids.zip purchase.manifest.licenses)
  .ok { run with
    state := { s with
      licenses := licenses
      consumedNativePayments := s.consumedNativePayments ++ [paymentId] }
    seenPayments := paymentId :: run.seenPayments
    knownLicenses := known
    referencedPayments := payment :: run.referencedPayments }

/-- The checks a transfer and a rotation share in a block: one authority operation
a licence, and a fee ticket nobody else has used. -/
def takeFeeTicket (run : OperationRun) (txs : List TransactionV1) (licenseId : Bytes32)
    (unknown missing : String) : Except String (LicenseState × OperationRun) := do
  reject (licenseId ∈ run.authorityTargets)
    "V1 authority rules permit at most one authority operation per Mining License per block"
  let license ← okOr (run.state.findLicense licenseId) unknown
  let (_, feePos) ← okOr ((txs.zipIdx.drop 1).find? fun (tx, pos) =>
    !run.usedFeeTickets.contains pos && authorityFeeTicketMatches run.state tx license) missing
  .ok (license, { run with
    authorityTargets := licenseId :: run.authorityTargets
    usedFeeTickets := feePos :: run.usedFeeTickets })

/-- A licence changes its owner. -/
def applyTransfer (run : OperationRun) (txs : List TransactionV1) (op : ProtocolOperationV1) :
    Except String OperationRun := do
  let transfer ← decodeLicenseTransferOperation op
  let (license, run) ← takeFeeTicket run txs transfer.licenseId
    "Mining License transfer references unknown LicenseID"
    "Mining License transfer is missing its owner-funded authority fee ticket transaction"
  let (result, record) := applyLicenseTransfer license.record transfer
  let historical ← result.mapError ProtocolError.message
  let rekey (l : LicenseState) : LicenseState :=
    { l with
      ownerPublicKey := record.ownerPublicKey
      ownerKeySequence := record.ownerKeySequence
      miningPublicKey := record.miningPublicKey
      miningKeySequence := record.miningKeySequence
      paymentAddressId := addressId record.ownerPublicKey }
  let s := { run.state with
    licenses := updateFirst (fun l => l.licenseIdText == .encode transfer.licenseId) rekey
      run.state.licenses }
  let s ← storeHistoricalKeys s op transfer.licenseId historical
  .ok { run with state := s }

/-- A licence changes its mining key. -/
def applyRotation (run : OperationRun) (txs : List TransactionV1) (op : ProtocolOperationV1) :
    Except String OperationRun := do
  let rotation ← decodeMiningKeyRotationOperation op
  let (license, run) ← takeFeeTicket run txs rotation.licenseId
    "Mining-key rotation references unknown LicenseID"
    "Mining-key rotation is missing its owner-funded authority fee ticket transaction"
  let (result, record) := applyMiningKeyRotation license.record rotation
  let historical ← result.mapError ProtocolError.message
  let rekey (l : LicenseState) : LicenseState :=
    { l with
      miningPublicKey := record.miningPublicKey
      miningKeySequence := record.miningKeySequence }
  let s := { run.state with
    licenses := updateFirst (fun l => l.licenseIdText == .encode rotation.licenseId) rekey
      run.state.licenses }
  let s ← storeHistoricalKeys s op rotation.licenseId historical
  .ok { run with state := s }

/-- Apply one operation of a block. -/
def applyProtocolOperation (txs : List TransactionV1) (blockEpoch : UInt64) (run : OperationRun)
    (op : ProtocolOperationV1) : Except String OperationRun := do
  let inState (next : Except String DevnetState) : Except String OperationRun :=
    next.map fun s => { run with state := s }
  reject (op.opVersion ≠ 1) "unknown protocol operation version in block"
  if op.opType = opBitcoinHeaders then
    inState (BitcoinHeaders.applyOperation run.state op blockEpoch)
  else if op.opType = opLicensePurchaseBtc then applyBitcoinPurchase run op blockEpoch
  else if op.opType = opLicensePurchaseMut then applyNativePurchase run txs op blockEpoch
  else if op.opType = opLicenseTransfer then applyTransfer run txs op
  else if op.opType = opLicenseMiningKeyRotate then applyRotation run txs op
  else if op.opType = opPunishmentEvidence then
    inState (Punishment.applyOperation run.state op blockEpoch)
  else if op.opType = opDividendClaim then
    inState (Dividends.applyOperation run.state txs op blockEpoch)
  else if op.opType = opMiningPresence then
    inState (Presence.applyValidatedOperation run.state op)
  else .error ("block contains unsupported protocol operation 0x" ++ hex4 op.opType ++ "/v" ++
    toString op.opVersion)

/-- The licence payments among the outputs of the transactions after the coinbase. -/
def licensePayments (txs : List TransactionV1) : List OutPoint :=
  (txs.drop 1).flatMap fun tx =>
    (tx.core.outputs.zipIdx.filter fun (o, _) => o.outputType == outputLicensePayment).map
      fun (_, i) => ⟨tx.txid, UInt16.ofNat i⟩

/-- Every licence payment belongs to exactly one purchase. -/
def checkLicensePayments (referenced payments : List OutPoint) : Except String Unit :=
  payments.forM fun payment =>
    match referenced.count payment with
    | 1 => .ok ()
    | 0 => .error "LICENSE_PAYMENT output is missing its exactly-one native purchase Protocol Op"
    | _ => .error
        "LICENSE_PAYMENT output is referenced by more than one native purchase Protocol Op"

def applyProtocolOperations (s : DevnetState) (txs : List TransactionV1)
    (operations : List ProtocolOperationV1) (blockEpoch : UInt64) : Except String DevnetState := do
  Presence.prevalidateBlockOperations s operations blockEpoch
  let run ← operations.foldlM (applyProtocolOperation txs blockEpoch)
    { state := s
      seenPayments := s.consumedNativePayments
      knownLicenses := s.licenses.map (·.licenseId)
      referencedPayments := []
      usedFeeTickets := []
      authorityTargets := [] }
  checkLicensePayments run.referencedPayments (licensePayments txs)
  .ok { run.state with
    consumedNativePayments := (sortByKey id run.state.consumedNativePayments).eraseReps }

end Selection

end Mutiny
