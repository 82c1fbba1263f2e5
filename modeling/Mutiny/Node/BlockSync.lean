import Mutiny.Node.Bootstrap
import Mutiny.P2p.Frame

/-!
# Blocks on the wire and their validation

The bytes of a block, the pool record rebuilt from a received transaction, and
the validation of a block on a state.
-/

namespace Mutiny

open Result Reader

def maxBlockTxs : UInt64 := 1025

/-! ## The payload of a block -/

/-- A stored block as it is sent. -/
def encodeBlockPayload (block : BlockState) : Except String Bytes := do
  reject (block.header.length ≠ 272) "stored block header is not exactly 272 bytes"
  block.transactions.forM fun tx => do
    let parsed ← (TransactionV1.decodeFull tx).mapError TxError.message
    reject (parsed.encodeFull ≠ tx) "stored transaction is not canonical Pack-B encoding"
  block.protocolOperations.forM fun bytes => do
    let op ← decodeProtocolOperationBytes bytes
    reject (op.encode ≠ bytes) "stored protocol operation is not canonical encoding"
  let out := block.header ++ (writeVaruint 10 block.transactions.length ++
    (block.transactions.flatten ++ (writeVaruint 10 block.protocolOperations.length ++
      block.protocolOperations.flatten)))
  reject (maxP2pPayload < out.length) "encoded block exceeds P2P payload limit"
  .ok out

/-- The bytes of a header. -/
def readHeader : Reader String HeaderV1 := do
  let bytes ← take "unexpected end of block/header payload" 272
  pure (HeaderV1.decode bytes)

def readTransactionV1 : Reader String TransactionV1 :=
  TransactionV1.decodeFrom.mapError TxError.message

def readProtocolOperation : Reader String ProtocolOperationV1 := do
  let opType ← take "unexpected end of block/header payload" 2
  let opVersion ← take "unexpected end of block/header payload" 2
  let payloadLen ← readVaruint.mapError DecodeError.message
  let payload ← take "truncated protocol operation payload" payloadLen.toNat
  pure { opType := Bytes.toU16 opType, opVersion := Bytes.toU16 opVersion, payload := payload }

/-- The header, transactions and operations of a block, off the front of the bytes. -/
def readBlock : Reader String (HeaderV1 × List TransactionV1 × List ProtocolOperationV1) := do
  let header ← readHeader
  let txCount ← readVaruint.mapError DecodeError.message
  rejectIf (txCount = 0 ∨ maxBlockTxs < txCount)
    "block transaction count outside integrated limits"
  let txs ← replicateM readTransactionV1 txCount.toNat
  let opCount ← readVaruint.mapError DecodeError.message
  rejectIf (1024 < opCount) "protocol operation count exceeds V1 maximum 1024"
  let operations ← replicateM readProtocolOperation opCount.toNat
  pure (header, txs, operations)

variable [Crypto]

/-- A block and nothing after it. -/
def decodeBlockPayload (payload : Bytes) :
    Except String (HeaderV1 × List TransactionV1 × List ProtocolOperationV1) := do
  let ((header, txs, operations), rest) ← readBlock payload
  let _ ← (protocolOperationsRoot operations).mapError ProtocolError.message
  reject (rest ≠ []) "trailing bytes after canonical block body"
  .ok (header, txs, operations)

/-! ## Pool records of received transactions -/

/-- The outpoint of an input that is not a coinbase. -/
def inputOutpoint : TxInput → Except String OutPoint
  | .outpoint o => .ok o
  | .coinbase _ => .error "coinbase cannot be converted to ordinary pending transaction"

/-- The position of the licence paid at an address. -/
def licenseAtAddress (s : DevnetState) (payload : Bytes) : Option Nat :=
  s.licenses.findIdx? fun l => Bytes.b32 l.paymentAddressId == payload

/-- A display index as a byte; what does not fit is shown as zero. -/
def displayIndex (i : Nat) : UInt8 := if i < 256 then UInt8.ofNat i else 0

/-- Add the amount of an input to a sum, if the input is unspent in the state. -/
def addInputAmount (utxos : List UtxoState) (acc : UInt64) (o : OutPoint) :
    Except String UInt64 :=
  match findUtxo utxos o with
  | some u => addStrikes "input sum overflow" acc u.amountStrikes
  | none => .ok acc

/-- A received transaction with its inputs looked up. -/
def pendingFromTransaction (s : DevnetState) (tx : TransactionV1) :
    Except String PendingTxState := do
  reject (tx.core.version ≠ 1 ∨ tx.core.networkId ≠ s.networkId)
    "transaction version/network does not match selected state"
  let inputs ← tx.core.inputs.mapM inputOutpoint
  let firstOwner := ((inputs.head?.bind (findUtxo s.utxos)).bind fun u =>
    licenseAtAddress s u.payload).getD 0
  let authorityTarget := authorityFeeTicketLicenseIndex s tx
  let metadataOwner := authorityTarget.getD firstOwner
  let firstRecipient :=
    if tx.core.outputs.any fun o => o.outputType == outputLicensePayment then metadataOwner
    else
      match authorityTarget with
      | some target => target
      | none => (tx.core.outputs.head?.bind fun o =>
        if o.outputType ≠ outputPubkeyHash ∨ o.payload.length ≠ 32 then none
        else licenseAtAddress s o.payload).getD 0
  let inputSum ← inputs.foldlM (addInputAmount s.utxos) 0
  let outputSum ← (tx.core.outputs.map (·.amountStrikes)).foldlM
    (addStrikes "output sum overflow") 0
  let fee := inputSum.saturatingSub outputSum
  let baseFee ←
    if tx.witnesses.any fun w => w.witnessType == witnessProtocolAuth then .ok 0
    else (requiredBaseFee s.baseFeeRateQ32 tx.serializedLen).mapError TxError.message
  .ok { txid := tx.txid
        wtxid := tx.wtxid
        validFromEpoch := tx.core.validFromEpoch
        expiryEpoch := tx.core.expiryEpoch
        inputs := inputs.map OutPoint.stored
        outputs := tx.core.outputs
        witnesses := tx.witnesses
        feeStrikes := fee
        baseFeeStrikes := baseFee
        fromLicense := displayIndex metadataOwner
        toLicense := displayIndex firstRecipient
        amountStrikes := (tx.core.outputs.head?.map (·.amountStrikes)).getD 0 }

/-! ## Validation -/

/-- Whether a block claims to be the bootstrap block. -/
def isBootstrapBlock (s : DevnetState) (operations : List ProtocolOperationV1) : Bool :=
  s.height == 0 &&
    match operations with
    | [op] => op.opType == opBootstrapCommitment && op.opVersion == 1
    | _ => false

/-- The checks of a header that need no transition. -/
def checkHeaderPlace (s : DevnetState) (core : HeaderCoreV1) : Except String Unit := do
  reject (core.version ≠ 1 ∨ core.networkId ≠ s.networkId)
    "block header version/network mismatch"
  reject (core.epoch ≤ s.tipEpoch ∧ 0 < s.height)
    "block epoch is not greater than current tip epoch"
  reject (s.height = 0 ∧ core.epoch < activationDelayEpochs)
    "block predates bootstrap license activation"
  reject (core.parentHash ≠ s.tipHash) "block parent does not match local canonical tip"

/-- Licence, ticket, target, proof and signature of a header, on the state advanced
to its epoch.  The result is the miner's licence. -/
def checkWork (next : DevnetState) (header : HeaderV1) (operations : List ProtocolOperationV1) :
    Except String LicenseState := do
  let core := header.core
  let license ← okOr (next.findLicense core.licenseId)
    "block LicenseID is not present in the local registry"
  reject (license.isEligible core.epoch = false)
    "block LicenseID is not base-eligible at the candidate epoch"
  Presence.prevalidateBlockOperations next operations core.epoch
  let eligible ← Presence.candidateEligibleCount next core.epoch core.licenseId operations
  reject (workUnits eligible ≤ core.ticketIndex)
    "block ticket index is outside Pack-K candidate W_E"
  let expectedTarget ← deriveTarget (authorizedCapacity eligible) next.difficultyCorrectionQ32
  reject (core.target ≠ expectedTarget) "block target does not match locally derived target"
  reject (core.argon2Proof ≠ ticketProof next core.epoch core.licenseId core.ticketIndex)
    "Argon2id proof does not match deterministic licensed ticket"
  reject (proofBelowTarget core.argon2Proof expectedTarget = false)
    "block proof is not below target"
  reject (Crypto.validPublicKey license.miningPublicKey = false)
    "invalid mining public key in license state"
  reject (Crypto.verifyStrict license.miningPublicKey (Bytes.b32 (blockSigningDigest core))
    header.signature = false) "invalid block mining signature"
  .ok license

/-- The coinbase of a block, against the place of the block and its fees. -/
def checkCoinbase (next : DevnetState) (core : HeaderCoreV1) (height : UInt64)
    (license : LicenseState) (operations : List ProtocolOperationV1)
    (minerAmount treasuryShare : UInt64) (coinbase : TransactionV1) : Except String Unit := do
  reject (coinbase.core.version ≠ 1 ∨ coinbase.core.networkId ≠ next.networkId ∨
    coinbase.core.validFromEpoch ≠ core.epoch ∨ coinbase.core.expiryEpoch ≠ 0 ∨
    coinbase.witnesses ≠ []) "coinbase core/witness fields are not canonical"
  match coinbase.core.inputs with
  | [.coinbase commitment] =>
    let operationRoot ← (protocolOperationsRoot operations).mapError ProtocolError.message
    reject (commitment.blockEpoch ≠ core.epoch ∨ commitment.blockHeight ≠ height ∨
      commitment.parentBlockHash ≠ core.parentHash ∨
      commitment.protocolOperationsRoot ≠ operationRoot) "coinbase commitment mismatch"
    reject (coinbase.core.outputs ≠ coinbaseOutputs next.networkId minerAmount treasuryShare
      license.paymentAddressId) "coinbase outputs do not exactly match subsidy + fee split"
  | _ => .error "coinbase must have exactly one null-outpoint commitment input"

/-- The record of a validated transaction carries the fees found in the block. -/
def ValidatedTx.recorded (v : ValidatedTx) : PendingTxState :=
  { v.pending with feeStrikes := v.fee, baseFeeStrikes := v.baseFee }

/-- Advance a state to the epoch before a block. -/
def advanceBeforeBlock (s : DevnetState) (epoch : UInt64) : Except String DevnetState :=
  if 0 < epoch then advanceEmptyEpochs s (epoch - 1) else .ok s

/-- Advance a state to the epoch of a block. -/
def advanceToBlock (s : DevnetState) (epoch : UInt64) : Except String DevnetState := do
  let s ← advanceBeforeBlock s epoch
  applyScheduledLicenseTransitions s epoch

/-- Validate the body of a block on the state advanced to its epoch, and apply it. -/
def applyBlockBody (next : DevnetState) (license : LicenseState) (header : HeaderV1)
    (coinbase : TransactionV1) (ordinary : List TransactionV1)
    (operations : List ProtocolOperationV1) : Except String DevnetState := do
  let core := header.core
  let txs := coinbase :: ordinary
  let txRoot ← okOr (merkleRoot (txs.map (·.leaf))) "block has no transaction Merkle root"
  reject (txRoot ≠ core.transactionRoot) "TransactionRoot mismatch"
  let blockWeight ← blockBodyWeight txs operations
  reject (blockWeightMax < blockWeight) "block exceeds maximum body weight"
  let height := next.height + 1
  let pending ← ordinary.mapM (pendingFromTransaction next)
  let (validated, utxos) ← validateAndApplyMempool { next with mempool := pending } next.utxos
    core.epoch height operations
  let (totalFees, treasuryShare) ← splitFees validated
  let reward := subsidy core.epoch
  let minerAmount ← minerCoinbaseAmount reward totalFees treasuryShare
  checkCoinbase next core height license operations minerAmount treasuryShare coinbase
  let utxos ← addOutputsAsUtxos utxos coinbase core.epoch height true
  let totalIssued ← okOr (next.totalIssuedStrikes.checkedAdd reward) "supply overflow"
  let difficulty ← historyAfterBlock next
  let baseFee ← adjustedBaseFeeRate next.baseFeeRateQ32 blockWeight
  let post ← applyProtocolOperations { next with tipEpoch := core.epoch } txs operations core.epoch
  let stateRoot ← computeStateRoot post
    { utxos := utxos
      height := height
      totalIssued := totalIssued
      difficulty := difficulty
      baseFeeRate := baseFee }
  reject (stateRoot ≠ core.stateRoot)
    ("StateRoot mismatch: header=" ++ hexId core.stateRoot ++ " local=" ++ hexId stateRoot)
  let confirmedIds := validated.map (·.pending.txid)
  let next := dropConfirmed (post.commitBlock
    { height := height
      header := header
      totalIssued := totalIssued
      difficulty := difficulty
      baseFee := baseFee
      stateRoot := stateRoot
      utxos := utxos }) confirmedIds operations
  .ok { next with
    confirmedTransactions := next.confirmedTransactions ++ validated.map fun v =>
      { tx := v.recorded
        blockHeight := height
        blockEpoch := core.epoch
        blockHash := blockHash header }
    blocks := next.blocks ++ [blockRecord height header txs operations reward totalFees
      treasuryShare blockWeight coinbase confirmedIds] }

/-- Validate a block and apply it.  The given state is untouched when it fails. -/
def validateAndApplyBlock (s : DevnetState) (header : HeaderV1) (txs : List TransactionV1)
    (operations : List ProtocolOperationV1) : Except String DevnetState := do
  let runtime ← runtimeForState s
  reject (runtime = .mainnet ∧ s.height = 0)
    "Mainnet Genesis -> Block1 requires the authenticated runtime bootstrap route"
  if isBootstrapBlock s operations then validateAndApplyDevnetBlock1 s header txs operations
  else
    checkHeaderPlace s header.core
    let next ← advanceToBlock s header.core.epoch
    let license ← checkWork next header operations
    match txs with
    | [] => .error "block has no coinbase transaction"
    | coinbase :: ordinary => applyBlockBody next license header coinbase ordinary operations

end Mutiny
