import Mutiny.Lib.HexText
import Mutiny.Lib.Lists
import Mutiny.Protocol.License

/-!
# The state of a node

The record a node keeps of its chain: the licence registry, the collections the
state root covers, the unspent outputs, the pool of transactions, the queue of
protocol operations and the accepted blocks.  A field the node stores as
hexadecimal text is the value that text denotes.  LicenseIDs and the transaction of an
output, which the node also compares as texts, are kept as texts of either letter case.
-/

namespace Mutiny

open Result

def motto : String := "No Masters. Only the Many."

def bootstrapLicenseCount : Nat := 12
def strikesPerMut : UInt64 := 100000000
def eraLength : UInt64 := 2097152
def coinbaseMaturity : UInt64 := 16
def baseFeeMinQ32 : UInt64 := 4294967296
def baseFeeMaxQ32 : UInt64 := 4503599627370496
def blockWeightTarget : UInt64 := 65536
def blockWeightMax : UInt64 := 131072
def difficultyQ32One : UInt64 := 4294967296
def difficultyEasierStepQ32 : UInt64 := 4341736423
def difficultyHarderStepQ32 : UInt64 := 4248701965
def difficultyCMinQ32 : UInt64 := 65536
def difficultyCMaxQ32 : UInt64 := 281474976710656
def maxNetworkMempoolTxs : Nat := 4096

/-! ## Licences -/

/-- A stored licence. -/
structure LicenseState where
  index : UInt32
  licenseIdText : HexText
  purchaseId : Bytes32
  ownerPublicKey : Bytes32
  miningPublicKey : Bytes32
  paymentAddressId : Bytes32
  status : UInt8
  purchaseMethod : UInt8
  ownerKeySequence : UInt32
  miningKeySequence : UInt32
  issuedEpoch : UInt64
  activationEpoch : UInt64
  strikeWeight : UInt8
  suspendedUntilEpoch : UInt64
  revocationEpoch : UInt64
deriving DecidableEq, Repr

namespace LicenseState

/-- The LicenseID, whatever the case of its text. -/
def licenseId (l : LicenseState) : Bytes32 := l.licenseIdText.bytes

@[simp]
theorem bytes_licenseIdText (l : LicenseState) : l.licenseIdText.bytes = l.licenseId := rfl

@[simp]
theorem licenseId_mk (i t p o m a s q os ms ie ae w su r) :
    (mk i t p o m a s q os ms ie ae w su r).licenseId = t.bytes := rfl

/-- Different identifiers have different texts. -/
theorem nodup_texts {licenses : List LicenseState} (h : (licenses.map (·.licenseId)).Nodup) :
    (licenses.map (·.licenseIdText)).Nodup := by
  have hmap : licenses.map (·.licenseId) = (licenses.map (·.licenseIdText)).map HexText.bytes := by
    rw [List.map_map]
    rfl
  rw [hmap] at h
  exact h.of_map

theorem map_licenseId (licenses : List LicenseState) :
    licenses.map (·.licenseId) = (licenses.map (·.licenseIdText)).map HexText.bytes := by
  rw [List.map_map]
  rfl

/-- The part of a licence the state root covers. -/
def record (l : LicenseState) : LicenseRecordV1 where
  version := 1
  status := l.status
  purchaseMethod := l.purchaseMethod
  purchaseId := l.purchaseId
  ownerPublicKey := l.ownerPublicKey
  ownerKeySequence := l.ownerKeySequence
  miningPublicKey := l.miningPublicKey
  miningKeySequence := l.miningKeySequence
  issuedEpoch := l.issuedEpoch
  activationEpoch := l.activationEpoch
  strikeWeight := l.strikeWeight
  suspendedUntilEpoch := l.suspendedUntilEpoch
  revocationEpoch := l.revocationEpoch

/-- Whether the licence may mine at an epoch. -/
def isEligible (l : LicenseState) (epoch : UInt64) : Bool :=
  l.status == licenseStatusActive && decide (l.activationEpoch ≤ epoch) &&
    decide (l.suspendedUntilEpoch ≤ epoch) && l.revocationEpoch == 0

end LicenseState

/-- Keys a licence had before an operation replaced them. -/
structure HistoricalLicenseKeyState where
  operationId : Bytes32
  licenseIdText : HexText
  ownerPublicKey : Bytes32
  ownerKeySequence : UInt32
  miningPublicKey : Bytes32
  miningKeySequence : UInt32
deriving DecidableEq, Repr

namespace HistoricalLicenseKeyState

/-- The LicenseID, whatever the case of its text. -/
def licenseId (h : HistoricalLicenseKeyState) : Bytes32 := h.licenseIdText.bytes

/-- The bytes the state root covers. -/
def valueBytes (h : HistoricalLicenseKeyState) : Bytes :=
  Bytes.b32 h.licenseId ++ (Bytes.b32 h.ownerPublicKey ++ (Bytes.u32 h.ownerKeySequence ++
    (Bytes.b32 h.miningPublicKey ++ Bytes.u32 h.miningKeySequence)))

/-- The entry with its LicenseID in lower case. -/
def lower (h : HistoricalLicenseKeyState) : HistoricalLicenseKeyState :=
  { h with licenseIdText := .encode h.licenseId }

theorem valueBytes_inj {a b : HistoricalLicenseKeyState} (hid : a.operationId = b.operationId)
    (h : a.valueBytes = b.valueBytes) : a.lower = b.lower := by
  simp only [valueBytes, Bytes.be_append_inj, Bytes.u32_inj, Bytes.b32_inj] at h
  simp [lower, hid, h]

end HistoricalLicenseKeyState

/-- A bitcoin payment that has bought its licences. -/
structure BitcoinPaymentState where
  paymentId : Bytes32
  txidInternal : Bytes32
  paymentOutputIndex : UInt32
  paidSats : UInt64
  containingBlockHashInternal : Bytes32
  containingBlockHeight : UInt32
  sixthConfirmationHashInternal : Bytes32
  sixthConfirmationHeight : UInt32
  sixthConfirmationTimestamp : UInt32
deriving DecidableEq, Repr

/-- What a payment leaf hashes. -/
def BitcoinPaymentState.valueBytes (p : BitcoinPaymentState) : Bytes :=
  Bytes.b32 p.txidInternal ++ (Bytes.u32 p.paymentOutputIndex ++ (Bytes.u64 p.paidSats ++
    (Bytes.b32 p.containingBlockHashInternal ++ (Bytes.u32 p.containingBlockHeight ++
      (Bytes.b32 p.sixthConfirmationHashInternal ++ (Bytes.u32 p.sixthConfirmationHeight ++
        Bytes.u32 p.sixthConfirmationTimestamp))))))

theorem BitcoinPaymentState.valueBytes_inj {a b : BitcoinPaymentState}
    (hid : a.paymentId = b.paymentId) (h : a.valueBytes = b.valueBytes) : a = b := by
  simp only [valueBytes, Bytes.be_append_inj, Bytes.u32_inj, Bytes.u64_inj, Bytes.b32_inj] at h
  rcases a with ⟨_, _, _, _, _, _, _, _, _⟩
  rcases b with ⟨_, _, _, _, _, _, _, _, _⟩
  cases hid
  rcases h with ⟨rfl, rfl, rfl, rfl, rfl, rfl, rfl, rfl⟩
  rfl

/-- A proved offence that has not expired yet. -/
structure OffenseEventState where
  evidenceId : Bytes32
  licenseIdText : HexText
  offenseType : UInt16
  weight : UInt8
  appliedEpoch : UInt64
  expiryEpoch : UInt64
deriving DecidableEq, Repr

namespace OffenseEventState

/-- The LicenseID, whatever the case of its text. -/
def licenseId (e : OffenseEventState) : Bytes32 := e.licenseIdText.bytes

/-- The bytes the state root covers. -/
def valueBytes (e : OffenseEventState) : Bytes :=
  Bytes.b32 e.licenseId ++ (Bytes.u16 e.offenseType ++ (e.weight ::
    (Bytes.u64 e.appliedEpoch ++ Bytes.u64 e.expiryEpoch)))

/-- The offence with its LicenseID in lower case. -/
def lower (e : OffenseEventState) : OffenseEventState :=
  { e with licenseIdText := .encode e.licenseId }

theorem valueBytes_inj {a b : OffenseEventState} (hid : a.evidenceId = b.evidenceId)
    (h : a.valueBytes = b.valueBytes) : a.lower = b.lower := by
  simp only [valueBytes, Bytes.be_append_inj, List.cons.injEq, Bytes.u16_inj, Bytes.u64_inj,
    Bytes.b32_inj] at h
  simp [lower, hid, h]

end OffenseEventState

/-- What a licence may still claim of an award. -/
structure DividendAccountState where
  licenseIdText : HexText
  awardEpoch : UInt64
  claimDeadlineEpoch : UInt64
  claimableStrikes : UInt64
deriving DecidableEq, Repr

namespace DividendAccountState

/-- The LicenseID, whatever the case of its text. -/
def licenseId (a : DividendAccountState) : Bytes32 := a.licenseIdText.bytes

/-- The part of the account the state root covers. -/
def account (a : DividendAccountState) : LicenseDividendAccountV1 where
  licenseId := a.licenseId
  awardEpoch := a.awardEpoch
  claimDeadlineEpoch := a.claimDeadlineEpoch
  claimableStrikes := a.claimableStrikes

/-- The stored account after a claim. -/
def updateFrom (a : DividendAccountState) (account : LicenseDividendAccountV1) :
    DividendAccountState :=
  { a with
    awardEpoch := account.awardEpoch
    claimDeadlineEpoch := account.claimDeadlineEpoch
    claimableStrikes := account.claimableStrikes }

/-- The account with its LicenseID in lower case. -/
def lower (a : DividendAccountState) : DividendAccountState :=
  { a with licenseIdText := .encode a.licenseId }

theorem account_inj {a b : DividendAccountState} (h : a.account = b.account) :
    a.lower = b.lower := by
  simp only [account, LicenseDividendAccountV1.mk.injEq] at h
  simp [lower, h]

end DividendAccountState

/-- The presence a licence last showed. -/
structure MiningPresenceState where
  licenseIdText : HexText
  miningKeySequence : UInt32
  lastPresenceEpoch : UInt64
  lastPresenceOperationId : Bytes32
deriving DecidableEq, Repr

namespace MiningPresenceState

/-- The LicenseID, whatever the case of its text. -/
def licenseId (p : MiningPresenceState) : Bytes32 := p.licenseIdText.bytes

/-- The part of the record the state root covers. -/
def value (p : MiningPresenceState) : MiningPresenceStateV1 where
  version := 1
  miningKeySequence := p.miningKeySequence
  lastPresenceEpoch := p.lastPresenceEpoch
  lastPresenceOperationId := p.lastPresenceOperationId

/-- The bytes of the value, whose version is the valid one. -/
def valueBytes (p : MiningPresenceState) : Bytes := p.value.toBytes

theorem encode_value (p : MiningPresenceState) : p.value.encode = .ok p.valueBytes := rfl

/-- The presence with its LicenseID in lower case. -/
def lower (p : MiningPresenceState) : MiningPresenceState :=
  { p with licenseIdText := .encode p.licenseId }

theorem valueBytes_inj {a b : MiningPresenceState} (hid : a.licenseId = b.licenseId)
    (h : a.valueBytes = b.valueBytes) : a.lower = b.lower := by
  have hvalue := MiningPresenceStateV1.toBytes_inj h
  simp only [value, MiningPresenceStateV1.mk.injEq] at hvalue
  simp [lower, hid, hvalue]

end MiningPresenceState

/-- A stored Bitcoin header. -/
structure BitcoinHeaderStateStored where
  blockHashInternal : Bytes32
  height : UInt32
  rawHeader : Bytes80
  relativeChainwork : Bytes32
deriving DecidableEq, Repr

def BitcoinHeaderStateStored.valueBytes (h : BitcoinHeaderStateStored) : Bytes :=
  Bytes.u16 1 ++ (Bytes.u32 h.height ++ (Bytes.b80 h.rawHeader ++ Bytes.b32 h.relativeChainwork))

theorem BitcoinHeaderStateStored.valueBytes_inj {a b : BitcoinHeaderStateStored}
    (hid : a.blockHashInternal = b.blockHashInternal) (h : a.valueBytes = b.valueBytes) : a = b := by
  simp only [valueBytes, Bytes.be_append_inj, Bytes.u32_inj, Bytes.b80_inj, Bytes.b32_inj,
    true_and] at h
  rcases a with ⟨_, _, _, _⟩
  rcases b with ⟨_, _, _, _⟩
  cases hid
  rcases h with ⟨rfl, rfl, rfl⟩
  rfl

def BitcoinHeaderStateStored.header (h : BitcoinHeaderStateStored) : BitcoinHeader where
  raw := h.rawHeader

/-- The tip of the best chain. -/
structure BitcoinBestChainStored where
  tipHashInternal : Bytes32
  tipHeight : UInt32
  tipRelativeChainwork : Bytes32
deriving DecidableEq, Repr

def BitcoinBestChainStored.valueBytes (b : BitcoinBestChainStored) : Bytes :=
  Bytes.u16 1 ++ (Bytes.b32 b.tipHashInternal ++ (Bytes.u32 b.tipHeight ++
    Bytes.b32 b.tipRelativeChainwork))

theorem BitcoinBestChainStored.valueBytes_inj {a b : BitcoinBestChainStored}
    (h : a.valueBytes = b.valueBytes) : a = b := by
  simp only [valueBytes, Bytes.be_append_inj, Bytes.u32_inj, Bytes.b32_inj, true_and] at h
  rcases a with ⟨_, _, _⟩
  rcases b with ⟨_, _, _⟩
  rcases h with ⟨rfl, rfl, rfl⟩
  rfl

/-! ## Outputs and transactions -/

/-- The place of an output as the state stores it. -/
structure StoredTxInput where
  previousTxid : HexText
  previousOutputIndex : UInt16
deriving DecidableEq, Repr

/-- The outpoint a stored place denotes. -/
def StoredTxInput.outpoint (i : StoredTxInput) : OutPoint :=
  ⟨i.previousTxid.bytes, i.previousOutputIndex⟩

/-- The place of an outpoint as the node writes it. -/
def OutPoint.stored (o : OutPoint) : StoredTxInput :=
  ⟨.encode o.previousTxid, o.previousOutputIndex⟩

@[simp]
theorem OutPoint.outpoint_stored (o : OutPoint) : o.stored.outpoint = o := rfl

@[simp]
theorem OutPoint.stored_inj {o p : OutPoint} : o.stored = p.stored ↔ o = p :=
  ⟨congrArg StoredTxInput.outpoint, congrArg OutPoint.stored⟩

@[simp]
theorem OutPoint.map_outpoint_stored (os : List OutPoint) :
    (os.map OutPoint.stored).map StoredTxInput.outpoint = os := by
  rw [List.map_map]
  exact List.map_id os

/-- An unspent output. -/
structure UtxoState where
  txid : HexText
  outputIndex : UInt16
  amountStrikes : UInt64
  outputType : UInt8
  payload : Bytes
  creationEpoch : UInt64
  creationHeight : UInt64
  coinbase : Bool
deriving DecidableEq, Repr

namespace UtxoState

/-- Where the output is, as the state stores it. -/
def place (u : UtxoState) : StoredTxInput := ⟨u.txid, u.outputIndex⟩

/-- The outpoint that spends the output. -/
def outpoint (u : UtxoState) : OutPoint := u.place.outpoint

/-- What an output leaf hashes. -/
def value (u : UtxoState) : UtxoValueV1 where
  amountStrikes := u.amountStrikes
  outputType := u.outputType
  payload := u.payload
  creationEpoch := u.creationEpoch
  creationHeight := u.creationHeight
  coinbase := u.coinbase

/-- What a signature says of an output. -/
def prevout (u : UtxoState) : PrevoutCommitmentV1 where
  outpoint := u.outpoint
  amountStrikes := u.amountStrikes
  outputType := u.outputType
  payload := u.payload

/-- An output may be spent at a height. -/
def spendableAtHeight (u : UtxoState) (candidateHeight : UInt64) : Bool :=
  !u.coinbase || decide (u.creationHeight.saturatingAdd coinbaseMaturity ≤ candidateHeight)

end UtxoState

/-- The sum of all unspent amounts. -/
def utxoSupply (utxos : List UtxoState) : Nat := (utxos.map fun u => u.amountStrikes.toNat).sum

/-- A transaction as the pool stores it, with the fees found when it was admitted.
The three last fields serve the wallet's display. -/
structure PendingTxState where
  txid : Bytes32
  wtxid : Bytes32
  validFromEpoch : UInt64
  expiryEpoch : UInt64
  inputs : List StoredTxInput
  outputs : List TxOutput
  witnesses : List WitnessV1
  feeStrikes : UInt64
  baseFeeStrikes : UInt64
  fromLicense : UInt8
  toLicense : UInt8
  amountStrikes : UInt64
deriving DecidableEq, Repr

namespace PendingTxState

/-- The outpoints the stored inputs denote. -/
def outpoints (p : PendingTxState) : List OutPoint := p.inputs.map StoredTxInput.outpoint

/-- The inputs are stored as the node writes outpoints. -/
def Written (p : PendingTxState) : Prop := p.inputs = p.outpoints.map OutPoint.stored

theorem Written.stored_mem {p : PendingTxState} (h : p.Written) {o : OutPoint}
    (ho : o ∈ p.outpoints) : o.stored ∈ p.inputs := by
  rw [Written] at h
  rw [h]
  exact List.mem_map_of_mem ho

/-- Whether it pays for a licence. -/
def hasLicensePaymentOutput (p : PendingTxState) : Bool :=
  p.outputs.any fun o => o.outputType == outputLicensePayment

/-- Whether an operation allows it. -/
def hasProtocolAuthWitness (p : PendingTxState) : Bool :=
  p.witnesses.any fun w => w.witnessType == witnessProtocolAuth

def toTransactionForNetwork (p : PendingTxState) (networkId : UInt32) : TransactionV1 where
  core :=
    { version := 1
      networkId := networkId
      validFromEpoch := p.validFromEpoch
      expiryEpoch := p.expiryEpoch
      inputs := p.outpoints.map .outpoint
      outputs := p.outputs }
  witnesses := p.witnesses

end PendingTxState

/-- A queued operation with the transaction it needs in the same block, if any. -/
structure PendingProtocolOperationState where
  operation : Bytes
  requiredTxid : Option Bytes32
deriving DecidableEq, Repr

def PendingProtocolOperationState.decoded (p : PendingProtocolOperationState) :
    Except String ProtocolOperationV1 :=
  decodeProtocolOperationBytes p.operation

/-- A confirmed transaction. -/
structure ConfirmedTxState where
  tx : PendingTxState
  blockHeight : UInt64
  blockEpoch : UInt64
  blockHash : Bytes32
deriving DecidableEq, Repr

/-- A stored block. -/
structure BlockState where
  height : UInt64
  epoch : UInt64
  /-- The 272 bytes of the header. -/
  header : Bytes
  transactions : List Bytes
  protocolOperations : List Bytes
  blockHash : Bytes32
  parentHash : Bytes32
  minerLicenseId : Bytes32
  ticketIndex : UInt16
  argon2Proof : Bytes32
  target : Bytes32
  rewardStrikes : UInt64
  totalFeesStrikes : UInt64
  treasuryFeeShareStrikes : UInt64
  blockWeight : UInt64
  transactionRoot : Bytes32
  stateRoot : Bytes32
  coinbaseTxid : Bytes32
  transactionIds : List Bytes32
deriving DecidableEq, Repr

/-! ## The node -/

/-- The state of a node, of either network. -/
structure DevnetState where
  formatVersion : UInt16
  networkId : UInt32
  motto : String
  genesisTimeMs : Nat
  genesisHash : Bytes32
  height : UInt64
  tipHash : Bytes32
  tipEpoch : UInt64
  anchorEpoch : UInt64
  anchorLicenseId : Bytes32
  anchorTicketIndex : UInt16
  anchorArgon2Proof : Bytes32
  totalIssuedStrikes : UInt64
  difficultyHistoryCount : UInt8
  difficultyHistoryBitmap : UInt64
  difficultyCorrectionQ32 : UInt64
  baseFeeRateQ32 : UInt64
  currentStateRoot : Bytes32
  licenses : List LicenseState
  consumedNativePayments : List Bytes32
  consumedBitcoinPayments : List BitcoinPaymentState
  consumedEvidence : List Bytes32
  offenseEvents : List OffenseEventState
  treasuryReservedDividendStrikes : UInt64
  dividendAccounts : List DividendAccountState
  historicalLicenseKeys : List HistoricalLicenseKeyState
  miningPresence : List MiningPresenceState
  bitcoinHeaders : List BitcoinHeaderStateStored
  bitcoinBestChain : Option BitcoinBestChainStored
  utxos : List UtxoState
  mempool : List PendingTxState
  pendingProtocolOperations : List PendingProtocolOperationState
  confirmedTransactions : List ConfirmedTxState
  blocks : List BlockState
deriving DecidableEq, Repr

/-- Whether a queued operation needs the transaction. -/
def transactionIsProtocolBound (s : DevnetState) (txid : Bytes32) : Bool :=
  s.pendingProtocolOperations.any fun op => op.requiredTxid == some txid

/-- The first licence with an identifier. -/
def DevnetState.findLicense (s : DevnetState) (licenseId : Bytes32) : Option LicenseState :=
  s.licenses.find? fun l => l.licenseIdText == .encode licenseId

theorem DevnetState.text_of_findLicense {s : DevnetState} {id : Bytes32} {l : LicenseState}
    (h : s.findLicense id = some l) : l.licenseIdText = .encode id := by
  simpa using List.find?_some h

theorem DevnetState.licenseId_of_findLicense {s : DevnetState} {id : Bytes32} {l : LicenseState}
    (h : s.findLicense id = some l) : l.licenseId = id :=
  congrArg HexText.bytes (s.text_of_findLicense h)

end Mutiny
