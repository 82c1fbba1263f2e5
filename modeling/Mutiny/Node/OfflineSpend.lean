import Mutiny.Node.Spending

/-!
# Offline spends

A spend request is made online, signed on a machine without a network, and submitted
with its signatures.  Submission checks the request against the current state and builds
the transaction for the pool.
-/

namespace Mutiny

open Result

def offlineSpendMaxSubmitBlocks : UInt64 := 144

/-- What the owner is asked to sign. -/
structure OfflineSpendRequestV1 where
  networkId : UInt32
  genesisId : Bytes32
  fromLicenseId : Bytes32
  toLicenseId : Bytes32
  ownerPublicKey : Bytes32
  createdHeight : UInt64
  maxSubmitHeight : UInt64
  validFromEpoch : UInt64
  expiryEpoch : UInt64
  amountStrikes : UInt64
  feeStrikes : UInt64
  prevouts : List PrevoutCommitmentV1
  outputs : List TxOutput
deriving DecidableEq, Repr

/-- The transaction it asks for. -/
def OfflineSpendRequestV1.core (r : OfflineSpendRequestV1) : TransactionCoreV1 where
  version := 1
  networkId := r.networkId
  validFromEpoch := r.validFromEpoch
  expiryEpoch := r.expiryEpoch
  inputs := r.prevouts.map fun p => .outpoint p.outpoint
  outputs := r.outputs

/-- The owner's answer. -/
structure OfflineSpendSignatureV1 where
  networkId : UInt32
  requestHash : Bytes32
  ownerPublicKey : Bytes32
  signatures : List Bytes64
deriving DecidableEq, Repr

/-- The inputs of the pool. -/
def mempoolReservedInputs (s : DevnetState) : List StoredTxInput := s.mempool.flatMap (·.inputs)

/-- The first licence of the registry with the text the node writes for an identifier, and its
place. -/
def DevnetState.licensePosition (s : DevnetState) (id : Bytes32) : Option (LicenseState × Nat) :=
  s.licenses.zipIdx.find? fun l => l.1.licenseIdText == .encode id

section Submission

variable [Crypto]

/-- Inputs are controlled by the owner; the result is their sum. -/
def offlineInput (ownerAddress : Bytes32) (inputSum : UInt64) (p : PrevoutCommitmentV1) :
    Except String UInt64 := do
  reject (p.outputType ≠ outputPubkeyHash ∨ p.payload ≠ Bytes.b32 ownerAddress)
    "offline spend prevout is not controlled by the declared owner public key"
  addStrikes "offline spend input sum overflow" inputSum p.amountStrikes

/-- The checks of a request that read no state. -/
def validateOfflineRequestStatic (r : OfflineSpendRequestV1) : Except String Unit := do
  reject (r.networkId ≠ devnetNetworkId) "offline spend request NetworkID mismatch"
  reject (r.genesisId ≠ devnetGenesisId) "offline spend request GenesisID mismatch"
  reject (r.amountStrikes = 0) "offline spend amount must be greater than zero"
  reject (r.maxSubmitHeight < r.createdHeight ∨
    offlineSpendMaxSubmitBlocks < r.maxSubmitHeight - r.createdHeight)
    "offline spend submission horizon is invalid"
  reject (r.prevouts = [] ∨ 1024 < r.prevouts.length ∨ r.outputs = [] ∨ 2 < r.outputs.length)
    "offline spend request has invalid input/output shape"
  let ownerAddress := addressId r.ownerPublicKey
  let inputSum ← r.prevouts.foldlM (offlineInput ownerAddress) 0
  reject (r.outputs[0]?.any (fun destination => destination.amountStrikes = r.amountStrikes ∧
    destination.outputType = outputPubkeyHash ∧ destination.payload.length = 32) = false)
    "offline spend destination output does not match declared amount/type"
  reject (r.outputs[1]?.all (fun change => change.amountStrikes ≠ 0 ∧
    change.outputType = outputPubkeyHash ∧ change.payload = Bytes.b32 ownerAddress) = false)
    "offline spend change output is invalid"
  let outputSum ← (r.outputs.map (·.amountStrikes)).foldlM
    (addStrikes "offline spend output sum overflow") 0
  let actualFee ← okOr (inputSum.checkedSub outputSum) "offline spend creates value"
  reject (actualFee ≠ r.feeStrikes) "offline spend declared fee does not match input/output value"
  reject (r.core.inputs.length ≠ r.prevouts.length) "offline spend input/prevout count mismatch"

/-- An input of a request is still there, as it was. -/
def checkOfflinePrevout (s : DevnetState) (height : UInt64) (p : PrevoutCommitmentV1) :
    Except String Unit := do
  reject (p.outpoint.stored ∈ mempoolReservedInputs s)
    "offline spend request input is already reserved by the mempool"
  let current ← okOr (findUtxo s.utxos p.outpoint) "offline spend request input is no longer unspent"
  reject (current.spendableAtHeight height = false)
    "offline spend request input is not spendable at the next block height"
  reject (current.amountStrikes ≠ p.amountStrikes ∨ current.outputType ≠ p.outputType ∨
    current.payload ≠ p.payload)
    "offline spend request prevout commitment does not match current UTXO state"

/-- The witness of one input. -/
def offlineWitness (ownerPublicKey fromAddress txid : Bytes32)
    (entry : (PrevoutCommitmentV1 × Bytes64) × Nat) : Except String WitnessV1 := do
  let ((prevout, signature), i) := entry
  let witness := WitnessV1.pubkeyHash ownerPublicKey signature
  let digest := sighashAll txid (UInt16.ofNat i) prevout
  (verifyPubkeyHashWitness fromAddress digest witness).mapError fun e =>
    "offline spend signature " ++ toString i ++ " failed: " ++ e.message
  .ok witness

/-- The fee of a built transaction and the fee it has to pay. -/
def offlineFees (s : DevnetState) (r : OfflineSpendRequestV1) (tx : TransactionV1) :
    Except String (UInt64 × UInt64) := do
  let inputSum ← (r.prevouts.map (·.amountStrikes)).foldlM
    (addStrikes "offline spend input sum overflow") 0
  let outputSum ← (tx.core.outputs.map (·.amountStrikes)).foldlM
    (addStrikes "offline spend output sum overflow") 0
  let actualFee ← okOr (inputSum.checkedSub outputSum) "offline spend fee underflow"
  reject (actualFee ≠ r.feeStrikes) "offline spend fee changed from signed request"
  let actualBase ← (requiredBaseFee s.baseFeeRateQ32 tx.serializedLen).mapError TxError.message
  reject (actualFee < actualBase)
    ("offline spend request became stale because Base Fee rose: " ++ toString actualFee ++ " < " ++
      toString actualBase)
  .ok (actualFee, actualBase)

/-- Check a signed request against a state, and build the transaction for the pool. -/
def submitOfflineSpend (s : DevnetState) (requestBytes : Bytes) (r : OfflineSpendRequestV1)
    (signed : OfflineSpendSignatureV1) : Except String PendingTxState := do
  validateOfflineRequestStatic r
  reject (signed.networkId ≠ r.networkId ∨ signed.requestHash ≠ Crypto.sha256 requestBytes ∨
    signed.ownerPublicKey ≠ r.ownerPublicKey)
    "offline signed authorization does not match the spend request"
  reject (signed.signatures.length ≠ r.prevouts.length)
    "offline signed authorization signature count mismatch"
  reject (s.genesisHash ≠ r.genesisId) "offline spend request does not belong to this GenesisID"
  reject (r.maxSubmitHeight < s.height)
    "offline spend request has exceeded its 144-block submission horizon"
  let candidateEpoch := nextMineableEpoch s
  let candidateHeight := s.height + 1
  reject (candidateEpoch < r.validFromEpoch ∨ (r.expiryEpoch ≠ 0 ∧ r.expiryEpoch < candidateEpoch))
    "offline spend transaction is outside its epoch validity window"
  let (source, sourceIndex) ← okOr (s.licensePosition r.fromLicenseId)
    "offline spend source LicenseID is not present in current state"
  let (target, targetIndex) ← okOr (s.licensePosition r.toLicenseId)
    "offline spend destination LicenseID is not present in current state"
  reject (source.ownerPublicKey ≠ r.ownerPublicKey)
    "offline spend request owner authority is stale"
  reject (r.outputs[0]?.map (·.payload) ≠ some (Bytes.b32 target.paymentAddressId))
    "offline spend destination authority/payment address changed after request creation"
  reject (r.outputs.length = 2 ∧
    r.outputs[1]?.map (·.payload) ≠ some (Bytes.b32 source.paymentAddressId))
    "offline spend change address does not match current source owner"
  r.prevouts.forM (checkOfflinePrevout s candidateHeight)
  let txid := r.core.txid
  let witnesses ← (r.prevouts.zip signed.signatures).zipIdx.mapM
    (offlineWitness r.ownerPublicKey source.paymentAddressId txid)
  let tx : TransactionV1 := { core := r.core, witnesses := witnesses }
  let (actualFee, actualBase) ← offlineFees s r tx
  reject (256 ≤ sourceIndex) "offline spend local display index exceeds u8"
  reject (256 ≤ targetIndex) "offline spend local display index exceeds u8"
  .ok
    { txid := tx.txid
      wtxid := tx.wtxid
      validFromEpoch := tx.core.validFromEpoch
      expiryEpoch := tx.core.expiryEpoch
      inputs := r.prevouts.map (·.outpoint.stored)
      outputs := tx.core.outputs
      witnesses := tx.witnesses
      feeStrikes := actualFee
      baseFeeStrikes := actualBase
      fromLicense := UInt8.ofNat sourceIndex
      toLicense := UInt8.ofNat targetIndex
      amountStrikes := r.amountStrikes }

/-- A submitted transaction is stored with written inputs, and spends no input of the pool. -/
theorem submitOfflineSpend_unreserved {s : DevnetState} {requestBytes : Bytes}
    {r : OfflineSpendRequestV1} {signed : OfflineSpendSignatureV1} {pending : PendingTxState}
    (h : submitOfflineSpend s requestBytes r signed = .ok pending) :
    pending.Written ∧ ∀ o ∈ pending.inputs, o ∉ mempoolReservedInputs s := by
  simp only [submitOfflineSpend, ok_rules, forM_eq_ok] at h
  rcases h with ⟨_, -, _, -, _, -, _, -, _, -, _, -, _, -, _, -, _, -, _, -, _, -, _, hprevouts, _, -,
    _, -, _, -, _, -, rfl⟩
  constructor
  · rw [PendingTxState.Written, PendingTxState.outpoints, List.map_map, List.map_map]
    rfl
  intro o ho
  rcases List.mem_map.mp ho with ⟨p, hp, rfl⟩
  have hchecked := hprevouts p hp
  simp only [checkOfflinePrevout, ok_rules] at hchecked
  rcases hchecked with ⟨_, hfree, -⟩
  exact hfree

end Submission

end Mutiny
