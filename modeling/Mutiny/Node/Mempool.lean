import Mutiny.Node.Dividends

/-!
# The pool of transactions

The loop that validates pooled transactions one after the other on a working set
of unspent outputs, and the admission of a new transaction, which runs that loop
over the whole pool.
-/

namespace Mutiny

open Result

/-- A transaction that passed, with the fee it pays and the fee it had to pay. -/
structure ValidatedTx where
  pending : PendingTxState
  tx : TransactionV1
  fee : UInt64
  baseFee : UInt64
deriving DecidableEq, Repr

/-- An identifier as the node prints it. -/
def hexId (id : Bytes32) : String := Bytes.hexEncode (Bytes.b32 id)

section Validation

variable [Crypto]

/-- The checks of a pooled transaction that read nothing but the transaction and
the epoch. -/
def checkEnvelope (networkId : UInt32) (epoch : UInt64) (pending : PendingTxState)
    (tx : TransactionV1) : Except String Unit := do
  reject (tx.txid ≠ pending.txid ∨ tx.wtxid ≠ pending.wtxid)
    ("mempool transaction " ++ hexId pending.txid ++ " ID mismatch")
  reject (tx.core.version ≠ 1 ∨ tx.core.networkId ≠ networkId)
    ("transaction " ++ hexId pending.txid ++ " has wrong version/network")
  reject (epoch < tx.core.validFromEpoch ∨
    (tx.core.expiryEpoch ≠ 0 ∧ tx.core.expiryEpoch < epoch))
    ("transaction " ++ hexId pending.txid ++ " is outside its epoch validity window")
  reject (tx.core.inputs = [] ∨ tx.core.outputs = [] ∨ 1024 < tx.core.inputs.length ∨
    1024 < tx.core.outputs.length)
    ("transaction " ++ hexId pending.txid ++ " has invalid input/output count")
  reject (tx.witnesses.length ≠ tx.core.inputs.length)
    ("transaction " ++ hexId pending.txid ++ " witness count mismatch")

/-- One input of an ordinary transaction: the outpoints before it and the sum so
far. -/
def spendInput (utxos : List UtxoState) (height : UInt64) (txid : Bytes32)
    (acc : List OutPoint × Nat) (entry : (TxInput × WitnessV1) × Nat) :
    Except String (List OutPoint × Nat) := do
  let (consumed, inputSum) := acc
  let ((input, witness), inputIndex) := entry
  match input with
  | .coinbase _ => .error "ordinary transaction cannot contain coinbase input"
  | .outpoint o =>
    reject (o ∈ consumed) ("transaction " ++ hexId txid ++ " duplicates an input")
    let utxo ← okOr (findUtxo utxos o)
      ("transaction " ++ hexId txid ++ " references missing UTXO")
    reject (utxo.spendableAtHeight height = false)
      ("transaction " ++ hexId txid ++ " spends immature coinbase")
    reject (utxo.outputType ≠ outputPubkeyHash)
      ("Integrated V1 send path cannot spend output type " ++ toString utxo.outputType)
    let address ← decode32 utxo.payload
    let digest := sighashAll txid (UInt16.ofNat inputIndex) utxo.prevout
    (verifyPubkeyHashWitness address digest witness).mapError fun e =>
      "transaction " ++ hexId txid ++ " signature failure: " ++ e.message
    .ok (consumed ++ [o], inputSum + utxo.amountStrikes.toNat)

/-- The outputs of an ordinary transaction; the result is their sum. -/
def sumOutput (txid : Bytes32) (outputSum : Nat) (output : TxOutput) : Except String Nat := do
  reject (output.amountStrikes = 0)
    ("transaction " ++ hexId txid ++ " contains zero-value output")
  if output.outputType = outputPubkeyHash then
    reject (output.payload.length ≠ 32)
      ("transaction " ++ hexId txid ++ " has invalid address payload")
  else if output.outputType = outputLicensePayment then
    reject (output.payload.length ≠ 32)
      ("transaction " ++ hexId txid ++ " has invalid LICENSE_PAYMENT manifest hash")
  else
    .error ("Integrated Build 5.0 ordinary transaction output type unsupported: " ++
      toString output.outputType)
  .ok (outputSum + output.amountStrikes.toNat)

/-- Validate an ordinary transaction and apply it to the working set. -/
def applyOrdinary (baseFeeRate : UInt64) (utxos : List UtxoState) (epoch height : UInt64)
    (tx : TransactionV1) : Except String (UInt64 × UInt64 × List UtxoState) := do
  let (consumed, inputSum) ← ((tx.core.inputs.zip tx.witnesses).zipIdx).foldlM
    (spendInput utxos height tx.txid) ([], 0)
  let outputSum ← tx.core.outputs.foldlM (sumOutput tx.txid) 0
  reject (inputSum < outputSum) ("transaction " ++ hexId tx.txid ++ " creates value")
  let fee ← okOr (UInt64.tryFrom (inputSum - outputSum)) "fee overflow"
  let baseFee ← (requiredBaseFee baseFeeRate tx.serializedLen).mapError TxError.message
  reject (fee < baseFee)
    ("transaction " ++ hexId tx.txid ++ " underpays Base Fee: " ++ toString fee ++ " < " ++
      toString baseFee)
  let remaining ← removeUtxos "UTXO disappeared during block application" utxos consumed
  let utxos ← addOutputsAsUtxos remaining tx epoch height false
  .ok (fee, baseFee, utxos)

/-- One turn of the loop: a transaction that pays a claim of the block is a
dividend payment, every other one is ordinary. -/
def validateAndApplyPending (s : DevnetState) (epoch height : UInt64)
    (operations : List ProtocolOperationV1) (utxos : List UtxoState) (pending : PendingTxState) :
    Except String (ValidatedTx × List UtxoState) := do
  let tx := pending.toTransactionForNetwork s.networkId
  checkEnvelope s.networkId epoch pending tx
  match ← Dividends.claimOperationForTx operations tx.txid with
  | some op =>
    let utxos ← Dividends.validateAndApplyPayment s utxos tx op epoch height
    .ok ({ pending := pending, tx := tx, fee := 0, baseFee := 0 }, utxos)
  | none =>
    let (fee, baseFee, utxos) ← applyOrdinary s.baseFeeRateQ32 utxos epoch height tx
    .ok ({ pending := pending, tx := tx, fee := fee, baseFee := baseFee }, utxos)

/-- Validate a list of pooled transactions in order. -/
def validateAndApplyList (s : DevnetState) (epoch height : UInt64)
    (operations : List ProtocolOperationV1) :
    List PendingTxState → List UtxoState → Except String (List ValidatedTx × List UtxoState)
  | [], utxos => .ok ([], utxos)
  | pending :: rest, utxos => do
    let (v, utxos) ← validateAndApplyPending s epoch height operations utxos pending
    let (vs, utxos) ← validateAndApplyList s epoch height operations rest utxos
    .ok (v :: vs, utxos)

/-- The pool of a state on a working set.  The result is what was validated and
the working set afterwards. -/
def validateAndApplyMempool (s : DevnetState) (utxos : List UtxoState) (epoch height : UInt64)
    (operations : List ProtocolOperationV1) :
    Except String (List ValidatedTx × List UtxoState) :=
  validateAndApplyList s epoch height operations s.mempool utxos

/-! ## Admission -/

/-- Whether a transaction is pooled or confirmed. -/
def alreadyKnown (s : DevnetState) (txid : Bytes32) : Bool :=
  s.mempool.any (fun t => t.txid == txid) || s.confirmedTransactions.any fun t => t.tx.txid == txid

/-- The checks before a transaction is pending. -/
def validatePendingCandidate (s : DevnetState) (pending : PendingTxState)
    (allowProtocolBound : Bool) : Except String Unit := do
  reject (pending.hasLicensePaymentOutput = true ∧ allowProtocolBound = false)
    "native Mining License payment requires its Protocol Op 0x0002 bundle; Build 5.2 accepts it through validated block propagation"
  reject (pending.hasProtocolAuthWitness = true ∧ allowProtocolBound = false)
    "protocol-authorized Treasury payment requires its signed DividendClaim Protocol Op 0x0007 bundle; Build 5.2 accepts it through validated block propagation"
  reject (alreadyKnown s pending.txid = true) "ALREADY_KNOWN"
  if pending.hasProtocolAuthWitness = true ∧ allowProtocolBound = true then
    -- only the envelope is checked; the restored operation authorises the rest
    let tx := pending.toTransactionForNetwork s.networkId
    reject (tx.txid ≠ pending.txid ∨ tx.wtxid ≠ pending.wtxid)
      "restored protocol-authorized transaction ID mismatch"
    reject (tx.core.version ≠ 1 ∨ tx.core.networkId ≠ s.networkId ∨ tx.core.inputs = [] ∨
      tx.core.outputs = [] ∨ tx.witnesses.length ≠ tx.core.inputs.length)
      "restored protocol-authorized transaction envelope is invalid"
  else
    let temp := { s with mempool := s.mempool ++ [pending] }
    let _ ← validateAndApplyMempool temp temp.utxos (nextMineableEpoch temp) (temp.height + 1) []
    .ok ()

def validateReceivedPending (s : DevnetState) (pending : PendingTxState) :
    Except String Unit := do
  reject (maxNetworkMempoolTxs ≤ s.mempool.length ∧ alreadyKnown s pending.txid = false)
    ("network mempool admission cap " ++ toString maxNetworkMempoolTxs ++ " reached")
  validatePendingCandidate s pending false

end Validation

end Mutiny
