import Mutiny.Node.Epochs
import Mutiny.Lib.Keyed

/-!
# Dividends

Half of the free treasury is reserved for the eligible licences at every award
epoch, may be claimed for a while, and then returns.  Here are the epoch-boundary
transition, the claim operation and the treasury payment that carries it out.
-/

namespace Mutiny

open Result Lists

def Domains.treasuryId : Bytes := Bytes.ascii "MUTINY-TREASURY-ID-V1"

/-- The treasury of a network. -/
def treasuryIdForNetwork [Crypto] (networkId : UInt32) : Bytes32 :=
  sha256Domain Domains.treasuryId [Bytes.u32 networkId]

/-- The unspent outputs a transaction creates. -/
def createdUtxos [Crypto] (tx : TransactionV1) (epoch height : UInt64) (coinbase : Bool) :
    List UtxoState :=
  let txid := tx.txid
  tx.core.outputs.zipIdx.map fun (output, i) =>
    { txid := .encode txid
      outputIndex := UInt16.ofNat i
      amountStrikes := output.amountStrikes
      outputType := output.outputType
      payload := output.payload
      creationEpoch := epoch
      creationHeight := height
      coinbase := coinbase }

/-- Append the outputs of a transaction to the unspent outputs. -/
def addOutputsAsUtxos [Crypto] (utxos : List UtxoState) (tx : TransactionV1)
    (epoch height : UInt64) (coinbase : Bool) : Except String (List UtxoState) := do
  reject (2 ^ 16 < tx.core.outputs.length) "output index overflow"
  .ok (utxos ++ createdUtxos tx epoch height coinbase)

/-- The output an outpoint names: the stored text is compared with the one the node writes. -/
def findUtxo (utxos : List UtxoState) (o : OutPoint) : Option UtxoState :=
  Keyed.lookup UtxoState.place o.stored utxos

/-- Remove the outputs that outpoints name, one after the other. -/
def removeUtxos (missing : String) (utxos : List UtxoState) (consumed : List OutPoint) :
    Except String (List UtxoState) :=
  consumed.foldlM (fun us o => do
    reject (findUtxo us o = none) missing
    .ok (Keyed.remove UtxoState.place o.stored us)) utxos

/-- Add an amount to a checked sum. -/
def addStrikes (overflow : String) (acc amount : UInt64) : Except String UInt64 :=
  okOr (acc.checkedAdd amount) overflow

namespace Dividends

/-- Whether the treasury controls an output. -/
def isTreasuryControlled (u : UtxoState) : Bool :=
  u.outputType == outputTreasury || u.outputType == outputLicensePayment

/-- What the treasury holds. -/
def treasuryTotal (utxos : List UtxoState) : Except String UInt64 :=
  ((utxos.filter isTreasuryControlled).map (·.amountStrikes)).foldlM
    (addStrikes "Treasury overflow") 0

/-- What it holds, owes and has left. -/
def treasuryState (s : DevnetState) (utxos : List UtxoState) : Except String TreasuryStateV1 := do
  let total ← treasuryTotal utxos
  let available ← okOr (total.checkedSub s.treasuryReservedDividendStrikes)
    "Treasury reserved dividends exceed Treasury UTXO backing"
  .ok { availableStrikes := available
        reservedDividendStrikes := s.treasuryReservedDividendStrikes }

def decodeClaimOperation (op : ProtocolOperationV1) : Except String DividendClaimV1 := do
  reject (op.opType ≠ opDividendClaim ∨ op.opVersion ≠ 1) "operation is not a V1 dividend claim"
  reject (op.payload.length ≠ 172) "V1 dividend claim payload must be exactly 172 bytes"
  let (licenseId, bytes) := Bytes.cut 32 op.payload
  let (expectedOwnerSequence, bytes) := Bytes.cut 4 bytes
  let (amountStrikes, bytes) := Bytes.cut 8 bytes
  let (destinationAddressId, bytes) := Bytes.cut 32 bytes
  let (paymentTxid, ownerSignature) := Bytes.cut 32 bytes
  .ok { licenseId := Bytes.toB32 licenseId
        expectedOwnerSequence := Bytes.toU32 expectedOwnerSequence
        amountStrikes := Bytes.toU64 amountStrikes
        destinationAddressId := Bytes.toB32 destinationAddressId
        paymentTxid := Bytes.toB32 paymentTxid
        ownerSignature := Bytes.toB64 ownerSignature }

/-! ## The epoch boundary -/

/-- Take what expired awards return off the reserve. -/
def releaseReserve (reserved returned : UInt64) : Except String UInt64 :=
  if 0 < returned then
    okOr (reserved.checkedSub returned)
      "Treasury reserved-dividend accounting underflow during expiry"
  else .ok reserved

/-- Return the expired awards to the treasury. -/
def expireAccounts (s : DevnetState) (epoch : UInt64) : Except String (UInt64 × DevnetState) := do
  let expired := s.dividendAccounts.filter fun a => decide (a.claimDeadlineEpoch ≤ epoch)
  let retained := s.dividendAccounts.filter fun a => !decide (a.claimDeadlineEpoch ≤ epoch)
  let returned ← (expired.map (·.claimableStrikes)).foldlM
    (addStrikes "expired dividend return overflow") 0
  let reserved ← releaseReserve s.treasuryReservedDividendStrikes returned
  .ok (returned, { s with
    dividendAccounts := retained
    treasuryReservedDividendStrikes := reserved })

/-- A queued claim that no active account can pay any more.  Everything that does
not decode to a claim is left alone. -/
def isStaleClaim (accounts : List DividendAccountState) (epoch : UInt64)
    (pending : PendingProtocolOperationState) : Bool :=
  match pending.decoded with
  | .error _ => false
  | .ok op =>
    if op.opType ≠ opDividendClaim then false
    else
      match decodeClaimOperation op with
      | .error _ => false
      | .ok claim =>
        !accounts.any fun a =>
          a.licenseIdText == .encode claim.licenseId && decide (a.awardEpoch ≤ epoch) &&
            decide (epoch < a.claimDeadlineEpoch) && decide (0 < claim.amountStrikes) &&
            decide (claim.amountStrikes ≤ a.claimableStrikes)

/-- Drop the stale claims from the queue and their payments from the pool. -/
def dropStaleClaims (s : DevnetState) (epoch : UInt64) : DevnetState :=
  let stale := s.pendingProtocolOperations.filter (isStaleClaim s.dividendAccounts epoch)
  let stalePayments := stale.filterMap (·.requiredTxid)
  { s with
    pendingProtocolOperations :=
      s.pendingProtocolOperations.filter fun p => !isStaleClaim s.dividendAccounts epoch p
    mempool := s.mempool.filter fun tx => !stalePayments.contains tx.txid }

/-- Whether dividends are awarded. -/
def isAwardEpoch (epoch : UInt64) : Bool :=
  epoch != 0 && epoch % dividendAwardInterval == 0

/-- Reserve half of the free treasury for the licences eligible at an award epoch. -/
def awardDividends (s : DevnetState) (epoch : UInt64) : Except String DevnetState := do
  reject (s.dividendAccounts.any fun a => a.awardEpoch == epoch)
    "duplicate dividend award epoch transition"
  let eligible := (s.licenses.filter fun l => l.isEligible epoch).map (·.licenseIdText)
  let treasury ← treasuryState s s.utxos
  let award ← (calculateDividendAward treasury.availableStrikes
    (UInt64.ofNat eligible.length)).mapError ProtocolError.message
  if award.totalReservedStrikes = 0 then .ok s
  else
    let deadline ← okOr (epoch.checkedAdd dividendClaimWindow) "dividend claim deadline overflow"
    let reserved ← okOr
      (s.treasuryReservedDividendStrikes.checkedAdd award.totalReservedStrikes)
      "Treasury dividend reserve overflow"
    let awarded : List DividendAccountState := eligible.map fun licenseId =>
      { licenseIdText := licenseId
        awardEpoch := epoch
        claimDeadlineEpoch := deadline
        claimableStrikes := award.perLicenseStrikes }
    .ok { s with
      treasuryReservedDividendStrikes := reserved
      dividendAccounts :=
        sortByKey (fun a => a.licenseIdText.text) (s.dividendAccounts ++ awarded) }

/-- The transition of an epoch boundary: expiry, then the queue, then an award.
The source also returns the amounts it prints. -/
def processEpoch (s : DevnetState) (epoch : UInt64) : Except String DevnetState := do
  let (_, s) ← expireAccounts s epoch
  let s := dropStaleClaims s epoch
  if isAwardEpoch epoch then awardDividends s epoch else .ok s

/-! ## Claims -/

/-- Whether a claim can be in a block. -/
def dependencyReady (s : DevnetState) (op : ProtocolOperationV1) : Except String Bool := do
  let claim ← decodeClaimOperation op
  let license ← okOr (s.findLicense claim.licenseId)
    "dividend claim references unknown LicenseID"
  reject (license.status = licenseStatusRevoked)
    "dividend claim references a revoked Mining License"
  reject (claim.expectedOwnerSequence < license.ownerKeySequence)
    "stale pending dividend claim owner sequence"
  if license.ownerKeySequence < claim.expectedOwnerSequence then .ok false
  else
    match s.dividendAccounts.find? fun a => a.licenseIdText == license.licenseIdText with
    | none => .ok false
    | some account =>
      let epoch := nextMineableEpoch s
      .ok (decide (account.awardEpoch ≤ epoch) && decide (epoch < account.claimDeadlineEpoch) &&
        decide (0 < claim.amountStrikes) &&
        decide (claim.amountStrikes ≤ account.claimableStrikes))

/-- The claim among the operations that a transaction pays; two are an error. -/
def claimOperationForTx (operations : List ProtocolOperationV1) (txid : Bytes32) :
    Except String (Option ProtocolOperationV1) :=
  (operations.filter fun op => op.opType == opDividendClaim).foldlM (fun found op => do
    let claim ← decodeClaimOperation op
    if claim.paymentTxid = txid then
      reject (found.isSome = true)
        "more than one dividend claim references the same payment TXID"
      .ok (some op)
    else .ok found) none

section Payment

variable [Crypto]

/-- One input of a dividend payment: the outpoints before it and the sum so far. -/
def paymentInput (utxos : List UtxoState) (height : UInt64) (operationId : Bytes32)
    (acc : List OutPoint × UInt64) (entry : TxInput × WitnessV1) :
    Except String (List OutPoint × UInt64) := do
  let (consumed, inputSum) := acc
  match entry.1 with
  | .coinbase _ => .error "dividend payment cannot contain coinbase input"
  | .outpoint o =>
    reject (o ∈ consumed) "dividend payment duplicates an input"
    let utxo ← okOr (findUtxo utxos o) "dividend payment references missing Treasury UTXO"
    reject (isTreasuryControlled utxo = false)
      "dividend payment may spend only Treasury-controlled outputs"
    reject (utxo.spendableAtHeight height = false)
      "dividend payment spends immature Treasury coinbase output"
    reject (entry.2.witnessType ≠ witnessProtocolAuth ∨
      entry.2.payload ≠ Bytes.b32 operationId)
      "dividend Treasury input lacks matching PROTOCOL_AUTH witness"
    let inputSum ← addStrikes "dividend payment input overflow" inputSum utxo.amountStrikes
    .ok (consumed ++ [o], inputSum)

/-- The outputs a payment must have: the claim, then the change if there is any. -/
def checkPaymentOutputs (networkId : UInt32) (claim : DividendClaimV1) (inputSum : UInt64)
    (outputs : List TxOutput) : Except String Unit := do
  match outputs with
  | [] => .error "dividend payment has invalid input/output count"
  | first :: rest =>
    reject (first.outputType ≠ outputPubkeyHash ∨ first.amountStrikes ≠ claim.amountStrikes ∨
      first.payload ≠ Bytes.b32 claim.destinationAddressId)
      "dividend payment first output does not exactly pay the signed claim destination/amount"
    reject (inputSum < claim.amountStrikes) "dividend payment Treasury inputs are insufficient"
    let change := inputSum - claim.amountStrikes
    match rest with
    | [] => reject (change ≠ 0) "dividend payment is missing canonical Treasury change"
    | output :: more =>
      reject (change = 0) "zero Treasury change output is non-canonical"
      reject (more ≠ []) "dividend payment is missing canonical Treasury change"
      reject (output.amountStrikes ≠ change ∨ output.outputType ≠ outputTreasury ∨
        output.payload ≠ Bytes.b32 (treasuryIdForNetwork networkId))
        "dividend payment Treasury change output is non-canonical"

/-- The payment of a claim is applied to the outputs. -/
def validateAndApplyPayment (s : DevnetState) (utxos : List UtxoState) (tx : TransactionV1)
    (op : ProtocolOperationV1) (epoch height : UInt64) : Except String (List UtxoState) := do
  let claim ← decodeClaimOperation op
  reject (tx.txid ≠ claim.paymentTxid) "dividend payment TXID does not match claim"
  reject (tx.core.version ≠ 1 ∨ tx.core.networkId ≠ s.networkId)
    "dividend payment has wrong version/network"
  reject (epoch < tx.core.validFromEpoch ∨
    (tx.core.expiryEpoch ≠ 0 ∧ tx.core.expiryEpoch < epoch))
    "dividend payment is outside its epoch validity window"
  reject (tx.core.inputs = [] ∨ 1024 < tx.core.inputs.length ∨ tx.core.outputs = [] ∨
    2 < tx.core.outputs.length) "dividend payment has invalid input/output count"
  reject (tx.witnesses.length ≠ tx.core.inputs.length) "dividend payment witness count mismatch"
  let (consumed, inputSum) ← (tx.core.inputs.zip tx.witnesses).foldlM
    (paymentInput utxos height op.operationId) ([], 0)
  checkPaymentOutputs s.networkId claim inputSum tx.core.outputs
  let outputSum ← (tx.core.outputs.map (·.amountStrikes)).foldlM
    (addStrikes "dividend payment output overflow") 0
  reject (outputSum ≠ inputSum)
    "protocol-authorized dividend payment must be fee-exempt and value preserving"
  let remaining ← removeUtxos "Treasury UTXO disappeared during dividend payment" utxos consumed
  addOutputsAsUtxos remaining tx epoch height false

/-- A claim is applied. -/
def applyOperation (s : DevnetState) (txs : List TransactionV1) (op : ProtocolOperationV1)
    (blockEpoch : UInt64) : Except String DevnetState := do
  let claim ← decodeClaimOperation op
  reject ((txs.drop 1).all fun tx => tx.txid ≠ claim.paymentTxid)
    "dividend claim is missing its same-block Treasury payment transaction"
  let license ← okOr (s.findLicense claim.licenseId)
    "dividend claim references unknown LicenseID"
  let account ← okOr (s.dividendAccounts.find? fun a => a.licenseIdText == license.licenseIdText)
    "dividend claim has no active dividend account"
  let treasury : TreasuryStateV1 :=
    { availableStrikes := 0
      reservedDividendStrikes := s.treasuryReservedDividendStrikes }
  let (result, debited, treasury) :=
    applyDividendClaim license.record account.account treasury claim blockEpoch
  result.mapError ProtocolError.message
  .ok { s with
    dividendAccounts := updateFirst (fun a => a.licenseIdText == license.licenseIdText)
      (·.updateFrom debited) s.dividendAccounts
    treasuryReservedDividendStrikes := treasury.reservedDividendStrikes }

end Payment

/-! ## Invariants of the stored accounts -/

/-- One stored account; {lit}`acc` holds the licences before it and their sum. -/
def checkAccount (s : DevnetState) (acc : List HexText × UInt64)
    (account : DividendAccountState) : Except String (List HexText × UInt64) := do
  let (seen, claimableSum) := acc
  reject (account.licenseIdText ∈ seen) "duplicate active dividend account for Mining License"
  reject (account.awardEpoch = 0 ∨ account.awardEpoch % dividendAwardInterval ≠ 0)
    "dividend account award epoch is not a canonical 2^17 boundary"
  let deadline ← okOr (account.awardEpoch.checkedAdd dividendClaimWindow)
    "dividend deadline overflow"
  reject (account.claimDeadlineEpoch ≠ deadline) "dividend account claim deadline mismatch"
  reject (s.licenses.all fun l => l.licenseIdText ≠ account.licenseIdText)
    "dividend account references unknown Mining License"
  let claimableSum ← addStrikes "dividend claimable sum overflow" claimableSum
    account.claimableStrikes
  .ok (account.licenseIdText :: seen, claimableSum)

/-- The accounts are sound and the treasury covers them. -/
def checkState (s : DevnetState) : Except String Unit := do
  let total ← treasuryTotal s.utxos
  reject (total < s.treasuryReservedDividendStrikes)
    "Treasury reserved dividends exceed Treasury UTXO backing"
  let (_, claimableSum) ← s.dividendAccounts.foldlM (checkAccount s) ([], 0)
  reject (claimableSum ≠ s.treasuryReservedDividendStrikes)
    ("Treasury dividend reserve mismatch: accounts=" ++ toString claimableSum ++
      " Strikes reserved=" ++ toString s.treasuryReservedDividendStrikes ++ " Strikes")

end Dividends

end Mutiny
