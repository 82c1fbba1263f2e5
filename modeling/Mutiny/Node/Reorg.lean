import Mutiny.Node.BlockSync

/-!
# Synchronisation with a peer

A node that learns of other blocks rebuilds the chain of the peer, on its own state if the
peer extends it and from genesis otherwise, and adopts it if it has more work.  The pool
and the queue are then rebuilt from what the node had before: every transaction is
validated again, one after the other.

Main definitions:

- {lit}`restoreReorgMempool`: the pool and the queue after a change of chain.
- {lit}`refreshPendingAfterRuntimeCommit`: the same for work that came in meanwhile.
- {lit}`syncStateFromPeerDuplex` and {lit}`syncStateFromPeerDuplexForRuntime`: one
  synchronisation.
-/

namespace Mutiny

open Result

/-! ## Chains and branches -/

/-- A branch the node has seen and not adopted. -/
structure SideBranchState where
  forkHeight : UInt64
  tipHeight : UInt64
  tipHash : Bytes32
  chainWork : Nat
  blocks : List BlockState
deriving DecidableEq, Repr

/-- The state of a node: its chain and the branches beside it. -/
structure NodeState where
  chain : DevnetState
  sideBranches : List SideBranchState
deriving DecidableEq, Repr

def maxSideBranches : Nat := 16

/-- The expected number of hashes. -/
def blockWork (target : Bytes32) : Nat := 2 ^ 256 / (target.toNat + 1)

/-- The work of a chain. -/
def chainwork (s : DevnetState) : Nat := (s.blocks.map fun b => blockWork b.target).sum

/-- A Mainnet state stands at its last block. -/
def requireMainnetCanonicalTip (s : DevnetState) : Except String Unit := do
  if s.networkId ≠ mainnetNetworkId then .ok ()
  else
    validateRuntimeTuple s .mainnet
    reject ((if s.height = 0 then decide (s.blocks = [] ∧ s.tipEpoch = 0 ∧ s.tipHash = s.genesisHash)
      else s.blocks.getLast?.any fun block => decide (UInt64.ofNat s.blocks.length = s.height ∧
        block.height = s.height ∧ s.tipEpoch = block.epoch ∧ s.tipHash = block.blockHash ∧
        s.currentStateRoot = block.stateRoot)) = false)
      "LOCAL_BOOTSTRAP_INPUT: Mainnet snapshot is not at its committed canonical block tip; locally advanced snapshots require explicit witness-authenticated recovery before runtime use"

/-- The length of the common beginning of two lists of hashes. -/
def commonPrefix (left right : List Bytes32) : Nat :=
  ((left.zip right).takeWhile fun p => p.1 == p.2).length

/-- Where two chains part. -/
def commonAncestorHeight (a b : DevnetState) : UInt64 :=
  UInt64.ofNat (commonPrefix (a.blocks.map (·.blockHash)) (b.blocks.map (·.blockHash)))

/-- The blocks above a fork are archived. -/
def archiveBranch (target : NodeState) (source : DevnetState) (forkHeight : UInt64) :
    Except String NodeState := do
  if source.height ≤ forkHeight then .ok target
  else
    reject (source.blocks.length < forkHeight.toNat) "fork suffix outside block vector"
    let suffix := source.blocks.drop forkHeight.toNat
    if suffix = [] ∨ target.sideBranches.any (fun b => b.tipHash == source.tipHash) then .ok target
    else
      let branches := target.sideBranches ++ [
        { forkHeight := forkHeight
          tipHeight := source.height
          tipHash := source.tipHash
          chainWork := chainwork source
          blocks := suffix }]
      .ok { target with sideBranches := branches.drop (branches.length - maxSideBranches) }

section Sync

variable [Crypto]

/-- The state at genesis. -/
def resetForReplay (template : DevnetState) : Except String DevnetState :=
  refreshCurrentStateRoot { template with
    height := 0
    tipHash := template.genesisHash
    tipEpoch := 0
    anchorEpoch := 0
    anchorLicenseId := 0
    anchorTicketIndex := 0
    anchorArgon2Proof := template.genesisHash
    totalIssuedStrikes := 0
    difficultyHistoryCount := 0
    difficultyHistoryBitmap := 0
    difficultyCorrectionQ32 := difficultyQ32One
    baseFeeRateQ32 := baseFeeMinQ32
    licenses := if 10 ≤ template.formatVersion then [] else bootstrapLicenseStates
    consumedNativePayments := []
    consumedBitcoinPayments := []
    consumedEvidence := []
    offenseEvents := []
    treasuryReservedDividendStrikes := 0
    dividendAccounts := []
    historicalLicenseKeys := []
    miningPresence := []
    bitcoinHeaders := []
    bitcoinBestChain := none
    utxos := []
    mempool := []
    pendingProtocolOperations := []
    confirmedTransactions := []
    blocks := [] }

/-- Apply a stored block again. -/
def replayBlock (s : DevnetState) (block : BlockState) : Except String DevnetState := do
  let payload ← encodeBlockPayload block
  let (header, txs, operations) ← decodeBlockPayload payload
  validateAndApplyBlock s header txs operations

/-- A chain is applied from the genesis on. -/
def replayCanonicalBlocks (template : DevnetState) (blocks : List BlockState) :
    Except String DevnetState := do
  let replay ← resetForReplay template
  blocks.foldlM replayBlock replay

/-- The state at its last block, without the empty epochs after it. -/
def rewind (s : DevnetState) : Except String DevnetState := do
  let replay ← replayCanonicalBlocks s s.blocks
  .ok { replay with
    mempool := s.mempool
    pendingProtocolOperations := s.pendingProtocolOperations }

/-- The epoch of the last block. -/
def canonicalEpoch (s : DevnetState) : UInt64 := (s.blocks.getLast?.map (·.epoch)).getD 0

/-- The state at its last block; empty epochs after it are provisional and are undone. -/
def canonicalBase (s : DevnetState) : Except String DevnetState :=
  if canonicalEpoch s < s.tipEpoch then rewind s else .ok s

/-! ## What the disconnected blocks give back -/

/-- Whether a transaction was the fee ticket of an authority operation, by the keys the
operation replaced. -/
def historicalAuthorityFeeTicketMatches (oldLocal : DevnetState) (op : ProtocolOperationV1)
    (tx : TransactionV1) : Except String Bool := do
  let target ← okOr (← authorityOperationLicenseId op) "authority operation has no target LicenseID"
  match oldLocal.historicalLicenseKeys.find? fun h =>
      h.operationId == op.operationId && h.licenseIdText == .encode target with
  | none => .ok false
  | some historical =>
    let address := Bytes.b32 (addressId historical.ownerPublicKey)
    if tx.core.inputs = [] ∨ tx.core.outputs = [] ∨ tx.witnesses.length ≠ tx.core.inputs.length then
      .ok false
    else if tx.core.outputs.head?.any (fun o => o.outputType = outputPubkeyHash ∧
        o.amountStrikes = authorityFeeMarker target ∧ o.payload = address) = false then .ok false
    else if tx.core.outputs.any fun o => o.outputType ≠ outputPubkeyHash ∨ o.payload ≠ address then
      .ok false
    else .ok (tx.witnesses.all fun w => w.witnessType == witnessPubkeyHash &&
      w.payload.length == 96 && w.payload.take 32 == Bytes.b32 historical.ownerPublicKey)

/-- The pool record of a transaction of a disconnected block. -/
def disconnectedTx (adopted oldLocal : DevnetState) (block : BlockState) (tx : TransactionV1) :
    Option PendingTxState :=
  if tx.core.inputs.any TxInput.isCoinbase then none
  else
    match oldLocal.confirmedTransactions.find? fun r =>
        r.blockHash == block.blockHash && r.tx.txid == tx.txid with
    | some record => some record.tx
    | none => (pendingFromTransaction adopted tx).toOption

/-- The transaction an operation of a disconnected block needs; nothing if the operation is
not given back. -/
def disconnectedRequirement (oldLocal : DevnetState) (txs : List TransactionV1)
    (op : ProtocolOperationV1) : Except String (Option (Option Bytes32)) :=
  if op.opType = opLicensePurchaseMut then do
    let purchase ← decodeNativePurchaseOperation op
    .ok (some (some purchase.paymentTxid))
  else if op.opType = opLicenseTransfer ∨ op.opType = opLicenseMiningKeyRotate then
    .ok ((txs.find? fun tx =>
      (historicalAuthorityFeeTicketMatches oldLocal op tx).toOption == some true).map
        fun tx => some tx.txid)
  else if op.opType = opLicensePurchaseBtc ∨ op.opType = opPunishmentEvidence ∨
      op.opType = opBitcoinHeaders then .ok (some none)
  else if op.opType = opDividendClaim then do
    let claim ← Dividends.decodeClaimOperation op
    .ok (some (some claim.paymentTxid))
  else .ok none

/-- An operation of a block that is left. -/
def disconnectedOperation (oldLocal : DevnetState) (txs : List TransactionV1) (raw : Bytes) :
    Except String (Option PendingProtocolOperationState) := do
  let op ← decodeProtocolOperationBytes raw
  if op.opVersion ≠ 1 then .ok none
  else
    let required ← disconnectedRequirement oldLocal txs op
    .ok (required.map fun txid => ⟨raw, txid⟩)

/-- What one disconnected block gives back. -/
def disconnectBlock (adopted oldLocal : DevnetState) (block : BlockState) :
    Except String (List PendingTxState × List PendingProtocolOperationState) := do
  let txs ← block.transactions.mapM fun raw =>
    (TransactionV1.decodeFull raw).mapError TxError.message
  let operations ← block.protocolOperations.mapM (disconnectedOperation oldLocal (txs.drop 1))
  .ok ((txs.drop 1).filterMap (disconnectedTx adopted oldLocal block), operations.filterMap id)

/-! ## The pool and the queue after a change of chain -/

/-- One transaction of the old pool; {lit}`seen` are the identifiers tried before. -/
def restoreTx (bound : List Bytes32) (acc : DevnetState × List Bytes32 × Nat)
    (pending : PendingTxState) : DevnetState × List Bytes32 × Nat :=
  let (adopted, seen, restored) := acc
  if adopted.confirmedTransactions.any (fun r => r.tx.txid == pending.txid) ∨
      pending.txid ∈ seen then acc
  else
    let seen := pending.txid :: seen
    if pending.hasLicensePaymentOutput = true ∧ pending.txid ∉ bound then (adopted, seen, restored)
    else
      match validatePendingCandidate adopted pending true with
      | .ok _ => ({ adopted with mempool := adopted.mempool ++ [pending] }, seen, restored + 1)
      | .error _ => (adopted, seen, restored)

/-- Operations that are queued again. -/
def isRestorable (op : ProtocolOperationV1) : Bool :=
  op.opVersion == 1 &&
    [opLicensePurchaseBtc, opLicensePurchaseMut, opLicenseTransfer, opLicenseMiningKeyRotate,
      opPunishmentEvidence, opDividendClaim, opBitcoinHeaders].contains op.opType

/-- Whether an operation of the old queue can still be applied. -/
def operationStillOpen (adopted : DevnetState) (op : ProtocolOperationV1) : Except String Bool := do
  if op.opType = opLicensePurchaseBtc then BitcoinPurchase.dependencyReady adopted op
  else if op.opType = opLicensePurchaseMut then
    let purchase ← decodeNativePurchaseOperation op
    .ok (!adopted.consumedNativePayments.contains
      (nativePaymentId purchase.paymentTxid purchase.paymentOutputIndex))
  else if op.opType = opPunishmentEvidence then
    let evidence ← decodePunishmentOperation op
    .ok (!adopted.consumedEvidence.contains evidence.evidenceId)
  else if op.opType = opDividendClaim then
    let claim ← Dividends.decodeClaimOperation op
    let account := adopted.dividendAccounts.find? fun a => a.licenseIdText == .encode claim.licenseId
    .ok (account.any fun account =>
      claim.amountStrikes ≠ 0 ∧ claim.amountStrikes ≤ account.claimableStrikes)
  else .ok true

/-- One operation of the old queue; {lit}`seen` are the operations restored before. -/
def restoreOperation (poolIds : List Bytes32) (acc : DevnetState × List Bytes32)
    (pending : PendingProtocolOperationState) : Except String (DevnetState × List Bytes32) := do
  let (adopted, seen) := acc
  if pending.requiredTxid.any (fun txid => txid ∉ poolIds) then .ok acc
  else
    let op ← pending.decoded
    if isRestorable op = false then .ok acc
    else
      if (← operationStillOpen adopted op) = false ∨ op.operationId ∈ seen then .ok acc
      else
        .ok ({ adopted with
          pendingProtocolOperations := adopted.pendingProtocolOperations ++ [pending] },
          op.operationId :: seen)

/-- The transactions that queued operations need. -/
def requiredTxids (queue : List PendingProtocolOperationState) : List Bytes32 :=
  queue.filterMap (·.requiredTxid)

/-- Rebuild the pool and the queue of an adopted chain from those of the old one and the
blocks that are no longer on the chain. -/
def restoreReorgMempool (adopted oldLocal : DevnetState) (commonHeight : UInt64) :
    Except String (DevnetState × Nat) := do
  let disconnected ← (oldLocal.blocks.drop commonHeight.toNat).mapM
    (disconnectBlock adopted oldLocal)
  let candidates := oldLocal.mempool ++ disconnected.flatMap (·.1)
  let opCandidates := oldLocal.pendingProtocolOperations ++ disconnected.flatMap (·.2)
  let (adopted, _, restored) := candidates.foldl (restoreTx (requiredTxids opCandidates))
    (adopted, [], 0)
  let seenOps := adopted.pendingProtocolOperations.filterMap fun p =>
    p.decoded.toOption.map (·.operationId)
  let (adopted, _) ← opCandidates.foldlM (restoreOperation (adopted.mempool.map (·.txid)))
    (adopted, seenOps)
  let boundAfter := requiredTxids adopted.pendingProtocolOperations
  .ok ({ adopted with mempool := adopted.mempool.filter fun tx =>
    !tx.hasProtocolAuthWitness || boundAfter.contains tx.txid }, restored)

/-- One announcement of presence that came in meanwhile. -/
def refreshPresence (acc : DevnetState × List Bytes32) (pending : PendingProtocolOperationState) :
    DevnetState × List Bytes32 :=
  let (accepted, seen) := acc
  match pending.decoded with
  | .error _ => acc
  | .ok op =>
    if op.opType ≠ opMiningPresence ∨ pending.requiredTxid ≠ none then acc
    else
      match Presence.decodeOperation op with
      | .error _ => acc
      | .ok presence =>
        if presence.presenceEpoch ≤ accepted.tipEpoch ∨
            (Presence.validateOperationAgainstParent accepted op
              presence.presenceEpoch).toOption = none ∨ op.operationId ∈ seen then acc
        else
          ({ accepted with
            pendingProtocolOperations := accepted.pendingProtocolOperations ++ [pending] },
            op.operationId :: seen)

/-- Carry the pool and the queue of the current state over to a state that replaces it. -/
def refreshPendingAfterRuntimeCommit (accepted current : DevnetState) :
    Except String DevnetState := do
  let pending := { current with
    mempool := current.mempool ++ accepted.mempool
    pendingProtocolOperations :=
      current.pendingProtocolOperations ++ accepted.pendingProtocolOperations }
  let (accepted, _) ← restoreReorgMempool
    { accepted with mempool := [], pendingProtocolOperations := [] } pending current.height
  .ok (pending.pendingProtocolOperations.foldl refreshPresence (accepted, [])).1

/-! ## Synchronisation -/

/-- What a synchronization did. -/
structure SyncReport where
  downloadedBlocks : Nat
  appliedBlocks : Nat
  reorg : Bool
  commonAncestorHeight : UInt64
  disconnectedBlocks : Nat
  restoredMempool : Nat
  decision : String
deriving DecidableEq, Repr

def SyncReport.noChange (height : UInt64) (decision : String) : SyncReport where
  downloadedBlocks := 0
  appliedBlocks := 0
  reorg := false
  commonAncestorHeight := height
  disconnectedBlocks := 0
  restoredMempool := 0
  decision := decision

/-- The better of two chains is taken. -/
def reconcileValidatedRemote (s : NodeState) (remote : DevnetState) (downloaded : Nat) :
    Except String (NodeState × SyncReport) := do
  let forkHeight := commonAncestorHeight s.chain remote
  if chainwork remote ≤ chainwork s.chain then
    let s' ← archiveBranch s remote forkHeight
    .ok (s',
      { downloadedBlocks := downloaded
        appliedBlocks := 0
        reorg := false
        commonAncestorHeight := forkHeight
        disconnectedBlocks := 0
        restoredMempool := 0
        decision := if chainwork remote = chainwork s.chain then "KEPT_LOCAL_EQUAL_CHAINWORK"
          else "KEPT_LOCAL_MORE_CHAINWORK" })
  else
    let adopted ← archiveBranch ⟨remote, s.sideBranches⟩ s.chain forkHeight
    let (chain, restored) ← restoreReorgMempool adopted.chain s.chain forkHeight
    .ok ({ adopted with chain := chain },
      { downloadedBlocks := downloaded
        appliedBlocks := (remote.height.saturatingSub forkHeight).toNat
        reorg := true
        commonAncestorHeight := forkHeight
        disconnectedBlocks := (s.chain.height.saturatingSub forkHeight).toNat
        restoredMempool := restored
        decision := "ADOPTED_REMOTE_MORE_CHAINWORK" })

/-- What a peer answers during a synchronisation: its headers, as many as the height it
claims, and a block for every hash it is asked for. -/
structure Peer where
  headers : List HeaderV1
  fits : headers.length < 2 ^ 64
  block : Bytes32 → Except String (HeaderV1 × List TransactionV1 × List ProtocolOperationV1)

/-- The height a peer announces. -/
def Peer.height (peer : Peer) : UInt64 := UInt64.ofNat peer.headers.length

/-- The hashes a peer announces. -/
def Peer.hashes (peer : Peer) : List Bytes32 := peer.headers.map blockHash

/-- How a route applies a block. -/
abbrev ApplyBlock (ε : Type) := DevnetState → HeaderV1 → List TransactionV1 →
  List ProtocolOperationV1 → Except ε DevnetState

def headerDiffers : String := "duplex BLOCK header differs from prior HEADERS announcement"

/-- Ask for the block of a header. -/
def Peer.requestBlock (peer : Peer) (differs : String) (header : HeaderV1) :
    Except String (HeaderV1 × List TransactionV1 × List ProtocolOperationV1) := do
  let (wireHeader, txs, operations) ← peer.block (blockHash header)
  reject (blockHash wireHeader ≠ blockHash header) "duplex BLOCK response hash does not match request"
  reject (wireHeader ≠ header) differs
  .ok (wireHeader, txs, operations)

/-- Ask for the block of a header and apply it. -/
def Peer.applyNext {ε : Type} (peer : Peer) (fail : String → ε) (differs : String)
    (apply : ApplyBlock ε) (s : DevnetState) (header : HeaderV1) : Except ε DevnetState := do
  let (wireHeader, txs, operations) ← (peer.requestBlock differs header).mapError fail
  apply s wireHeader txs operations

/-- The report of an extension. -/
def extensionReport (oldHeight : UInt64) (downloaded : Nat) (s : DevnetState) : SyncReport where
  downloadedBlocks := downloaded
  appliedBlocks := (s.height - oldHeight).toNat
  reorg := false
  commonAncestorHeight := oldHeight
  disconnectedBlocks := 0
  restoredMempool := 0
  decision := "EXTENDED_CANONICAL_CHAIN"

/-- A synchronisation on the Devnet. -/
def syncStateFromPeerDuplex (peer : Peer) (s : NodeState) :
    Except String (NodeState × SyncReport) := do
  if peer.height = 0 then .ok (s, .noChange 0 "REMOTE_GENESIS")
  else
    let common := commonPrefix (s.chain.blocks.map (·.blockHash)) peer.hashes
    if peer.height = s.chain.height ∧ UInt64.ofNat common = s.chain.height ∧
        (s.chain.blocks.getLast?.map (·.blockHash)) = peer.hashes.getLast? ∧ s.chain.blocks ≠ [] then
      .ok (s, .noChange s.chain.height "SAME_CANONICAL_TIP")
    else if UInt64.ofNat common = s.chain.height ∧ s.chain.height < peer.height then
      let base ← canonicalBase s.chain
      let missing := peer.headers.drop s.chain.height.toNat
      let candidate ← missing.foldlM
        (peer.applyNext id headerDiffers validateAndApplyBlock) base
      .ok ({ s with chain := candidate }, extensionReport s.chain.height missing.length candidate)
    else if UInt64.ofNat common = peer.height ∧ peer.height < s.chain.height then
      .ok (s, .noChange peer.height "REMOTE_IS_CANONICAL_ANCESTOR")
    else
      let genesis ← resetForReplay s.chain
      let remote ← peer.headers.foldlM (peer.applyNext id
        (headerDiffers ++ " during fork validation") validateAndApplyBlock) genesis
      reconcileValidatedRemote s remote peer.headers.length

/-- Why a block is not applied. -/
inductive RuntimeBlockApplyError
  | localBootstrapInput (e : String)
  | consensusTransition (e : String)
deriving DecidableEq, Repr

/-- A block of a runtime.  The route of block 1 of the Mainnet, which reads an authenticated
witness file, is a parameter; without one there is no such route. -/
def validateAndApplyBlockForRuntime (runtime : RuntimeNetwork)
    (witness : Option (ApplyBlock RuntimeBlockApplyError)) : ApplyBlock RuntimeBlockApplyError :=
  fun s header txs operations => do
    (validateRuntimeTuple s runtime).mapError .consensusTransition
    match runtime with
    | .devnet => (validateAndApplyBlock s header txs operations).mapError .consensusTransition
    | .mainnet =>
      reject (s.networkId ≠ mainnetNetworkId ∨ s.genesisHash ≠ mainnetGenesisId)
        (.consensusTransition "selected Mainnet tuple does not match live state")
      if s.height ≠ 0 then
        (validateAndApplyBlock s header txs operations).mapError .consensusTransition
      else
        let bootstrap ← okOr witness (.localBootstrapInput
          "--bootstrap-witness is required for Mainnet Genesis -> Block1")
        bootstrap s header txs operations

/-- Where a block of the Devnet is applied: one that lies in the provisional epochs after the
last block is applied without them. -/
def announcedBase (s : DevnetState) (core : HeaderCoreV1) : Except String DevnetState :=
  if core.parentHash = s.tipHash ∧ canonicalEpoch s < core.epoch ∧ core.epoch ≤ s.tipEpoch then
    rewind s
  else .ok s

/-- A block that a peer announced, on the state as it is now. -/
def validateAndApplyAnnouncedBlock (runtime : RuntimeNetwork)
    (witness : Option (ApplyBlock RuntimeBlockApplyError)) : ApplyBlock RuntimeBlockApplyError :=
  fun s header txs operations => do
    (validateRuntimeTuple s runtime).mapError .consensusTransition
    match runtime with
    | .mainnet =>
      (requireMainnetCanonicalTip s).mapError .localBootstrapInput
      validateAndApplyBlockForRuntime .mainnet witness s header txs operations
    | .devnet =>
      let base ← (announcedBase s header.core).mapError .consensusTransition
      (validateAndApplyBlock base header txs operations).mapError .consensusTransition

/-- Whether the chain of a peer goes on where a state ends. -/
def Peer.extends (peer : Peer) (s : DevnetState) : Bool :=
  decide (UInt64.ofNat (commonPrefix (s.blocks.map (·.blockHash)) peer.hashes) = s.height ∧
    s.height < peer.height)

/-- Where a synchronisation of the Mainnet starts: an extension starts from the committed
state, a fork is rebuilt from genesis. -/
def Peer.mainnetBase (peer : Peer) (s : DevnetState) :
    Except RuntimeBlockApplyError DevnetState :=
  if peer.extends s then .ok s else (resetForReplay s).mapError .consensusTransition

/-- The headers whose blocks are still to be applied. -/
def Peer.missing (peer : Peer) (s : DevnetState) : List HeaderV1 :=
  if peer.extends s then peer.headers.drop s.height.toNat else peer.headers

/-- A synchronisation of a runtime. -/
def syncStateFromPeerDuplexForRuntime (runtime : RuntimeNetwork)
    (witness : Option (ApplyBlock RuntimeBlockApplyError)) (peer : Peer) (s : NodeState) :
    Except RuntimeBlockApplyError (NodeState × SyncReport) := do
  (validateRuntimeTuple s.chain runtime).mapError .consensusTransition
  match runtime with
  | .devnet => (syncStateFromPeerDuplex peer s).mapError .consensusTransition
  | .mainnet =>
    (requireMainnetCanonicalTip s.chain).mapError .localBootstrapInput
    if peer.height = 0 then .ok (s, .noChange 0 "REMOTE_GENESIS")
    else
      let common := commonPrefix (s.chain.blocks.map (·.blockHash)) peer.hashes
      if UInt64.ofNat common = s.chain.height ∧ peer.height = s.chain.height then
        .ok (s, .noChange s.chain.height "SAME_CANONICAL_TIP")
      else if UInt64.ofNat common = peer.height ∧ peer.height < s.chain.height then
        .ok (s, .noChange peer.height "REMOTE_IS_CANONICAL_ANCESTOR")
      else
        reject (peer.extends s.chain = false ∧ witness.isNone = true)
          (.localBootstrapInput "historical Mainnet fork replay requires --bootstrap-witness")
        let base ← peer.mainnetBase s.chain
        let missing := peer.missing s.chain
        let candidate ← missing.foldlM (peer.applyNext .consensusTransition headerDiffers
          (validateAndApplyBlockForRuntime .mainnet witness)) base
        (requireMainnetCanonicalTip candidate).mapError .consensusTransition
        if peer.extends s.chain then
          .ok ({ s with chain := candidate },
            extensionReport s.chain.height missing.length candidate)
        else
          let (reconciled, report) ← (reconcileValidatedRemote s candidate
            missing.length).mapError .consensusTransition
          (requireMainnetCanonicalTip reconciled.chain).mapError .consensusTransition
          .ok (reconciled, report)

end Sync

end Mutiny
