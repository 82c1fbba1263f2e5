import Mutiny.Node.Operations
import Mutiny.Node.Mempool
import Mutiny.Node.Transitions
import Mutiny.Consensus

/-!
# Building a block

A miner advances its state to the candidate epoch, tries the tickets of its
licences, and builds a block around the first that wins.
-/

namespace Mutiny

open Result

/-- The network a node runs on. -/
inductive RuntimeNetwork where
  | devnet
  | mainnet
deriving DecidableEq, Repr

def RuntimeNetwork.networkId : RuntimeNetwork → UInt32
  | .devnet => devnetNetworkId
  | .mainnet => mainnetNetworkId

def RuntimeNetwork.genesisId : RuntimeNetwork → Bytes32
  | .devnet => devnetGenesisId
  | .mainnet => mainnetGenesisId

/-- A state is of the network. -/
def validateRuntimeTuple (s : DevnetState) (runtime : RuntimeNetwork) : Except String Unit :=
  reject (s.networkId ≠ runtime.networkId ∨
    ((runtime = .mainnet ∨ 10 ≤ s.formatVersion) ∧ s.genesisHash ≠ runtime.genesisId))
    "runtime NetworkID/GenesisID tuple does not match stored state"

/-- The network of a state. -/
def runtimeForState (s : DevnetState) : Except String RuntimeNetwork := do
  let runtime ←
    if s.networkId = devnetNetworkId then .ok RuntimeNetwork.devnet
    else if s.networkId = mainnetNetworkId then .ok RuntimeNetwork.mainnet
    else .error "state NetworkID is not an active Mutiny runtime network"
  validateRuntimeTuple s runtime
  .ok runtime

/-- The deterministic secret of a Devnet wallet slot. -/
def devSeed (i : UInt8) : Bytes32 :=
  Bytes.toB32 ((List.range 32).map fun j => i * 17 + UInt8.ofNat j + 1)

/-! ## Fees and the coinbase -/

/-- The fees of the validated transactions: the sum, and half of the base fees for
the treasury. -/
def splitFees (validated : List ValidatedTx) : Except String (UInt64 × UInt64) :=
  validated.foldlM (fun (totalFees, treasuryShare) v => do
    let totalFees ← addStrikes "fee overflow" totalFees v.fee
    let treasuryShare ← addStrikes "treasury fee overflow" treasuryShare (v.baseFee / 2)
    .ok (totalFees, treasuryShare)) (0, 0)

section Building

variable [Crypto]

/-- What the coinbase pays: the miner, and the treasury if it gets anything. -/
def coinbaseOutputs (networkId : UInt32) (minerAmount treasuryShare : UInt64)
    (paymentAddressId : Bytes32) : List TxOutput :=
  { amountStrikes := minerAmount
    outputType := outputPubkeyHash
    payload := Bytes.b32 paymentAddressId } ::
  if 0 < treasuryShare then
    [{ amountStrikes := treasuryShare
       outputType := outputTreasury
       payload := Bytes.b32 (treasuryIdForNetwork networkId) }]
  else []

/-- The amount the miner's output carries. -/
def minerCoinbaseAmount (reward totalFees treasuryShare : UInt64) : Except String UInt64 := do
  let minerFeeShare ← okOr (totalFees.checkedSub treasuryShare) "fee split underflow"
  okOr (reward.checkedAdd minerFeeShare) "coinbase overflow"

/-- The entropy the tickets of the next block are drawn from. -/
def ticketAnchor (s : DevnetState) : Bytes32 :=
  if s.height = 0 then s.genesisHash
  else anchorEntropy s.anchorEpoch s.anchorLicenseId s.anchorTicketIndex s.anchorArgon2Proof

/-- The proof of a licence's ticket at an epoch. -/
def ticketProof (s : DevnetState) (epoch : UInt64) (licenseId : Bytes32) (ticket : UInt16) :
    Bytes32 :=
  let es := epochSeed (ticketAnchor s) epoch
  Crypto.argon2id (ticketSeed es licenseId ticket) (ticketSalt es licenseId ticket)

/-- The difficulty history after a block.  The first block is not an observation. -/
def historyAfterBlock (s : DevnetState) : Except String DifficultyHistory :=
  if 0 < s.height then appendHistoryValues s.difficultyHistory true else .ok s.difficultyHistory

/-- The queue and the pool without what a block confirmed. -/
def dropConfirmed (s : DevnetState) (confirmedIds : List Bytes32)
    (operations : List ProtocolOperationV1) : DevnetState :=
  { s with
    mempool := s.mempool.filter fun m => !confirmedIds.contains m.txid
    pendingProtocolOperations := s.pendingProtocolOperations.filter fun p =>
      !(p.requiredTxid.any fun txid => confirmedIds.contains txid) &&
        !(operations.map (·.encode)).contains p.operation }

/-- The record of an accepted block. -/
def blockRecord (height : UInt64) (header : HeaderV1) (txs : List TransactionV1)
    (operations : List ProtocolOperationV1) (reward totalFees treasuryShare blockWeight : UInt64)
    (coinbase : TransactionV1) (transactionIds : List Bytes32) : BlockState where
  height := height
  epoch := header.core.epoch
  header := header.encode
  transactions := txs.map (·.encodeFull)
  protocolOperations := operations.map (·.encode)
  blockHash := blockHash header
  parentHash := header.core.parentHash
  minerLicenseId := header.core.licenseId
  ticketIndex := header.core.ticketIndex
  argon2Proof := header.core.argon2Proof
  target := header.core.target
  rewardStrikes := reward
  totalFeesStrikes := totalFees
  treasuryFeeShareStrikes := treasuryShare
  blockWeight := blockWeight
  transactionRoot := header.core.transactionRoot
  stateRoot := header.core.stateRoot
  coinbaseTxid := coinbase.txid
  transactionIds := transactionIds

/-- The consensus values a block leaves in the state, besides what its operations
changed. -/
structure BlockOutcome where
  height : UInt64
  header : HeaderV1
  totalIssued : UInt64
  difficulty : DifficultyHistory
  baseFee : UInt64
  stateRoot : Bytes32
  utxos : List UtxoState

/-- A block is taken over. -/
def DevnetState.commitBlock (s : DevnetState) (b : BlockOutcome) : DevnetState :=
  { s with
    height := b.height
    tipEpoch := b.header.core.epoch
    tipHash := blockHash b.header
    anchorEpoch := b.header.core.epoch
    anchorLicenseId := b.header.core.licenseId
    anchorTicketIndex := b.header.core.ticketIndex
    anchorArgon2Proof := b.header.core.argon2Proof
    totalIssuedStrikes := b.totalIssued
    difficultyHistoryCount := b.difficulty.count
    difficultyHistoryBitmap := b.difficulty.bitmap
    difficultyCorrectionQ32 := b.difficulty.correction
    baseFeeRateQ32 := b.baseFee
    currentStateRoot := b.stateRoot
    utxos := b.utxos }

/-- Take over the collections that operations change. -/
def DevnetState.takeProtocolState (s post : DevnetState) : DevnetState :=
  { s with
    licenses := post.licenses
    consumedNativePayments := post.consumedNativePayments
    consumedBitcoinPayments := post.consumedBitcoinPayments
    bitcoinHeaders := post.bitcoinHeaders
    bitcoinBestChain := post.bitcoinBestChain
    consumedEvidence := post.consumedEvidence
    offenseEvents := post.offenseEvents
    historicalLicenseKeys := post.historicalLicenseKeys
    miningPresence := post.miningPresence
    treasuryReservedDividendStrikes := post.treasuryReservedDividendStrikes
    dividendAccounts := post.dividendAccounts }

/-- The wallet slots a Devnet node holds. -/
def devSlots : List UInt8 := (List.range 256).map UInt8.ofNat

/-- The known key of a Devnet licence. -/
def devSigningKeyForLicense (license : LicenseState) : Option MiningAuthority :=
  (devSlots.find? fun slot => Crypto.publicKey (devSeed slot) == license.miningPublicKey).map
    fun slot => MiningAuthority.raw (devSeed slot)

/-- After activation of presence the target must be the one of the candidate count. -/
def checkLocalTarget (s : DevnetState) (epoch : UInt64) (licenseId target : Bytes32)
    (operations : List ProtocolOperationV1) : Except String Unit :=
  if Presence.active s epoch then do
    let count ← Presence.candidateEligibleCount s epoch licenseId operations
    let expectedTarget ← deriveTarget (authorizedCapacity count) s.difficultyCorrectionQ32
    reject (target ≠ expectedTarget)
      "local candidate target does not match Pack-K eligible-count derivation"
  else .ok ()

/-- The key that signs a candidate: the given one, which must be the licence's, or
the Devnet wallet's. -/
def candidateSigner (license : LicenseState) (secureSigner : Option MiningAuthority) :
    Except String MiningAuthority :=
  match secureSigner with
  | some signer => do
    reject (signer.publicKey ≠ license.miningPublicKey)
      "provided signing key does not match the selected Mining License authority"
    .ok signer
  | none =>
    okOr (devSigningKeyForLicense license)
      "local Devnet does not hold the selected Mining License private key"

/-- A block is made, signed and applied. -/
def acceptDevBlockWithSignerAndOperations (s : DevnetState) (epoch : UInt64) (licenseIndex : Nat)
    (ticket : UInt16) (proof target : Bytes32) (secureSigner : Option MiningAuthority)
    (operations : List ProtocolOperationV1) : Except String DevnetState := do
  let runtime ← runtimeForState s
  reject (runtime = .mainnet ∧ secureSigner.isNone)
    "Mainnet mining requires an authorized operational mining signer"
  let height := s.height + 1
  let license ← okOr s.licenses[licenseIndex]? "license number out of range"
  let reward := subsidy epoch
  checkLocalTarget s epoch license.licenseId target operations
  let selected ← selectedBlockMempool s operations
  let (validated, utxos) ← validateAndApplyMempool { s with mempool := selected } s.utxos epoch
    height operations
  let (totalFees, treasuryShare) ← splitFees validated
  let minerAmount ← minerCoinbaseAmount reward totalFees treasuryShare
  let protocolRoot ← (protocolOperationsRoot operations).mapError ProtocolError.message
  let commitment : CoinbaseCommitmentV1 :=
    { blockEpoch := epoch
      blockHeight := height
      parentBlockHash := s.tipHash
      protocolOperationsRoot := protocolRoot }
  let coinbase : TransactionV1 :=
    { core :=
        { version := 1
          networkId := s.networkId
          validFromEpoch := epoch
          expiryEpoch := 0
          inputs := [.coinbase commitment]
          outputs := coinbaseOutputs s.networkId minerAmount treasuryShare
            license.paymentAddressId }
      witnesses := [] }
  let utxos ← addOutputsAsUtxos utxos coinbase epoch height true
  let txs := coinbase :: validated.map (·.tx)
  let txRoot ← okOr (merkleRoot (txs.map (·.leaf))) "block must contain coinbase"
  let blockWeight ← blockBodyWeight txs operations
  reject (blockWeightMax < blockWeight)
    ("block weight " ++ toString blockWeight ++ " exceeds " ++ toString blockWeightMax)
  let post ← applyProtocolOperations { s with tipEpoch := epoch } txs operations epoch
  let totalIssued ← okOr (s.totalIssuedStrikes.checkedAdd reward) "supply overflow"
  let difficulty ← historyAfterBlock s
  let baseFee ← adjustedBaseFeeRate s.baseFeeRateQ32 blockWeight
  let stateRoot ← computeStateRoot post
    { utxos := utxos
      height := height
      totalIssued := totalIssued
      difficulty := difficulty
      baseFeeRate := baseFee }
  let core : HeaderCoreV1 :=
    { version := 1
      networkId := s.networkId
      epoch := epoch
      parentHash := s.tipHash
      transactionRoot := txRoot
      stateRoot := stateRoot
      target := target
      licenseId := license.licenseId
      ticketIndex := ticket
      argon2Proof := proof }
  let signer ← candidateSigner license secureSigner
  let signature ← signer.signCandidate s height core
  let header : HeaderV1 := { core := core, signature := signature }
  let confirmedIds := validated.map (·.pending.txid)
  let next := dropConfirmed ((s.takeProtocolState post).commitBlock
    { height := height
      header := header
      totalIssued := totalIssued
      difficulty := difficulty
      baseFee := baseFee
      stateRoot := stateRoot
      utxos := utxos }) confirmedIds operations
  .ok { next with
    confirmedTransactions := next.confirmedTransactions ++ validated.map fun v =>
      { tx := v.pending
        blockHeight := height
        blockEpoch := epoch
        blockHash := blockHash header }
    blocks := next.blocks ++ [blockRecord height header txs operations reward totalFees
      treasuryShare blockWeight coinbase confirmedIds] }

/-! ## One epoch of a miner -/

/-- Skip to the epoch before the candidate.  Mainnet refreshes the root once, Devnet
after every epoch. -/
def skipEpochs : Nat → DevnetState → Except String DevnetState
  | 0, s => .ok s
  | n + 1, s => do
    let s ← emptyEpoch s
    let s ← refreshCurrentStateRoot s
    skipEpochs n s

/-- The state a candidate is made on. -/
def advanceToCandidate (s : DevnetState) (epoch : UInt64) : Except String DevnetState :=
  if s.height = 0 then .ok s
  else if s.networkId = mainnetNetworkId then advanceEmptyEpochs s (epoch.saturatingSub 1)
  else skipEpochs (epoch.toNat - 1 - s.tipEpoch.toNat) s

/-- The licences to try, each with the signer that was given for it, if any. -/
def mineableLicenses (s : DevnetState) (epoch : UInt64)
    (secureSigner : Option (Nat × MiningAuthority)) :
    Except String (List (Nat × Option MiningAuthority)) :=
  match secureSigner with
  | some (licenseIndex, signer) => do
    let license ← okOr s.licenses[licenseIndex]? "license number out of range"
    reject (license.isEligible epoch = false)
      "selected encrypted-custody Mining License is not base-eligible in the candidate epoch"
    reject (signer.publicKey ≠ license.miningPublicKey)
      "provided signing key does not match the current on-chain mining authority"
    .ok [(licenseIndex, some signer)]
  | none =>
    .ok ((s.licenses.zipIdx.filter fun (l, _) =>
      l.isEligible epoch && (devSigningKeyForLicense l).isSome).map fun (_, i) => (i, none))

/-- The first winning ticket below a number. -/
def findTicket (s : DevnetState) (epoch : UInt64) (licenseId target : Bytes32) (w : UInt16) :
    Option UInt16 :=
  ((List.range w.toNat).map UInt16.ofNat).find? fun ticket =>
    proofBelowTarget (ticketProof s epoch licenseId ticket) target

/-- Try one licence; the result is the state with its block, if a ticket won. -/
def mineLicense (s : DevnetState) (epoch : UInt64) (licenseIndex : Nat)
    (secureSigner : Option MiningAuthority) : Except String (Option DevnetState) := do
  let license ← okOr s.licenses[licenseIndex]? "license number out of range"
  let signer ←
    match secureSigner with
    | some signer => .ok signer
    | none =>
      okOr (devSigningKeyForLicense license)
        "local Devnet does not hold the selected Mining License private key"
  let operations ← candidateProtocolOperations s epoch licenseIndex signer
  let eligible ← Presence.candidateEligibleCount s epoch license.licenseId operations
  let target ← deriveTarget (authorizedCapacity eligible) s.difficultyCorrectionQ32
  match findTicket s epoch license.licenseId target (workUnits eligible) with
  | none => .ok none
  | some ticket => do
    let next ← acceptDevBlockWithSignerAndOperations s epoch licenseIndex ticket
      (ticketProof s epoch license.licenseId ticket) target secureSigner operations
    .ok (some next)

/-- Try the licences in order. -/
def mineLicenses (s : DevnetState) (epoch : UInt64) :
    List (Nat × Option MiningAuthority) → Except String (Option DevnetState)
  | [] => .ok none
  | (licenseIndex, secureSigner) :: rest => do
    match ← mineLicense s epoch licenseIndex secureSigner with
    | some next => .ok (some next)
    | none => mineLicenses s epoch rest

/-- The checks on the candidate epoch. -/
def checkCandidateEpoch (s : DevnetState) (epoch : UInt64) : Except String Unit := do
  reject (10 ≤ s.formatVersion ∧ s.height = 0)
    "Build 5.4 requires bootstrap-dev to commit Block 1 before mining"
  reject (epoch ≤ s.tipEpoch ∧ 0 < s.height) "candidate epoch must be greater than tip epoch"
  reject (s.height = 0 ∧ epoch < activationDelayEpochs) "bootstrap licenses are not active yet"

/-- Mine one epoch: the state afterwards has one more block, or one more empty
epoch. -/
def mineEpochWithSigner (s : DevnetState) (epoch : UInt64)
    (secureSigner : Option (Nat × MiningAuthority)) : Except String DevnetState := do
  checkCandidateEpoch s epoch
  let s ← advanceToCandidate s epoch
  let s ← applyScheduledLicenseTransitions s epoch
  let mineable ← mineableLicenses s epoch secureSigner
  match ← mineLicenses s epoch mineable with
  | some next => .ok next
  | none =>
    let s := { s with tipEpoch := epoch }
    let s ← if difficultyObservationEnabled s epoch then appendDifficultyResult s false else .ok s
    refreshCurrentStateRoot s

end Building

end Mutiny
