import Mutiny.Node.Mining

/-!
# Genesis and the bootstrap block

The states a node starts from, and Block 1 of a Devnet chain.  Block 1 is derived
from fixed data and compared with the vectors locked in the source: it issues the
first twelve licences, is mined by nobody and mints nothing.
-/

namespace Mutiny

open Result

namespace Domains

def genesisId : Bytes := Bytes.ascii "MUTINY-GENESIS-ID-V1"
def bootstrapManifest : Bytes := Bytes.ascii "MUTINY-BOOTSTRAP-MANIFEST-V1"

end Domains

def devnetFixedGenesisTimeMs : Nat := 1800000000000

/-- The licences Block 1 issues, committed to by the genesis block. -/
structure BootstrapManifestV1 where
  version : UInt16
  networkId : UInt32
  purchaseNonce : Bytes32
  licenses : List LicenseManifestEntryV1
deriving DecidableEq, Repr

namespace BootstrapManifestV1

/-- Twelve licences. -/
def validate (m : BootstrapManifestV1) : Except ProtocolError Unit :=
  reject (m.version ≠ 1 ∨ m.licenses.length ≠ bootstrapLicenseCount) .invalidManifest

def encode (m : BootstrapManifestV1) : Except ProtocolError Bytes := do
  m.validate
  .ok (Bytes.u16 m.version ++ (Bytes.u32 m.networkId ++ (Bytes.b32 m.purchaseNonce ++
    (Bytes.u32 (UInt32.ofNat m.licenses.length) ++
      m.licenses.flatMap LicenseManifestEntryV1.encode))))

def manifestHash [Crypto] (m : BootstrapManifestV1) : Except ProtocolError Bytes32 := do
  let bytes ← m.encode
  .ok (sha256Domain Domains.bootstrapManifest [bytes])

end BootstrapManifestV1

section Genesis

variable [Crypto]

/-- A state without history. -/
def emptyState (formatVersion : UInt16) (networkId : UInt32) (genesisTimeMs : Nat)
    (genesisHash : Bytes32) (licenses : List LicenseState) : DevnetState where
  formatVersion := formatVersion
  networkId := networkId
  motto := motto
  genesisTimeMs := genesisTimeMs
  genesisHash := genesisHash
  height := 0
  tipHash := genesisHash
  tipEpoch := 0
  anchorEpoch := 0
  anchorLicenseId := 0
  anchorTicketIndex := 0
  anchorArgon2Proof := genesisHash
  totalIssuedStrikes := 0
  difficultyHistoryCount := 0
  difficultyHistoryBitmap := 0
  difficultyCorrectionQ32 := difficultyQ32One
  baseFeeRateQ32 := baseFeeMinQ32
  currentStateRoot := 0
  licenses := licenses
  consumedNativePayments := []
  consumedBitcoinPayments := []
  consumedEvidence := []
  offenseEvents := []
  treasuryReservedDividendStrikes := 0
  dividendAccounts := []
  historicalLicenseKeys := []
  miningPresence := []
  bitcoinHeaders := []
  bitcoinBestChain := none
  utxos := []
  mempool := []
  pendingProtocolOperations := []
  confirmedTransactions := []
  blocks := []

/-- The licences of the old Devnet, which has them from genesis on. -/
def bootstrapLicenseStates : List LicenseState :=
  (List.range bootstrapLicenseCount).map fun i =>
    let pk := Crypto.publicKey (devSeed (UInt8.ofNat i))
    let purchaseId := sha256Domain Domains.bootstrapManifest
      [Bytes.ascii "DEVNET-BOOTSTRAP", [UInt8.ofNat i]]
    { index := UInt32.ofNat i
      licenseIdText := .encode (sha256Domain Domains.licenseId
        [Bytes.u32 devnetNetworkId, [0x01], Bytes.b32 purchaseId, Bytes.u32 (UInt32.ofNat i),
          Bytes.b32 pk])
      purchaseId := purchaseId
      ownerPublicKey := pk
      miningPublicKey := pk
      paymentAddressId := addressId pk
      status := licenseStatusActive
      purchaseMethod := purchaseMethodBtc
      ownerKeySequence := 0
      miningKeySequence := 0
      issuedEpoch := 0
      activationEpoch := activationDelayEpochs
      strikeWeight := 0
      suspendedUntilEpoch := 0
      revocationEpoch := 0 }

/-- The old Devnet, still used by tests. -/
def initDevnet : Except String DevnetState :=
  let genesisHash := sha256Domain Domains.genesisId
    [Bytes.u32 devnetNetworkId, Bytes.u64 (UInt64.ofNat devnetFixedGenesisTimeMs),
      Bytes.ascii motto]
  refreshCurrentStateRoot (emptyState 9 devnetNetworkId devnetFixedGenesisTimeMs genesisHash
    bootstrapLicenseStates)

/-! ## The fixture of Block 1 -/

def devnetBootstrapPaymentSats : UInt64 := 24576
def devnetBootstrapAnchorHeight : UInt32 := 800352
def devnetBootstrapContainingHeight : UInt32 := 800353
def devnetBootstrapSixthHeight : UInt32 := 800358
def devnetBootstrapAnchorFirstTimestamp : UInt32 := 1799994000
def devnetBtcTrustedCheckpointInternal : Bytes32 :=
  0x5353535353535353535353535353535353535353535353535353535353535353#256

/-- The licences of the fixture. -/
def bootstrapManifest : Except String BootstrapManifestV1 := do
  let manifest : BootstrapManifestV1 :=
    { version := 1
      networkId := devnetNetworkId
      purchaseNonce := sha256Domain Domains.bootstrapManifest
        [Bytes.ascii "MUTINY-DEVNET-BOOTSTRAP-NONCE-V1", Bytes.u32 devnetNetworkId]
      licenses := (List.range bootstrapLicenseCount).map fun i =>
        let pk := Crypto.publicKey (devSeed (UInt8.ofNat i))
        { ownerPublicKey := pk, miningPublicKey := pk } }
  manifest.validate.mapError ProtocolError.message
  .ok manifest

/-- A length below 253. -/
def compactSizeSmall (n : Nat) : Except String Bytes := do
  reject (0xfc < n) "Build 5.4 bootstrap fixture CompactSize overflow"
  .ok [UInt8.ofNat n]

def buildBootstrapPaymentTx (manifestHash : Bytes32) : Except String Bytes := do
  let prev := sha256Domain Domains.btcPaymentId
    [Bytes.ascii "MUTINY-DEVNET-BOOTSTRAP-BTC-PREVOUT-V1", Bytes.b32 manifestHash]
  let treasuryLen ← compactSizeSmall BitcoinHeaders.devnetBtcTreasuryScript.length
  let commitment := canonicalManifestScript manifestHash
  let commitmentLen ← compactSizeSmall commitment.length
  .ok (Bytes.le32 2 ++ ([1] ++ (Bytes.b32 prev ++ (Bytes.le32 0 ++ ([1] ++ ([0x51] ++
    (Bytes.le32 0xfffffffe ++ ([2] ++ (Bytes.le64 devnetBootstrapPaymentSats ++ (treasuryLen ++
      (BitcoinHeaders.devnetBtcTreasuryScript ++ (Bytes.le64 0 ++ (commitmentLen ++
        (commitment ++ Bytes.le32 0))))))))))))))

/-- A chain of easy headers: each is mined on the one before, over a marker derived
from its position. -/
def easyChain (marker : Bytes) (firstPosition : Nat) : Nat → Bytes32 →
    Except String (List BitcoinHeader)
  | 0, _ => .ok []
  | n + 1, prev => do
    let i := UInt32.ofNat firstPosition
    let header ← (mineEasyHeader prev (doubleSha256 (marker ++ Bytes.u32 i))
      (devnetBootstrapAnchorFirstTimestamp + i * 600) BitcoinHeaders.devnetBtcBits
      i).mapError BitcoinError.message
    let rest ← easyChain marker (firstPosition + 1) n header.hashInternal
    .ok (header :: rest)

def anchorHeaders : Except String (List BitcoinHeader) := do
  let headers ← easyChain (Bytes.ascii "MUTINY-DEVNET-BUILD54-ANCHOR-V1") 0 anchorContextHeaders
    devnetBtcTrustedCheckpointInternal
  (validateAnchorContext headers devnetBtcTrustedCheckpointInternal BitcoinHeaders.devnetBtcBits
    devnetBootstrapAnchorHeight).mapError fun e =>
      "Build 5.4 anchor self-validation failed: " ++ e.message
  .ok headers

/-- The five headers on top of the one that contains the payment. -/
def confirmHeaders : List UInt32 → Bytes32 → Except String (List BitcoinHeader)
  | [], _ => .ok []
  | i :: rest, prev => do
    let marker := doubleSha256
      (Bytes.ascii "MUTINY-DEVNET-BUILD54-BOOTSTRAP-CONFIRM-V1" ++ Bytes.u32 i)
    let header ← (mineEasyHeader prev marker
      (devnetBootstrapAnchorFirstTimestamp + (11 + i) * 600) BitcoinHeaders.devnetBtcBits
      i).mapError BitcoinError.message
    let headers ← confirmHeaders rest header.hashInternal
    .ok (header :: headers)

/-- The proof of its payment. -/
def paymentProof (rawTransaction : Bytes) (anchor : List BitcoinHeader) :
    Except String BitcoinSpvProofV1 := do
  let parsed ← (parseTransaction rawTransaction).mapError BitcoinError.message
  let last ← okOr anchor.getLast? "empty anchor context"
  let first ← (mineEasyHeader last.hashInternal parsed.txidInternal
    (devnetBootstrapAnchorFirstTimestamp + 11 * 600) BitcoinHeaders.devnetBtcBits
    0).mapError BitcoinError.message
  let rest ← confirmHeaders [1, 2, 3, 4, 5] first.hashInternal
  .ok { rawTransaction := rawTransaction
        paymentOutputIndex := 0
        manifestOutputIndex := 1
        txIndex := 0
        merkleBranch := []
        headers := first :: rest
        containingBlockHeight := devnetBootstrapContainingHeight }

/-- The part of the fixture that Block 1 reads. -/
structure DevnetBootstrapFixtureV1 where
  manifest : BootstrapManifestV1
  validated : ValidatedBitcoinPayment
  paymentId : Bytes32
  initialStateRoot : Bytes32
  genesisId : Bytes32
  licenseIds : List Bytes32
  issuedEpoch : UInt64
  activationEpoch : UInt64
  operation : ProtocolOperationV1

/-- The root of the state before Block 1. -/
def initialStateRoot (s : DevnetState) : Except String Bytes32 :=
  computeStateRoot { s with
      height := 0
      tipEpoch := 0
      licenses := []
      consumedNativePayments := []
      consumedBitcoinPayments := []
      consumedEvidence := []
      offenseEvents := []
      treasuryReservedDividendStrikes := 0
      dividendAccounts := []
      historicalLicenseKeys := [] }
    { utxos := []
      height := 0
      totalIssued := 0
      difficulty := { count := 0, bitmap := 0, correction := difficultyQ32One }
      baseFeeRate := baseFeeMinQ32 }

/-- The fixture, checked. -/
def createFixture (s : DevnetState) : Except String DevnetBootstrapFixtureV1 := do
  let manifest ← bootstrapManifest
  let manifestHash ← manifest.manifestHash.mapError ProtocolError.message
  let anchor ← anchorHeaders
  let rawTx ← buildBootstrapPaymentTx manifestHash
  let proof ← paymentProof rawTx anchor
  let validated ← (validatePayment proof manifestHash BitcoinHeaders.devnetBtcTreasuryScript
    devnetBootstrapPaymentSats).mapError fun e =>
      "Build 5.4 bootstrap payment self-validation failed: " ++ e.message
  let anchorLast ← okOr anchor.getLast? "nonempty"
  reject (proof.headers.head?.map (·.previousBlockInternal) ≠ some anchorLast.hashInternal)
    "bootstrap payment chain does not descend from Genesis Bitcoin anchor"
  reject (validated.sixthConfirmationHeight ≠ devnetBootstrapSixthHeight)
    "bootstrap sixth-confirmation height mismatch"
  let sixthMtp ← (medianTimePast11 (anchor.drop (anchor.length - 5) ++ proof.headers)).mapError
    BitcoinError.message
  let genesisTimeSecs := UInt32.ofNat (devnetFixedGenesisTimeMs / 1000)
  reject (sixthMtp ≤ genesisTimeSecs) "bootstrap sixth-confirmation MTP must be post-Genesis"
  let issuedEpoch := (sixthMtp - genesisTimeSecs).toUInt64 / 60
  let activationEpoch ← okOr (issuedEpoch.checkedAdd activationDelayEpochs)
    "bootstrap activation epoch overflow"
  let paymentId := bitcoinPaymentId validated.txidInternal 0
  let licenseIds :=
    manifestLicenseIds devnetNetworkId purchaseMethodBtc paymentId manifest.licenses
  let initialRoot ← initialStateRoot s
  let genesisId := sha256Domain Domains.genesisId
    [Bytes.u16 1, Bytes.u32 devnetNetworkId, Bytes.u64 (UInt64.ofNat devnetFixedGenesisTimeMs),
      Bytes.u32 devnetBootstrapAnchorHeight, [UInt8.ofNat anchorContextHeaders],
      anchor.flatMap fun h => Bytes.b80 h.raw, Bytes.b32 initialRoot, Bytes.b32 manifestHash]
  let commitment := Bytes.u16 1 ++ (Bytes.b32 genesisId ++ (Bytes.b32 manifestHash ++
    (Bytes.b32 paymentId ++ (Bytes.u32 devnetBootstrapAnchorHeight ++
      (Bytes.b32 anchorLast.hashInternal ++ (Bytes.u32 devnetBootstrapContainingHeight ++
        (Bytes.b32 validated.containingBlockHashInternal ++ (Bytes.u32 devnetBootstrapSixthHeight ++
          (Bytes.b32 validated.sixthConfirmationHashInternal ++ (Bytes.u32 sixthMtp ++
            (Bytes.u64 issuedEpoch ++ (Bytes.u64 activationEpoch ++
              (Bytes.u32 (UInt32.ofNat licenseIds.length) ++
                licenseIds.flatMap Bytes.b32)))))))))))))
  .ok { manifest := manifest
        validated := validated
        paymentId := paymentId
        initialStateRoot := initialRoot
        genesisId := genesisId
        licenseIds := licenseIds
        issuedEpoch := issuedEpoch
        activationEpoch := activationEpoch
        operation :=
          { opType := opBootstrapCommitment, opVersion := 1, payload := commitment } }

variable {headers : List BitcoinHeader}

theorem timestamps_easyChain {marker : Bytes} {first n : Nat} {prev : Bytes32}
    (h : easyChain marker first n prev = .ok headers) :
    headers.map (·.timestamp) = (List.range' first n).map fun i =>
      devnetBootstrapAnchorFirstTimestamp + UInt32.ofNat i * 600 := by
  induction n generalizing first prev headers with
  | zero =>
    cases h
    rfl
  | succ n ih =>
    simp only [easyChain, ok_rules] at h
    rcases h with ⟨header, hmined, rest, hrest, rfl⟩
    rw [List.map_cons, ih hrest, timestamp_mineEasyHeader hmined, List.range'_succ, List.map_cons]

theorem timestamps_confirmHeaders {indices : List UInt32} {prev : Bytes32}
    (h : confirmHeaders indices prev = .ok headers) :
    headers.map (·.timestamp) = indices.map fun i =>
      devnetBootstrapAnchorFirstTimestamp + (11 + i) * 600 := by
  induction indices generalizing prev headers with
  | nil =>
    cases h
    rfl
  | cons i indices ih =>
    simp only [confirmHeaders, ok_rules] at h
    rcases h with ⟨header, hmined, rest, hrest, rfl⟩
    rw [List.map_cons, ih hrest, timestamp_mineEasyHeader hmined, List.map_cons]

/-- The bootstrap block stands at epoch ten, whatever the hashes are. -/
theorem issuedEpoch_createFixture {s : DevnetState} {fixture : DevnetBootstrapFixtureV1}
    (h : createFixture s = .ok fixture) : fixture.issuedEpoch = 10 := by
  simp only [createFixture, ok_rules] at h
  rcases h with ⟨manifest, -, manifestHash, -, anchor, hanchor, rawTx, -, proof, hproof, validated,
    -, anchorLast, -, _, -, _, -, sixthMtp, hmtp, _, -, activation, -, initialRoot, -, rfl⟩
  simp only [anchorHeaders, ok_rules] at hanchor
  rcases hanchor with ⟨_, hchain, _, -, rfl⟩
  simp only [paymentProof, ok_rules] at hproof
  rcases hproof with ⟨_, -, _, -, first, hfirst, rest, hrest, rfl⟩
  simp only [medianTimePast11, ok_rules] at hmtp
  rcases hmtp with ⟨_, -, hmedian⟩
  have hlength := congrArg List.length (timestamps_easyChain hchain)
  simp only [List.length_map, List.length_range'] at hlength
  rw [List.map_append, List.map_drop, List.map_cons, timestamps_easyChain hchain,
    timestamp_mineEasyHeader hfirst, timestamps_confirmHeaders hrest, hlength] at hmedian
  have hsixth : sixthMtp = 1800000600 := hmedian.symm.trans (by decide)
  subst hsixth
  rfl

/-- The Devnet genesis: no licences, and an identifier derived from the fixture. -/
def initBuild54GenesisDevnet : Except String DevnetState := do
  let old ← initDevnet
  let s := emptyState 10 devnetNetworkId old.genesisTimeMs old.genesisHash []
  let fixture ← createFixture s
  .ok { s with
    genesisHash := fixture.genesisId
    tipHash := fixture.genesisId
    anchorArgon2Proof := fixture.genesisId
    currentStateRoot := fixture.initialStateRoot }

/-! ## Block 1 -/

def block1TransactionRoot : Bytes32 :=
  0x0da6084cc54e164effb81a07fad784fc237272cae6726fe45902aa0124e7cc1b#256
def block1StateRoot : Bytes32 :=
  0xdcdde138a84d2afafdad4fbc7a3c7a671aaef67b8698bcdcf74060d2932341ad#256
def block1Hash : Bytes32 :=
  0x6ccb8c9c732ef1df9298e1604ba01b5a8ae5ed9b49985593d705a142a081c766#256

/-- The payment record of the bootstrap. -/
def bootstrapPayment (fixture : DevnetBootstrapFixtureV1) : BitcoinPaymentState where
  paymentId := fixture.paymentId
  txidInternal := fixture.validated.txidInternal
  paymentOutputIndex := fixture.validated.paymentOutputIndex
  paidSats := fixture.validated.paidSats
  containingBlockHashInternal := fixture.validated.containingBlockHashInternal
  containingBlockHeight := fixture.validated.containingBlockHeight
  sixthConfirmationHashInternal := fixture.validated.sixthConfirmationHashInternal
  sixthConfirmationHeight := fixture.validated.sixthConfirmationHeight
  sixthConfirmationTimestamp := fixture.validated.sixthConfirmationTimestamp

/-- The licences of Block 1. -/
def bootstrapLicenses (fixture : DevnetBootstrapFixtureV1) : List LicenseState :=
  ((fixture.manifest.licenses.zip fixture.licenseIds).zipIdx).map fun ((entry, id), i) =>
    BitcoinPurchase.issuedLicense (UInt32.ofNat i) id fixture.paymentId purchaseMethodBtc entry
      fixture.issuedEpoch fixture.activationEpoch

/-- A genesis state nothing has happened to. -/
def checkPristine (s : DevnetState) : Except String Unit := do
  reject (s.formatVersion < 10)
    "Build 5.4 explicit Bootstrap requires format_version 10 Genesis state"
  reject (s.height ≠ 0 ∨ s.tipEpoch ≠ 0 ∨ s.blocks ≠ [] ∨ s.licenses ≠ [])
    "Build 5.4 Bootstrap may execute exactly once from pristine empty Genesis state"
  reject (s.consumedBitcoinPayments ≠ [] ∨ s.utxos ≠ [] ∨ s.mempool ≠ [] ∨
    s.pendingProtocolOperations ≠ []) "Build 5.4 Bootstrap Genesis state is not pristine"

/-- Block 1 and the state after it. -/
structure BootstrapTransition where
  next : DevnetState
  header : HeaderV1
  txs : List TransactionV1
  operations : List ProtocolOperationV1

/-- Build Block 1 on a pristine state.  The source derives the fixture twice and
compares the two; here it is derived once. -/
def buildDevnetBootstrapTransition (s : DevnetState) : Except String BootstrapTransition := do
  checkPristine s
  let fixture ← createFixture s
  reject (s.genesisHash ≠ fixture.genesisId ∨ s.tipHash ≠ fixture.genesisId)
    "Build 5.4 GenesisID does not match bootstrap reconciliation fixture"
  reject (s.currentStateRoot ≠ fixture.initialStateRoot)
    "Build 5.4 initial StateRoot does not match bootstrap reconciliation fixture"
  let operations := [fixture.operation]
  let operationRoot ← (protocolOperationsRoot operations).mapError ProtocolError.message
  let epoch := fixture.issuedEpoch
  -- a coinbase without outputs: the bootstrap block mints nothing
  let coinbase : TransactionV1 :=
    { core :=
        { version := 1
          networkId := devnetNetworkId
          validFromEpoch := epoch
          expiryEpoch := 0
          inputs := [.coinbase
            { blockEpoch := epoch
              blockHeight := 1
              parentBlockHash := s.genesisHash
              protocolOperationsRoot := operationRoot }]
          outputs := [] }
      witnesses := [] }
  let txRoot ← okOr (merkleRoot [coinbase.leaf]) "Build 5.4 bootstrap TransactionRoot missing"
  reject (txRoot ≠ block1TransactionRoot)
    ("Build 5.4 Block-1 TransactionRoot vector mismatch: " ++ hexId txRoot)
  let blockWeight ← blockBodyWeight [coinbase] operations
  let next := { s with
    tipEpoch := epoch
    licenses := bootstrapLicenses fixture
    consumedBitcoinPayments := [bootstrapPayment fixture] }
  let difficulty : DifficultyHistory :=
    { count := 0, bitmap := 0, correction := difficultyQ32One }
  let stateRoot ← computeStateRoot next
    { utxos := []
      height := 1
      totalIssued := 0
      difficulty := difficulty
      baseFeeRate := baseFeeMinQ32 }
  reject (stateRoot ≠ block1StateRoot)
    ("Build 5.4 Block-1 post-state vector mismatch: " ++ hexId stateRoot)
  let target ← deriveTarget (authorizedCapacity (UInt64.ofNat bootstrapLicenseCount))
    difficultyQ32One
  let header : HeaderV1 :=
    { core :=
        { version := 1
          networkId := devnetNetworkId
          epoch := epoch
          parentHash := s.genesisHash
          transactionRoot := txRoot
          stateRoot := stateRoot
          target := target
          licenseId := 0
          ticketIndex := 0
          argon2Proof := 0 }
      signature := 0 }
  reject (blockHash header ≠ block1Hash)
    ("Build 5.4 Block-1 hash vector mismatch: " ++ hexId (blockHash header))
  let committed := next.commitBlock
    { height := 1
      header := header
      totalIssued := 0
      difficulty := difficulty
      baseFee := baseFeeMinQ32
      stateRoot := stateRoot
      utxos := next.utxos }
  .ok { next := { committed with
          blocks := next.blocks ++ [blockRecord 1 header [coinbase] operations 0 0 0 blockWeight
            coinbase []] }
        header := header
        txs := [coinbase]
        operations := operations }

/-- The first block is the locked one. -/
def validateAndApplyDevnetBlock1 (s : DevnetState) (header : HeaderV1) (txs : List TransactionV1)
    (operations : List ProtocolOperationV1) : Except String DevnetState := do
  let expected ← buildDevnetBootstrapTransition s
  reject (header ≠ expected.header) "Build 5.4 Bootstrap Block-1 header mismatch"
  reject (txs.map (·.encodeFull) ≠ expected.txs.map (·.encodeFull))
    "Build 5.4 Bootstrap Block-1 transaction body mismatch"
  reject (operations.map (·.encode) ≠ expected.operations.map (·.encode))
    "Build 5.4 Bootstrap Block-1 protocol operation mismatch"
  .ok expected.next

end Genesis

/-- Primitives for evaluating a Devnet chain from its genesis on.  The hashes that are
compared with locked vectors are those vectors, the hash of another tagged message is
the message modulo a prime-sized number, every untagged hash is zero and so meets any
target, and every signature is the number zero. -/
@[reducible]
def devnetCrypto : Crypto where
  sha256 bytes :=
    if Domains.genesisId.isPrefixOf bytes then devnetGenesisId
    else if Domains.txLeaf.isPrefixOf bytes then block1TransactionRoot
    else if Domains.stateRoot.isPrefixOf bytes then block1StateRoot
    else if Domains.blockId.isPrefixOf bytes then block1Hash
    else if (Bytes.ascii "MUTINY").isPrefixOf bytes then
      BitVec.ofNat 256 (Bytes.beNat bytes % (2 ^ 256 - 189))
    else 0
  argon2id _ _ := 0
  validPublicKey _ := true
  verify _ _ signature := signature == 0
  verifyStrict _ _ signature := signature == 0
  publicKey secret := secret
  sign _ _ := 0

end Mutiny
