import Mutiny.Node.Epochs

/-!
# Authenticated bitcoin headers

The bitcoin headers a chain has committed to, from a locked anchor on: how a
batch of headers extends them, which chain is best, and the checks a licence
purchase makes against the best chain.
-/

namespace Mutiny

open Result Lists

namespace BitcoinHeaders

def packMBtcDisableEpoch : UInt64 := 2101248
def packJAnchorHeight : UInt32 := 800352
def packJAnchorHashInternal : Bytes32 :=
  0xfba9fcccdcbc07db8a1e1166cc84a386ca5ed154ee2824bc2b6e80150521d75d#256
def mainnetPackJAnchorHeight : UInt32 := 963648
def mainnetPackJContextStartHeight : UInt32 := 963638
def devnetBtcBits : UInt32 := 0x207fffff

def devnetBtcTreasuryScript : Bytes :=
  0x00 :: 0x20 :: Bytes.b32
    0x4d5554494e592d4254432d54524541535552592d4445564e45542d5631000001#256

def mainnetBtcTreasuryScript : Bytes :=
  0x00 :: 0x20 :: Bytes.b32
    0xf44c4495404a173fb78c31e1a3965dd9bf596873a49694fb4cbf26a8f2c82c29#256

/-- The rules for headers. -/
inductive BitcoinHeaderValidationPolicy where
  | devnetFixedBits (bits : UInt32)
  | mainnet
deriving DecidableEq, Repr

/-- The eleven headers the Mainnet genesis block embeds, the anchor last. -/
def mainnetGenesisContext : List Bytes80 :=
  [0x00a00120550743bb46e75d68e1e1cfcf86e58448d3c68bd755b6000000000000000000005791ae4d28f55d2ca44c873e9d70927bfe6423fabf07dad58dab9472b4eae871da1b8a6a3d350217571b40a0#640,
    0x00803f24689b87b461eae1de8b52ea1fa0783078a553eb413dad00000000000000000000c7c5c959269081959dd146912157d8c80ad3ad65d0495496755d3baa5efb9771ca268a6a3d350217e852ce89#640,
    0x00e00020866fd623c90f9018dc2710d63edf2a548ab38118d38d01000000000000000000fe861005372174309153521a1817cf76aee6b08fe18c64ca10df7b68f48dd9f8ee2c8a6a3d350217e1417261#640,
    0x0000003872af443cf53f1bb02fb2317c788ce926285d60b16394000000000000000000007d56618d3751912963317855dd101f1aad9b54b7bd2625fffba7d41ddb4cd183482c8a6a3d3502177a87eea3#640,
    0x0080652089bb91fdfc445076635eec0aa545a4377b31641bc31f01000000000000000000b1d6f928ff5b4271d19ace898fc7cab57020b76c5ce5198697f62117630b95962d2e8a6a3d350217c2fc9746#640,
    0x00e000202906fc82c9ccd7fc31f77e8f5aebbb6fc3b8f4434ceb0000000000000000000056bf1829cea467e09a0ca1ff661af5b727c21a404efffdca96cf4a4cfdaf7d8eaa2e8a6a3d3502172ac8c93a#640,
    0x00e04c2b867bc665157ea05777bfd8bebe3f10ba722a05c7698600000000000000000000c0ce5533c3c52b375b9863768f640ef33b0b6b865b28bb94d902635e49ed0b05d12e8a6a3d35021741f11075#640,
    0x0080102957bd0dd9507166fa8128130c385eeadfbd188b3d7fed0000000000000000000089cccdf89dcf26e90b40f2e709fabd07a9431b4748334bf25b1984cb1f456263392f8a6a3d3502175100c1fb#640,
    0x00a02422abdb5a9593e65036a30a25af955753863f6cf3cd472a020000000000000000007597579d980730d6ff23957dfdbcfc22e3ad479ecac0c85160f1c72db5a09b03db318a6a3d350217cd6dc64a#640,
    0x00000020a9936e1d318143a031b88854ea08e9ba3bd8659ca7b101000000000000000000c971243030a38ed9ad149393c4c4947a82a9622101e9a31a15710f32aeee0184f5388a6a3d35021788eedf2e#640,
    0x0000ff3f331fea1f0be79c6037c580aabc7ac324e9134ce49ed200000000000000000000901420fd0a4f3e9cab31eafeeea59d316e9d9f7e0bc77a11bbb40e712a72b9ea6f438a6ac13c0217f3f95d66#640]

/-- A header of the context. -/
def mainnetPackJContextHeader (height : UInt32) : Option BitcoinHeader :=
  if mainnetPackJContextStartHeight ≤ height ∧ height ≤ mainnetPackJAnchorHeight then
    mainnetGenesisContext[(height - mainnetPackJContextStartHeight).toNat]?.map fun raw =>
      { raw := raw }
  else none

/-- The height of the anchor. -/
def policyAnchorHeight : BitcoinHeaderValidationPolicy → UInt32
  | .devnetFixedBits _ => packJAnchorHeight
  | .mainnet => mainnetPackJAnchorHeight

/-- The rules of a network. -/
structure BitcoinTuplePolicy where
  headerValidation : BitcoinHeaderValidationPolicy
  treasuryScriptPubkey : Option Bytes
  ordinaryPurchaseActive : Bool
deriving DecidableEq, Repr

/-- The policy of a network and genesis; every other pair has none. -/
def resolveTuplePolicy (networkId : UInt32) (genesisId : Bytes32) : Option BitcoinTuplePolicy :=
  if networkId = devnetNetworkId ∧ genesisId = devnetGenesisId then
    some { headerValidation := .devnetFixedBits devnetBtcBits
           treasuryScriptPubkey := some devnetBtcTreasuryScript
           ordinaryPurchaseActive := true }
  else if networkId = mainnetNetworkId ∧ genesisId = mainnetGenesisId then
    some { headerValidation := .mainnet
           treasuryScriptPubkey := some mainnetBtcTreasuryScript
           ordinaryPurchaseActive := true }
  else none

/-- The stored header with a hash. -/
def findHeader (headers : List BitcoinHeaderStateStored) (hash : Bytes32) :
    Option BitcoinHeaderStateStored :=
  headers.find? fun row => row.blockHashInternal == hash

section Headers

variable [Crypto]

def policyAnchorHashInternal : BitcoinHeaderValidationPolicy → Except String Bytes32
  | .devnetFixedBits _ => .ok packJAnchorHashInternal
  | .mainnet =>
    okOr ((mainnetPackJContextHeader mainnetPackJAnchorHeight).map (·.hashInternal))
      "locked Mainnet Genesis Bitcoin anchor context is unavailable"

/-- The index of stored headers is the list itself once it has passed this check. -/
def buildHeaderIndex (headers : List BitcoinHeaderStateStored) : Except String Unit := do
  let _ ← headers.foldlM (fun seen stored => do
    reject (stored.header.hashInternal ≠ stored.blockHashInternal)
      "stored Bitcoin header hash does not match raw header"
    reject (stored.blockHashInternal ∈ seen) "duplicate authenticated Bitcoin header hash"
    .ok (stored.blockHashInternal :: seen)) ([] : List Bytes32)
  .ok ()

/-- Height and work of a parent. -/
def parentMetadata (headers : List BitcoinHeaderStateStored) (previous : Bytes32)
    (policy : BitcoinHeaderValidationPolicy) : Except String (UInt32 × Bytes32) := do
  let anchorHash ← policyAnchorHashInternal policy
  if previous = anchorHash then .ok (policyAnchorHeight policy, 0)
  else
    let parent ← okOr (findHeader headers previous)
      "Bitcoin header parent is not the locked anchor or authenticated post-anchor state"
    .ok (parent.height, parent.relativeChainwork)

/-- Follow the parents of a header down to a height. -/
def lineageLoop (index : List BitcoinHeaderStateStored) (targetHeight : UInt32) :
    Nat → Bytes32 → UInt32 → Except String BitcoinHeader
  | 0, _, _ => .error "Mainnet Bitcoin ancestry height underflow"
  | fuel + 1, currentHash, currentHeight => do
    let current ←
      if currentHeight ≤ mainnetPackJAnchorHeight then do
        let header ← okOr (mainnetPackJContextHeader currentHeight)
          "required Mainnet Genesis Bitcoin context header is unavailable"
        reject (header.hashInternal ≠ currentHash)
          "Mainnet Genesis Bitcoin context lineage hash mismatch"
        .ok header
      else do
        let stored ← okOr (findHeader index currentHash)
          "Mainnet Bitcoin ancestry references missing authenticated header"
        reject (stored.height ≠ currentHeight) "Mainnet Bitcoin ancestry height mismatch"
        .ok stored.header
    if currentHeight = targetHeight then .ok current
    else
      let nextHeight ← okOr (currentHeight.checkedSub 1)
        "Mainnet Bitcoin ancestry height underflow"
      lineageLoop index targetHeight fuel current.previousBlockInternal nextHeight

/-- The ancestor of a given height. -/
def mainnetLineageHeaderAtHeight (index : List BitcoinHeaderStateStored) (currentHash : Bytes32)
    (currentHeight targetHeight : UInt32) : Except String BitcoinHeader := do
  reject (targetHeight < mainnetPackJContextStartHeight)
    "Mainnet Bitcoin ancestry requires unavailable pre-Genesis anchor context"
  reject (currentHeight < targetHeight)
    "Mainnet Bitcoin ancestry target is above the current lineage"
  lineageLoop index targetHeight (currentHeight.toNat - targetHeight.toNat + 1) currentHash
    currentHeight

/-- The work of a header that follows the Mainnet rules. -/
def validateMainnetHeader (index : List BitcoinHeaderStateStored) (header : BitcoinHeader)
    (nextHeight parentHeight : UInt32) : Except String Bytes32 := do
  reject (nextHeight ≤ mainnetPackJAnchorHeight)
    "Mainnet BITCOIN_HEADERS cannot replace or precede the locked Genesis anchor"
  reject (parentHeight.checkedAdd 1 ≠ some nextHeight)
    "Mainnet Bitcoin candidate height does not follow its parent"
  let parentHash := header.previousBlockInternal
  let parentHeader ← mainnetLineageHeaderAtHeight index parentHash parentHeight parentHeight
  let firstMtpHeight ← okOr (nextHeight.checkedSub 11)
    "Mainnet Bitcoin candidate is too low for MTP-11"
  reject (firstMtpHeight < mainnetPackJContextStartHeight)
    "Mainnet Bitcoin MTP-11 requires unavailable pre-anchor context"
  let previous ← (List.range 11).mapM fun i =>
    mainnetLineageHeaderAtHeight index parentHash parentHeight (firstMtpHeight + UInt32.ofNat i)
  let firstPeriodTimestamp ←
    if nextHeight % bitcoinMainnetRetargetInterval = 0 then do
      let firstPeriodHeight ← okOr (nextHeight.checkedSub bitcoinMainnetRetargetInterval)
        "Mainnet Bitcoin retarget height underflow"
      let first ← mainnetLineageHeaderAtHeight index parentHash parentHeight firstPeriodHeight
      .ok first.timestamp
    else .ok parentHeader.timestamp
  (validateMainnetHeaderRules header nextHeight parentHeader.bits firstPeriodTimestamp
    parentHeader.timestamp (previous.map (·.timestamp))).mapError BitcoinError.message

/-- Check a header that follows its parent; the result is its work. -/
def validateHeaderForPolicy (index : List BitcoinHeaderStateStored)
    (policy : BitcoinHeaderValidationPolicy) (header : BitcoinHeader)
    (nextHeight parentHeight : UInt32) : Except String Bytes32 :=
  match policy with
  | .devnetFixedBits bits => do
    reject (header.bits ≠ bits) "Devnet BITCOIN_HEADERS nBits mismatch"
    let meets ← (headerMeetsPow header).mapError BitcoinError.message
    reject (meets = false) "Devnet BITCOIN_HEADERS proof of work is invalid"
    (bitcoinHeaderWorkBe header.bits).mapError BitcoinError.message
  | .mainnet => validateMainnetHeader index header nextHeight parentHeight

/-! ## The check of the stored headers -/

/-- Every stored header has its own hash, and no two have the same. -/
def checkRows (rows : List BitcoinHeaderStateStored) : Except String Unit := do
  let _ ← rows.foldlM (fun seen stored => do
    reject (stored.blockHashInternal ∈ seen) "duplicate authenticated Bitcoin header hash"
    reject (stored.header.hashInternal ≠ stored.blockHashInternal)
      "stored Bitcoin header hash does not match raw header"
    .ok (stored.blockHashInternal :: seen)) ([] : List Bytes32)
  .ok ()

/-- Validate one stored header if its parent has been validated. -/
def checkRow (rows : List BitcoinHeaderStateStored) (policy : BitcoinHeaderValidationPolicy)
    (anchorHash : Bytes32) (validated : List Bytes32) (stored : BitcoinHeaderStateStored) :
    Except String (List Bytes32) := do
  if stored.blockHashInternal ∈ validated then .ok validated
  else
    let previous := stored.header.previousBlockInternal
    let parent :=
      if previous = anchorHash then some (policyAnchorHeight policy, (0 : Bytes32))
      else if previous ∈ validated then
        (findHeader rows previous).map fun p => (p.height, p.relativeChainwork)
      else none
    match parent with
    | none => .ok validated
    | some (parentHeight, parentWork) =>
      let expectedHeight ← okOr (parentHeight.checkedAdd 1) "Bitcoin header height overflow"
      let headerWork ←
        validateHeaderForPolicy rows policy stored.header expectedHeight parentHeight
      let expectedWork ← (addChainworkBe parentWork headerWork).mapError BitcoinError.message
      reject (stored.height ≠ expectedHeight)
        "stored Bitcoin header height does not match authenticated parent"
      reject (stored.relativeChainwork ≠ expectedWork)
        "stored Bitcoin relative chainwork does not match authenticated parent"
      .ok (stored.blockHashInternal :: validated)

/-- Repeat over the rows until all are validated.  The source goes over them in an
unspecified order, on which only the text of an error can depend. -/
def checkLineage (rows : List BitcoinHeaderStateStored) (policy : BitcoinHeaderValidationPolicy)
    (anchorHash : Bytes32) : Nat → List Bytes32 → Except String Unit
  | 0, _ => .error "stored Bitcoin header state contains unknown-parent or cyclic lineage"
  | fuel + 1, before => do
    let validated ← rows.foldlM (checkRow rows policy anchorHash) before
    if validated.length = rows.length then .ok ()
    else
      reject (validated.length = before.length)
        "stored Bitcoin header state contains unknown-parent or cyclic lineage"
      checkLineage rows policy anchorHash fuel validated

/-- The best chain points at a stored header of greatest work. -/
def checkBest (rows : List BitcoinHeaderStateStored) (best : BitcoinBestChainStored) :
    Except String Unit := do
  let bestRow ← okOr (findHeader rows best.tipHashInternal)
    "Bitcoin best-chain tip is not present in authenticated header state"
  reject (best.tipHeight ≠ bestRow.height ∨ best.tipRelativeChainwork ≠ bestRow.relativeChainwork)
    "Bitcoin best-chain singleton metadata does not match tip header state"
  reject (rows.any fun row => decide (best.tipRelativeChainwork < row.relativeChainwork))
    "Bitcoin best-chain singleton is not a greatest-work authenticated tip"

/-- The index and its best chain fit together. -/
def checkState (s : DevnetState) : Except String Unit := do
  let policy ←
    if s.bitcoinHeaders ≠ [] ∨ s.bitcoinBestChain.isSome then
      (okOr (resolveTuplePolicy s.networkId s.genesisHash)
        "authenticated Bitcoin header state is inactive for this Mutiny NetworkID/GenesisID tuple").map
        some
    else .ok none
  checkRows s.bitcoinHeaders
  buildHeaderIndex s.bitcoinHeaders
  if s.bitcoinHeaders = [] then
    reject (s.bitcoinBestChain.isSome = true)
      "Bitcoin best-chain singleton exists without authenticated headers"
  else
    let policy ← okOr policy "authenticated Bitcoin state always has a resolved policy"
    let anchorHash ← policyAnchorHashInternal policy.headerValidation
    checkLineage s.bitcoinHeaders policy.headerValidation anchorHash
      (s.bitcoinHeaders.length + 1) []
    let best ← okOr s.bitcoinBestChain
      "authenticated Bitcoin headers require BITCOIN_BEST_CHAIN singleton"
    checkBest s.bitcoinHeaders best

/-! ## Batches of headers -/

/-- Add one header of a batch, unless it is there already. -/
def addHeader (policy : BitcoinHeaderValidationPolicy)
    (acc : List BitcoinHeaderStateStored × Option BitcoinBestChainStored)
    (header : BitcoinHeader) :
    Except String (List BitcoinHeaderStateStored × Option BitcoinBestChainStored) := do
  let (headers, best) := acc
  let hash := header.hashInternal
  match findHeader headers hash with
  | some existing =>
    reject (existing.rawHeader ≠ header.raw)
      "Bitcoin header hash collision maps to different raw header bytes"
    .ok (headers, best)
  | none =>
    let (parentHeight, parentWork) ←
      parentMetadata headers header.previousBlockInternal policy
    let height ← okOr (parentHeight.checkedAdd 1) "Bitcoin header height overflow"
    let headerWork ← validateHeaderForPolicy headers policy header height parentHeight
    let relativeChainwork ← (addChainworkBe parentWork headerWork).mapError BitcoinError.message
    let stored : BitcoinHeaderStateStored :=
      { blockHashInternal := hash
        height := height
        rawHeader := header.raw
        relativeChainwork := relativeChainwork }
    let shouldSwitch :=
      match best with
      | some current => decide (current.tipRelativeChainwork < relativeChainwork)
      | none => true
    let best := if shouldSwitch then
        some { tipHashInternal := hash
               tipHeight := height
               tipRelativeChainwork := relativeChainwork }
      else best
    .ok (headers ++ [stored], best)

def applyOperation (s : DevnetState) (op : ProtocolOperationV1) (blockEpoch : UInt64) :
    Except String DevnetState := do
  reject (packMBtcDisableEpoch ≤ blockEpoch)
    "BITCOIN_HEADERS is disabled beginning Mutiny epoch 2,101,248"
  checkState s
  let policy ← okOr (resolveTuplePolicy s.networkId s.genesisHash)
    "BITCOIN_HEADERS is inactive for this Mutiny NetworkID/GenesisID tuple"
  let batch ← BitcoinHeadersV1.fromOperation op
  reject (batch.networkId ≠ s.networkId) "BITCOIN_HEADERS NetworkID mismatch"
  reject (batch.genesisId ≠ s.genesisHash) "BITCOIN_HEADERS GenesisID mismatch"
  buildHeaderIndex s.bitcoinHeaders
  let (headers, best) ← batch.headers.foldlM (addHeader policy.headerValidation)
    (s.bitcoinHeaders, s.bitcoinBestChain)
  let candidate := { s with
    bitcoinHeaders := sortByKey BitcoinHeaderStateStored.blockHashInternal headers
    bitcoinBestChain := best }
  checkState candidate
  .ok candidate

/-! ## The window of a purchase -/

/-- What a purchase reads off the best chain. -/
structure AuthenticatedPurchaseWindow where
  containingHeader : BitcoinHeader
  sixthHeader : BitcoinHeader
  paymentMtp : UInt32
deriving DecidableEq, Repr

def packJContextStartHeight : UInt32 := 800342
def packJContextStartTimestamp : UInt32 := 1799994000

/-- The time of a context height. -/
def packJContextTimestamp (height : UInt32) : Option UInt32 :=
  if packJContextStartHeight ≤ height ∧ height ≤ packJAnchorHeight then
    some (packJContextStartTimestamp + (height - packJContextStartHeight) * 600)
  else none

/-- Follow the best chain to the anchor, recording the hash at every height.  Each
turn adds a height, so there are at most as many as stored headers. -/
def bestChainLoop (headers : List BitcoinHeaderStateStored) :
    Nat → Bytes32 → List (UInt32 × Bytes32) → Except String (List (UInt32 × Bytes32))
  | 0, _, _ => .error "Bitcoin best-chain ancestry repeats a height"
  | fuel + 1, current, byHeight => do
    let row ← okOr (findHeader headers current)
      "Bitcoin best-chain ancestry references missing authenticated header"
    reject (byHeight.any fun e => e.1 == row.height)
      "Bitcoin best-chain ancestry repeats a height"
    let byHeight := (row.height, current) :: byHeight
    let previous := row.header.previousBlockInternal
    if previous = packJAnchorHashInternal then
      .ok ((packJAnchorHeight, packJAnchorHashInternal) :: byHeight)
    else bestChainLoop headers fuel previous byHeight

/-- The best chain by height. -/
def bestChainHashesByHeight (s : DevnetState) : Except String (List (UInt32 × Bytes32)) := do
  checkState s
  let best ← okOr s.bitcoinBestChain
    "BTC purchase requires authenticated BITCOIN_BEST_CHAIN state"
  bestChainLoop s.bitcoinHeaders (s.bitcoinHeaders.length + 1) best.tipHashInternal []

/-- The hash a table has at a height. -/
def hashAt (byHeight : List (UInt32 × Bytes32)) (height : UInt32) : Option Bytes32 :=
  (byHeight.find? fun e => e.1 == height).map (·.2)

/-- The header of the best chain. -/
def authenticatedBestHeaderAtHeight (s : DevnetState) (bestByHeight : List (UInt32 × Bytes32))
    (height : UInt32) : Except String BitcoinHeader := do
  reject (height ≤ packJAnchorHeight)
    "Pack-J context header raw bytes are not stored as post-anchor BITCOIN_HEADER state"
  let hash ← okOr (hashAt bestByHeight height)
    "required Bitcoin height is not present on current authenticated best chain"
  let row ← okOr (findHeader s.bitcoinHeaders hash)
    "current Bitcoin best-chain height references missing authenticated header"
  .ok row.header

/-- The proof headers stand in the state, one above the other. -/
def checkProofHeaders (s : DevnetState) (containingHeight : UInt32)
    (proofHeaders : List BitcoinHeader) : Except String Unit :=
  (proofHeaders.zipIdx).forM fun (proofHeader, i) => do
    let expectedHeight ← okOr (containingHeight.checkedAdd (UInt32.ofNat i))
      "Bitcoin proof header height overflow"
    let row ← okOr (findHeader s.bitcoinHeaders proofHeader.hashInternal)
      "Bitcoin proof header is absent from authenticated BITCOIN_HEADER state"
    reject (row.height ≠ expectedHeight ∨ row.rawHeader ≠ proofHeader.raw)
      "Bitcoin proof header does not exactly match authenticated header state"
    reject (0 < i ∧ (proofHeaders[i - 1]?.map (·.hashInternal)) ≠
      some proofHeader.previousBlockInternal) "Bitcoin proof headers are not contiguous"

/-- The headers of a proof are those of the best chain. -/
def validatePurchaseWindow (s : DevnetState) (proofHeaders : List BitcoinHeader)
    (containingHeight : UInt32) : Except String AuthenticatedPurchaseWindow := do
  reject (proofHeaders.length < requiredConfirmations)
    "Bitcoin SPV proof has fewer than six confirmations"
  let bestByHeight ← bestChainHashesByHeight s
  let best ← okOr s.bitcoinBestChain
    "BTC purchase requires authenticated BITCOIN_BEST_CHAIN state"
  let sixthHeight ← okOr (containingHeight.checkedAdd 5)
    "Bitcoin sixth-confirmation height overflow"
  reject (best.tipHeight < sixthHeight)
    "current authenticated Bitcoin best tip has fewer than six confirmations"
  checkProofHeaders s containingHeight proofHeaders
  ((proofHeaders.take requiredConfirmations).zipIdx).forM fun (proofHeader, i) =>
    reject (hashAt bestByHeight (containingHeight + UInt32.ofNat i) ≠
      some proofHeader.hashInternal)
      "Bitcoin purchase confirmation is not on the current authenticated best chain"
  let earliestMtpHeight ← okOr (containingHeight.checkedSub 10)
    "Bitcoin containing height is too low for MTP-11"
  reject (earliestMtpHeight < packJContextStartHeight)
    "Bitcoin containing block predates the authenticated Pack-J MTP context"
  let timestamps ← (List.range 11).mapM fun i => do
    let height := earliestMtpHeight + UInt32.ofNat i
    if height ≤ packJAnchorHeight then
      okOr (packJContextTimestamp height)
        "Bitcoin MTP-11 requires unavailable pre-anchor Pack-J context"
    else
      let header ← authenticatedBestHeaderAtHeight s bestByHeight height
      .ok header.timestamp
  match proofHeaders.head?, proofHeaders[requiredConfirmations - 1]? with
  | some containing, some sixth =>
    .ok { containingHeader := containing
          sixthHeader := sixth
          paymentMtp := medianTimestamp11 timestamps }
  | _, _ => .error "Bitcoin SPV proof has fewer than six confirmations"

end Headers

end BitcoinHeaders

end Mutiny
