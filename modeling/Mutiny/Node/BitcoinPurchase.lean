import Mutiny.Node.BitcoinHeaders

/-!
# Licences bought with bitcoin

The price of a licence in satoshis, the validation of a payment against the
authenticated best chain, and the licences an accepted purchase issues.
-/

namespace Mutiny

open Result Lists

namespace BitcoinPurchase

def decodePurchaseOperation (op : ProtocolOperationV1) : Except String LicensePurchaseBtcV1 := do
  reject (op.opType ≠ opLicensePurchaseBtc ∨ op.opVersion ≠ 1)
    "operation is not a V1 Bitcoin Mining License purchase"
  (LicensePurchaseBtcV1.decodePayload op.payload).mapError ProtocolError.message

def btcSunsetEpoch : UInt64 := 2097152

/-- The epoch a payment falls into. -/
def paymentEpochFromMtp (s : DevnetState) (paymentMtp : UInt32) : Except String UInt64 := do
  let genesisSeconds ← okOr (UInt64.tryFrom (s.genesisTimeMs / 1000))
    "Mutiny Genesis time does not fit u64 seconds"
  reject (paymentMtp.toNat < genesisSeconds.toNat)
    "Bitcoin PaymentMTP predates Mutiny Genesis time"
  .ok (UInt64.ofNat ((paymentMtp.toNat - genesisSeconds.toNat) / 60))

/-- Licences issued before an epoch. -/
def historicalLicenseCount (s : DevnetState) (paymentEpoch : UInt64) : UInt64 :=
  UInt64.ofNat (s.licenses.countP fun l => decide (l.issuedEpoch < paymentEpoch))

/-- The price doubles every 2^18 licences. -/
def btcPriceSatsPerLicense (historicalLicenseCount : UInt64) : Except String UInt64 := do
  let exponent := 11 + historicalLicenseCount.toNat / 2 ^ 18
  reject (2 ^ 32 ≤ exponent) "Bitcoin Mining License price exponent overflow"
  reject (64 ≤ exponent) "Bitcoin Mining License price overflow"
  .ok (UInt64.ofNat (2 ^ exponent))

/-- The price of a number of licences. -/
def requiredSats (s : DevnetState) (paymentEpoch : UInt64) (count : Nat) :
    Except String UInt64 := do
  let priceEach ← btcPriceSatsPerLicense (historicalLicenseCount s paymentEpoch)
  let count ← okOr (UInt64.tryFrom count) "Bitcoin Mining License count overflow"
  okOr (priceEach.checkedMul count) "Bitcoin Mining License total price overflow"

/-- A purchase that passed all checks. -/
structure ValidatedPurchaseContext where
  purchase : LicensePurchaseBtcV1
  validated : ValidatedBitcoinPayment
  ids : List Bytes32

section Purchase

variable [Crypto]

/-- The payment of a proof whose headers are known. -/
def validatePaymentAgainstAuthenticatedWindow (proof : BitcoinSpvProofV1)
    (window : BitcoinHeaders.AuthenticatedPurchaseWindow) (expectedManifestHash : Bytes32)
    (treasuryScriptPubkey : Bytes) (requiredSats : UInt64) :
    Except String ValidatedBitcoinPayment := do
  let parsed ← (parseTransaction proof.rawTransaction).mapError BitcoinError.message
  let root := merkleRootFromBranch parsed.txidInternal proof.txIndex.toNat proof.merkleBranch
  reject (root ≠ window.containingHeader.merkleRootInternal)
    "Bitcoin Merkle proof does not match authenticated containing block"
  let payment ← okOr parsed.outputs[proof.paymentOutputIndex.toNat]?
    "Bitcoin payment output index is out of range"
  reject (payment.valueSats < requiredSats)
    "Bitcoin payment amount is below the required PaymentEpoch price"
  reject (payment.scriptPubkey ≠ treasuryScriptPubkey)
    "Bitcoin payment output script does not match Treasury script"
  let manifest ← okOr parsed.outputs[proof.manifestOutputIndex.toNat]?
    "Bitcoin manifest output index is out of range"
  reject (manifest.valueSats ≠ 0 ∨
    manifest.scriptPubkey ≠ canonicalManifestScript expectedManifestHash)
    "Bitcoin transaction does not contain the canonical manifest commitment"
  let sixthHeight ← okOr (proof.containingBlockHeight.checkedAdd 5)
    "Bitcoin sixth-confirmation height overflow"
  .ok { txidInternal := parsed.txidInternal
        containingBlockHashInternal := window.containingHeader.hashInternal
        containingBlockHeight := proof.containingBlockHeight
        sixthConfirmationHashInternal := window.sixthHeader.hashInternal
        sixthConfirmationHeight := sixthHeight
        sixthConfirmationTimestamp := window.sixthHeader.timestamp
        paymentOutputIndex := proof.paymentOutputIndex
        paidSats := payment.valueSats }

/-- The checks of a purchase. -/
def validatePurchaseContext (s : DevnetState) (op : ProtocolOperationV1) (blockEpoch : UInt64) :
    Except String ValidatedPurchaseContext := do
  let purchase ← decodePurchaseOperation op
  let policy ← okOr (BitcoinHeaders.resolveTuplePolicy s.networkId s.genesisHash)
    "ordinary BTC purchases are inactive for this Mutiny NetworkID/GenesisID tuple"
  reject (policy.ordinaryPurchaseActive = false)
    "ordinary BTC purchases are inactive for this Mutiny tuple"
  let treasuryScriptPubkey ← okOr policy.treasuryScriptPubkey
    "ordinary BTC purchase Treasury script is unassigned for this Mutiny tuple"
  reject (purchase.manifest.networkId ≠ s.networkId)
    "Bitcoin Mining License purchase manifest NetworkID mismatch"
  reject (purchase.manifest.genesisHash ≠ s.genesisHash)
    "Bitcoin Mining License purchase manifest GenesisID mismatch"
  let window ← BitcoinHeaders.validatePurchaseWindow s purchase.proof.headers
    purchase.proof.containingBlockHeight
  let paymentEpoch ← paymentEpochFromMtp s window.paymentMtp
  reject (blockEpoch < paymentEpoch)
    "Bitcoin PaymentEpoch is later than Mutiny consumption block epoch"
  reject (btcSunsetEpoch ≤ paymentEpoch)
    "Bitcoin payment is ineligible at or after BTC sunset epoch 2,097,152"
  reject (BitcoinHeaders.packMBtcDisableEpoch ≤ blockEpoch)
    "ordinary BTC purchase consumption is disabled beginning Mutiny epoch 2,101,248"
  let required ← requiredSats s paymentEpoch purchase.manifest.licenses.length
  let manifestHash ← purchase.manifest.manifestHash.mapError ProtocolError.message
  let validated ← validatePaymentAgainstAuthenticatedWindow purchase.proof window manifestHash
    treasuryScriptPubkey required
  let paymentId := bitcoinPaymentId validated.txidInternal validated.paymentOutputIndex
  reject (s.consumedBitcoinPayments.any fun p => p.paymentId == paymentId)
    "BitcoinPaymentID has already been consumed"
  let ids ← purchase.licenseIds.mapError ProtocolError.message
  reject (ids.length ≠ purchase.manifest.licenses.length)
    "Bitcoin Mining License derived ID count mismatch"
  reject (ids.any fun id => s.licenses.any fun l => l.licenseIdText == .encode id)
    "derived Bitcoin Mining LicenseID already exists"
  .ok { purchase := purchase, validated := validated, ids := ids }

/-- Whether a purchase may wait in the queue, which asks less than a block does. -/
def dependencyReady (s : DevnetState) (op : ProtocolOperationV1) : Except String Bool := do
  let purchase ← decodePurchaseOperation op
  if purchase.manifest.networkId ≠ s.networkId ∨ purchase.manifest.genesisHash ≠ s.genesisHash then
    .ok false
  else
    match BitcoinHeaders.resolveTuplePolicy s.networkId s.genesisHash with
    | none => .ok false
    | some policy =>
      if policy.ordinaryPurchaseActive = false ∨ policy.treasuryScriptPubkey = none then
        .ok false
      else
        let parsed ←
          (parseTransaction purchase.proof.rawTransaction).mapError BitcoinError.message
        let paymentId := bitcoinPaymentId parsed.txidInternal purchase.proof.paymentOutputIndex
        if s.consumedBitcoinPayments.any fun p => p.paymentId == paymentId then .ok false
        else
          let ids ← purchase.licenseIds.mapError ProtocolError.message
          .ok (ids.all fun id => !s.licenses.any fun l => l.licenseIdText == .encode id)

/-- Whether a purchase can be in a block. -/
def dependencyReadyAtEpoch (s : DevnetState) (op : ProtocolOperationV1) (blockEpoch : UInt64) :
    Except String Bool := do
  let purchase ← decodePurchaseOperation op
  if purchase.manifest.networkId ≠ s.networkId ∨ purchase.manifest.genesisHash ≠ s.genesisHash then
    .ok false
  else .ok (validatePurchaseContext s op blockEpoch).toBool

/-- The licence an entry of a manifest issues at an epoch. -/
def issuedLicense (index : UInt32) (licenseId purchaseId : Bytes32) (purchaseMethod : UInt8)
    (entry : LicenseManifestEntryV1) (blockEpoch activationEpoch : UInt64) : LicenseState where
  index := index
  licenseIdText := .encode licenseId
  purchaseId := purchaseId
  ownerPublicKey := entry.ownerPublicKey
  miningPublicKey := entry.miningPublicKey
  paymentAddressId := addressId entry.ownerPublicKey
  status := licenseStatusPending
  purchaseMethod := purchaseMethod
  ownerKeySequence := 0
  miningKeySequence := 0
  issuedEpoch := blockEpoch
  activationEpoch := activationEpoch
  strikeWeight := 0
  suspendedUntilEpoch := 0
  revocationEpoch := 0

/-- Register the licences of a manifest one after the other. -/
def issueLicenses (purchaseId : Bytes32) (purchaseMethod : UInt8) (blockEpoch : UInt64)
    (licenses : List LicenseState) (entries : List (Bytes32 × LicenseManifestEntryV1)) :
    Except String (List LicenseState) :=
  entries.foldlM (fun licenses (id, entry) => do
    reject (2 ^ 32 ≤ licenses.length) "license registry index overflow"
    let activationEpoch ← okOr (blockEpoch.checkedAdd activationDelayEpochs)
      "activation epoch overflow"
    .ok (licenses ++ [issuedLicense (UInt32.ofNat licenses.length) id purchaseId purchaseMethod
      entry blockEpoch activationEpoch])) licenses

/-- The payment is recorded, the licences issued. -/
def applyOperation (s : DevnetState) (op : ProtocolOperationV1) (blockEpoch : UInt64) :
    Except String DevnetState := do
  let context ← validatePurchaseContext s op blockEpoch
  let paymentId :=
    bitcoinPaymentId context.validated.txidInternal context.validated.paymentOutputIndex
  let licenses ← issueLicenses paymentId purchaseMethodBtc blockEpoch s.licenses
    (context.ids.zip context.purchase.manifest.licenses)
  let payment : BitcoinPaymentState :=
    { paymentId := paymentId
      txidInternal := context.validated.txidInternal
      paymentOutputIndex := context.validated.paymentOutputIndex
      paidSats := context.validated.paidSats
      containingBlockHashInternal := context.validated.containingBlockHashInternal
      containingBlockHeight := context.validated.containingBlockHeight
      sixthConfirmationHashInternal := context.validated.sixthConfirmationHashInternal
      sixthConfirmationHeight := context.validated.sixthConfirmationHeight
      sixthConfirmationTimestamp := context.validated.sixthConfirmationTimestamp }
  .ok { s with
    licenses := licenses
    consumedBitcoinPayments :=
      sortByKey BitcoinPaymentState.paymentId (s.consumedBitcoinPayments ++ [payment]) }

/-- One stored payment; {lit}`ids` are the payments before it. -/
def checkPayment (ids : List Bytes32) (payment : BitcoinPaymentState) :
    Except String (List Bytes32) := do
  reject (bitcoinPaymentId payment.txidInternal payment.paymentOutputIndex ≠ payment.paymentId)
    "stored BitcoinPaymentID does not match Bitcoin txid/output index"
  reject (payment.paidSats = 0) "stored Bitcoin payment amount must be nonzero"
  let minimumSixth ← okOr (payment.containingBlockHeight.checkedAdd 5)
    "stored Bitcoin payment height overflow"
  reject (payment.sixthConfirmationHeight < minimumSixth)
    "stored Bitcoin payment has fewer than six confirmations"
  reject (payment.paymentId ∈ ids) "duplicate consumed BitcoinPaymentID"
  .ok (payment.paymentId :: ids)

/-- The recorded payments are sound. -/
def checkState (s : DevnetState) : Except String Unit := do
  let _ ← s.consumedBitcoinPayments.foldlM checkPayment []
  .ok ()

end Purchase

end BitcoinPurchase

end Mutiny
