import Mutiny.State
import Mutiny.Bitcoin

/-!
# Protocol operations

The operations a block carries beside its transactions, with their canonical
payloads, identifiers and signing digests.
-/

namespace Mutiny

open Result Reader

namespace Domains

def protocolOpId : Bytes := Bytes.ascii "MUTINY-PROTOCOL-OP-ID-V1"
def protocolOpSign : Bytes := Bytes.ascii "MUTINY-PROTOCOL-OP-SIGN-V1"
def protocolOpLeaf : Bytes := Bytes.ascii "MUTINY-PROTOCOL-OP-LEAF-V1"
def protocolOpNode : Bytes := Bytes.ascii "MUTINY-PROTOCOL-OP-NODE-V1"
def protocolOpsEmpty : Bytes := Bytes.ascii "MUTINY-PROTOCOL-OPS-EMPTY-V1"
def mutLicenseManifest : Bytes := Bytes.ascii "MUTINY-MUT-LICENSE-MANIFEST-V1"
def btcManifest : Bytes := Bytes.ascii "MUTINY-BTC-MANIFEST-V1"
def btcPaymentId : Bytes := Bytes.ascii "MUTINY-BTC-PAYMENT-ID-V1"
def mutPaymentId : Bytes := Bytes.ascii "MUTINY-MUT-PAYMENT-ID-V1"
def licenseId : Bytes := Bytes.ascii "MUTINY-LICENSE-ID-V1"
def punishmentEvidenceId : Bytes := Bytes.ascii "MUTINY-PUNISHMENT-EVIDENCE-ID-V1"

end Domains

def opLicensePurchaseBtc : UInt16 := 0x0001
def opLicensePurchaseMut : UInt16 := 0x0002
def opLicenseTransfer : UInt16 := 0x0003
def opLicenseMiningKeyRotate : UInt16 := 0x0004
def opPunishmentEvidence : UInt16 := 0x0005
def opBootstrapCommitment : UInt16 := 0x0006
def opDividendClaim : UInt16 := 0x0007
def opMiningPresence : UInt16 := 0x0008
def opBitcoinHeaders : UInt16 := 0x0009

def mainnetNetworkId : UInt32 := 0x4D555401
def devnetNetworkId : UInt32 := 0x4D555403

def mainnetGenesisId : Bytes32 :=
  0x9def7a0cc83e92f6e1d8692e9c29bb3f11a8986b9cb590b89214774e2c7e5481#256

def devnetGenesisId : Bytes32 :=
  0x4c603df8839ce020b42a1268a54a1938657a1b7812d2df92c4803d63355e702c#256

def packKDevnetActivationEpoch : UInt64 := 1500
def miningPresenceWindowEpochs : UInt64 := 16
def miningPresenceFullLen : Nat := 144

/-- The epoch from which a network counts participation, if it ever does. -/
def packKActivationEpoch (networkId : UInt32) (genesisId : Bytes32) : Option UInt64 :=
  if networkId = mainnetNetworkId ∧ genesisId = mainnetGenesisId then some 11
  else if networkId = devnetNetworkId ∧ genesisId = devnetGenesisId then
    some packKDevnetActivationEpoch
  else none

/-- Whether presence counts. -/
def packKActive (networkId : UInt32) (genesisId : Bytes32) (epoch : UInt64) : Bool :=
  (packKActivationEpoch networkId genesisId).any fun activation => decide (activation ≤ epoch)

def offenseInvalidSignedWork : UInt16 := 0x0001
def offenseLicenseStateEquivocation : UInt16 := 0x0002
def offenseSameTicketEquivocation : UInt16 := 0x0003

def strikeDecayEpochs : UInt64 := 2097152
def revocationThreshold : UInt8 := 16
def activationDelayEpochs : UInt64 := 64
def dividendClaimWindow : UInt64 := 65536
def dividendAwardInterval : UInt64 := 131072

/-- Why an operation is refused. -/
inductive ProtocolError where
  | badVersion
  | invalidManifest
  | invalidSignature
  | staleOwnerSequence
  | staleMiningSequence
  | revoked
  | badOffenseWeight
  | dividendExpired
  | dividendOverdraw
  | treasuryUnderflow
  | overflow
  | miningPresenceInactive
  | miningPresenceNetwork
  | miningPresenceGenesis
  | miningPresenceEpoch
  | invalidMiningPresence
  | state (e : StateError)
deriving DecidableEq, Repr

def ProtocolError.message : ProtocolError → String
  | .badVersion => "invalid protocol operation version"
  | .invalidManifest => "invalid manifest"
  | .invalidSignature => "invalid authorization signature"
  | .staleOwnerSequence => "stale owner key sequence"
  | .staleMiningSequence => "stale mining key sequence"
  | .revoked => "license is permanently revoked"
  | .badOffenseWeight => "invalid offense weight"
  | .dividendExpired => "dividend claim is outside its claim window"
  | .dividendOverdraw => "dividend claim exceeds claimable balance"
  | .treasuryUnderflow => "treasury reserved-dividend accounting underflow"
  | .overflow => "arithmetic overflow"
  | .miningPresenceInactive =>
    "Pack K mining presence is not active for this network/genesis/epoch"
  | .miningPresenceNetwork => "mining presence NetworkID mismatch"
  | .miningPresenceGenesis => "mining presence GenesisID mismatch"
  | .miningPresenceEpoch => "mining presence epoch mismatch"
  | .invalidMiningPresence => "invalid mining presence payload"
  | .state e => e.message

/-- An operation as it is sent. -/
structure ProtocolOperationV1 where
  opType : UInt16
  opVersion : UInt16
  payload : Bytes
deriving DecidableEq, Repr

def ProtocolOperationV1.encode (op : ProtocolOperationV1) : Bytes :=
  Bytes.u16 op.opType ++ (Bytes.u16 op.opVersion ++ encodeVar op.payload)

/-- The keys of a bought licence. -/
structure LicenseManifestEntryV1 where
  ownerPublicKey : Bytes32
  miningPublicKey : Bytes32
deriving DecidableEq, Repr

def LicenseManifestEntryV1.encode (e : LicenseManifestEntryV1) : Bytes :=
  Bytes.b32 e.ownerPublicKey ++ Bytes.b32 e.miningPublicKey

/-- The licences a payment in coins buys. -/
structure MutLicenseManifestV1 where
  version : UInt16
  networkId : UInt32
  purchaseNonce : Bytes32
  licenses : List LicenseManifestEntryV1
deriving DecidableEq, Repr

namespace MutLicenseManifestV1

/-- One to 1024 licences. -/
def validate (m : MutLicenseManifestV1) : Except ProtocolError Unit :=
  reject (m.version ≠ 1 ∨ m.licenses = [] ∨ 1024 < m.licenses.length) .invalidManifest

def encode (m : MutLicenseManifestV1) : Except ProtocolError Bytes := do
  m.validate
  .ok (Bytes.u16 m.version ++ (Bytes.u32 m.networkId ++ (Bytes.b32 m.purchaseNonce ++
    (Bytes.u32 (UInt32.ofNat m.licenses.length) ++
      m.licenses.flatMap LicenseManifestEntryV1.encode))))

end MutLicenseManifestV1

/-- The licences a payment in bitcoin buys. -/
structure BtcLicenseManifestV1 where
  version : UInt16
  networkId : UInt32
  genesisHash : Bytes32
  purchaseNonce : Bytes32
  licenses : List LicenseManifestEntryV1
deriving DecidableEq, Repr

namespace BtcLicenseManifestV1

/-- One to 1024 licences. -/
def validate (m : BtcLicenseManifestV1) : Except ProtocolError Unit :=
  reject (m.version ≠ 1 ∨ m.licenses = [] ∨ 1024 < m.licenses.length) .invalidManifest

def encode (m : BtcLicenseManifestV1) : Except ProtocolError Bytes := do
  m.validate
  .ok (Bytes.u16 m.version ++ (Bytes.u32 m.networkId ++ (Bytes.b32 m.genesisHash ++
    (Bytes.b32 m.purchaseNonce ++ (Bytes.u32 (UInt32.ofNat m.licenses.length) ++
      m.licenses.flatMap LicenseManifestEntryV1.encode)))))

end BtcLicenseManifestV1

/-- A purchase with bitcoin. -/
structure LicensePurchaseBtcV1 where
  manifest : BtcLicenseManifestV1
  proof : BitcoinSpvProofV1
deriving DecidableEq, Repr

/-- A purchase with the native coin. -/
structure LicensePurchaseMutV1 where
  paymentTxid : Bytes32
  paymentOutputIndex : UInt16
  manifest : MutLicenseManifestV1
deriving DecidableEq, Repr

/-- A change of owner. -/
structure LicenseTransferV1 where
  licenseId : Bytes32
  expectedOwnerSequence : UInt32
  expectedMiningSequence : UInt32
  newOwnerPublicKey : Bytes32
  newMiningPublicKey : Bytes32
  ownerSignature : Bytes64
deriving DecidableEq, Repr

/-- A change of mining key. -/
structure MiningKeyRotateV1 where
  licenseId : Bytes32
  expectedOwnerSequence : UInt32
  expectedMiningSequence : UInt32
  newMiningPublicKey : Bytes32
  ownerSignature : Bytes64
deriving DecidableEq, Repr

/-- A miner is present. -/
structure MiningPresenceV1 where
  networkId : UInt32
  genesisId : Bytes32
  licenseId : Bytes32
  expectedMiningSequence : UInt32
  presenceEpoch : UInt64
  miningSignature : Bytes64
deriving DecidableEq, Repr

/-- An accusation. -/
structure PunishmentEvidenceV1 where
  offenseType : UInt16
  accusedLicenseId : Bytes32
  evidence : Bytes
deriving DecidableEq, Repr

/-- A claim of a dividend. -/
structure DividendClaimV1 where
  licenseId : Bytes32
  expectedOwnerSequence : UInt32
  amountStrikes : UInt64
  destinationAddressId : Bytes32
  paymentTxid : Bytes32
  ownerSignature : Bytes64
deriving DecidableEq, Repr

/-- Bitcoin headers. -/
structure BitcoinHeadersV1 where
  networkId : UInt32
  genesisId : Bytes32
  headers : List BitcoinHeader
deriving DecidableEq, Repr

/-! ## Payloads -/

namespace LicensePurchaseBtcV1

def payload (p : LicensePurchaseBtcV1) : Except ProtocolError Bytes := do
  let manifest ← p.manifest.encode
  .ok (encodeVar manifest ++ (encodeVar p.proof.rawTransaction ++
    (Bytes.u32 p.proof.paymentOutputIndex ++ (Bytes.u32 p.proof.manifestOutputIndex ++
      (Bytes.u32 p.proof.txIndex ++
        (encodeVaruint (UInt64.ofNat p.proof.merkleBranch.length) ++
          (p.proof.merkleBranch.flatMap Bytes.b32 ++
            (encodeVaruint (UInt64.ofNat p.proof.headers.length) ++
              ((p.proof.headers.flatMap fun header => Bytes.b80 header.raw) ++
                Bytes.u32 p.proof.containingBlockHeight)))))))))

def operation (p : LicensePurchaseBtcV1) : Except ProtocolError ProtocolOperationV1 := do
  let payload ← p.payload
  .ok { opType := opLicensePurchaseBtc, opVersion := 1, payload := payload }

end LicensePurchaseBtcV1

def LicensePurchaseMutV1.operation (p : LicensePurchaseMutV1) :
    Except ProtocolError ProtocolOperationV1 := do
  let manifest ← p.manifest.encode
  .ok { opType := opLicensePurchaseMut
        opVersion := 1
        payload := Bytes.b32 p.paymentTxid ++ (Bytes.u16 p.paymentOutputIndex ++
          encodeVar manifest) }

namespace LicenseTransferV1

def unsignedPayload (t : LicenseTransferV1) : Bytes :=
  Bytes.b32 t.licenseId ++ (Bytes.u32 t.expectedOwnerSequence ++
    (Bytes.u32 t.expectedMiningSequence ++
      (Bytes.b32 t.newOwnerPublicKey ++ Bytes.b32 t.newMiningPublicKey)))

def operation (t : LicenseTransferV1) : ProtocolOperationV1 where
  opType := opLicenseTransfer
  opVersion := 1
  payload := t.unsignedPayload ++ Bytes.b64 t.ownerSignature

end LicenseTransferV1

namespace MiningKeyRotateV1

def unsignedPayload (r : MiningKeyRotateV1) : Bytes :=
  Bytes.b32 r.licenseId ++ (Bytes.u32 r.expectedOwnerSequence ++
    (Bytes.u32 r.expectedMiningSequence ++ Bytes.b32 r.newMiningPublicKey))

def operation (r : MiningKeyRotateV1) : ProtocolOperationV1 where
  opType := opLicenseMiningKeyRotate
  opVersion := 1
  payload := r.unsignedPayload ++ Bytes.b64 r.ownerSignature

end MiningKeyRotateV1

namespace MiningPresenceV1

def unsignedPayload (p : MiningPresenceV1) : Bytes :=
  Bytes.u32 p.networkId ++ (Bytes.b32 p.genesisId ++ (Bytes.b32 p.licenseId ++
    (Bytes.u32 p.expectedMiningSequence ++ Bytes.u64 p.presenceEpoch)))

def operation (p : MiningPresenceV1) : ProtocolOperationV1 where
  opType := opMiningPresence
  opVersion := 1
  payload := p.unsignedPayload ++ Bytes.b64 p.miningSignature

def decodeOperation (op : ProtocolOperationV1) : Except ProtocolError MiningPresenceV1 := do
  reject (op.opType ≠ opMiningPresence ∨ op.opVersion ≠ 1 ∨
    op.payload.length ≠ miningPresenceFullLen) .invalidMiningPresence
  let (networkId, bytes) := Bytes.cut 4 op.payload
  let (genesisId, bytes) := Bytes.cut 32 bytes
  let (licenseId, bytes) := Bytes.cut 32 bytes
  let (expectedMiningSequence, bytes) := Bytes.cut 4 bytes
  let (presenceEpoch, miningSignature) := Bytes.cut 8 bytes
  .ok { networkId := Bytes.toU32 networkId
        genesisId := Bytes.toB32 genesisId
        licenseId := Bytes.toB32 licenseId
        expectedMiningSequence := Bytes.toU32 expectedMiningSequence
        presenceEpoch := Bytes.toU64 presenceEpoch
        miningSignature := Bytes.toB64 miningSignature }

end MiningPresenceV1

namespace PunishmentEvidenceV1

def canonicalEvidence (e : PunishmentEvidenceV1) : Bytes :=
  Bytes.u16 e.offenseType ++ (Bytes.b32 e.accusedLicenseId ++ encodeVar e.evidence)

def operation (e : PunishmentEvidenceV1) : ProtocolOperationV1 where
  opType := opPunishmentEvidence
  opVersion := 1
  payload := e.canonicalEvidence

end PunishmentEvidenceV1

namespace DividendClaimV1

def unsignedPayload (c : DividendClaimV1) : Bytes :=
  Bytes.b32 c.licenseId ++ (Bytes.u32 c.expectedOwnerSequence ++ (Bytes.u64 c.amountStrikes ++
    (Bytes.b32 c.destinationAddressId ++ Bytes.b32 c.paymentTxid)))

def operation (c : DividendClaimV1) : ProtocolOperationV1 where
  opType := opDividendClaim
  opVersion := 1
  payload := c.unsignedPayload ++ Bytes.b64 c.ownerSignature

end DividendClaimV1

end Mutiny
