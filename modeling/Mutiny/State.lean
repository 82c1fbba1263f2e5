import Mutiny.Transaction
import Mutiny.Lib.Merkle
import Mutiny.Lib.SortedMap

/-!
# Authenticated state

The canonical records of the consensus state, their bytes and leaf hashes, the
sparse trees over them and the state root.
-/

namespace Mutiny

open Result

namespace Domains

def stateRoot : Bytes := Bytes.ascii "MUTINY-STATE-ROOT-V1"
def metaRoot : Bytes := Bytes.ascii "MUTINY-META-ROOT-V1"
def utxoKey : Bytes := Bytes.ascii "MUTINY-UTXO-KEY-V1"
def utxoLeaf : Bytes := Bytes.ascii "MUTINY-UTXO-LEAF-V1"
def licenseLeaf : Bytes := Bytes.ascii "MUTINY-LICENSE-LEAF-V1"
def externalPaymentLeaf : Bytes := Bytes.ascii "MUTINY-EXTERNAL-PAYMENT-LEAF-V1"
def protocolStateKey : Bytes := Bytes.ascii "MUTINY-PROTOCOL-STATE-KEY-V1"
def protocolStateLeaf : Bytes := Bytes.ascii "MUTINY-PROTOCOL-STATE-LEAF-V1"
def smtEmptyLeaf : Bytes := Bytes.ascii "MUTINY-SMT-EMPTY-LEAF-V1"
def smtNode : Bytes := Bytes.ascii "MUTINY-SMT-NODE-V1"
def txNode : Bytes := Bytes.ascii "MUTINY-TX-NODE-V1"

end Domains

def licenseStatusPending : UInt8 := 0x00
def licenseStatusActive : UInt8 := 0x01
def licenseStatusRevoked : UInt8 := 0x02

def purchaseMethodBtc : UInt8 := 0x01
def purchaseMethodMut : UInt8 := 0x02

def psConsumedEvidence : UInt16 := 0x0001
def psOffenseEvent : UInt16 := 0x0002
def psHistoricalLicenseKey : UInt16 := 0x0003
def psDividendAccount : UInt16 := 0x0004
def psTreasuryState : UInt16 := 0x0005
def psConsumedNativePayment : UInt16 := 0x0006
def psDifficultyHistory : UInt16 := 0x0007
def psMiningPresenceState : UInt16 := 0x0008
def psBitcoinHeader : UInt16 := 0x0009
def psBitcoinBestChain : UInt16 := 0x000A

/-- Why a record or a proof is refused. -/
inductive StateError where
  | proofSiblingCount
  | redundantDefaultSibling
  | invalidLicenseRecord
  | invalidMiningPresenceState
  | overflow
deriving DecidableEq, Repr

def StateError.message : StateError → String
  | .proofSiblingCount => "compressed proof sibling count does not match bitmap"
  | .redundantDefaultSibling => "compressed proof redundantly encodes a default sibling"
  | .invalidLicenseRecord => "license record field is invalid"
  | .invalidMiningPresenceState => "mining presence state field is invalid"
  | .overflow => "arithmetic overflow"

/-! ## Records -/

/-- The leaf value of an output. -/
structure UtxoValueV1 where
  amountStrikes : UInt64
  outputType : UInt8
  payload : Bytes
  creationEpoch : UInt64
  creationHeight : UInt64
  coinbase : Bool
deriving DecidableEq, Repr

def UtxoValueV1.encode (v : UtxoValueV1) : Bytes :=
  Bytes.u64 v.amountStrikes ++ (v.outputType :: (encodeVar v.payload ++
    (Bytes.u64 v.creationEpoch ++ (Bytes.u64 v.creationHeight ++
      [if v.coinbase then 1 else 0]))))

/-- The length of the payload comes before it, and what follows it has a fixed length. -/
theorem UtxoValueV1.encode_inj {v w : UtxoValueV1} (h : v.encode = w.encode) : v = w := by
  simp only [encode, encodeVar, Bytes.be_append_inj, Bytes.u64_inj, List.cons.injEq,
    List.append_assoc] at h
  rcases h with ⟨hamount, htype, hrest⟩
  have hread := (reads_varuint _ _).symm.trans (hrest ▸ reads_varuint _ _)
  rw [Except.ok.injEq, Prod.mk.injEq] at hread
  have hpayload := List.append_inj' hread.2 (by simp [Bytes.u64])
  simp only [Bytes.be_append_inj, Bytes.u64_inj, List.cons.injEq, and_true] at hpayload
  rcases hpayload with ⟨hpayload, hepoch, hheight, hcoinbase⟩
  have hflag : v.coinbase = w.coinbase := by
    revert hcoinbase
    cases v.coinbase <;> cases w.coinbase <;> simp
  rcases v with ⟨_, _, _, _, _, _⟩
  rcases w with ⟨_, _, _, _, _, _⟩
  cases hamount
  cases htype
  cases hpayload
  cases hepoch
  cases hheight
  cases hflag
  rfl

/-- The leaf value of a licence. -/
structure LicenseRecordV1 where
  version : UInt16
  status : UInt8
  purchaseMethod : UInt8
  purchaseId : Bytes32
  ownerPublicKey : Bytes32
  ownerKeySequence : UInt32
  miningPublicKey : Bytes32
  miningKeySequence : UInt32
  issuedEpoch : UInt64
  activationEpoch : UInt64
  strikeWeight : UInt8
  suspendedUntilEpoch : UInt64
  revocationEpoch : UInt64
deriving DecidableEq, Repr

namespace LicenseRecordV1

/-- The fields of a record fit together. -/
def validate (r : LicenseRecordV1) : Except StateError Unit :=
  reject (r.version ≠ 1 ∨
    r.status ∉ [licenseStatusPending, licenseStatusActive, licenseStatusRevoked] ∨
    r.purchaseMethod ∉ [purchaseMethodBtc, purchaseMethodMut] ∨ 16 < r.strikeWeight)
    .invalidLicenseRecord

theorem validate_eq_ok {r : LicenseRecordV1} :
    r.validate = .ok () ↔ r.version = 1 ∧
      r.status ∈ [licenseStatusPending, licenseStatusActive, licenseStatusRevoked] ∧
      r.purchaseMethod ∈ [purchaseMethodBtc, purchaseMethodMut] ∧ r.strikeWeight ≤ 16 := by
  rw [validate, reject_eq_ok]
  simp only [not_or, not_not, UInt8.not_lt, ne_eq]

/-- The bytes of a record, without the check that precedes them. -/
def toBytes (r : LicenseRecordV1) : Bytes :=
  Bytes.u16 r.version ++ (r.status :: r.purchaseMethod :: (Bytes.b32 r.purchaseId ++
    (Bytes.b32 r.ownerPublicKey ++ (Bytes.u32 r.ownerKeySequence ++
      (Bytes.b32 r.miningPublicKey ++ (Bytes.u32 r.miningKeySequence ++
        (Bytes.u64 r.issuedEpoch ++ (Bytes.u64 r.activationEpoch ++ (r.strikeWeight ::
          (Bytes.u64 r.suspendedUntilEpoch ++ Bytes.u64 r.revocationEpoch))))))))))

theorem toBytes_inj {r q : LicenseRecordV1} (h : r.toBytes = q.toBytes) : r = q := by
  simp only [toBytes, Bytes.be_append_inj, List.cons.injEq, Bytes.u16_inj, Bytes.u32_inj,
    Bytes.u64_inj, Bytes.b32_inj] at h
  rcases r with ⟨_, _, _, _, _, _, _, _, _, _, _, _, _⟩
  rcases q with ⟨_, _, _, _, _, _, _, _, _, _, _, _, _⟩
  rcases h with ⟨rfl, rfl, rfl, rfl, rfl, rfl, rfl, rfl, rfl, rfl, rfl, rfl, rfl⟩
  rfl

def encode (r : LicenseRecordV1) : Except StateError Bytes := do
  r.validate
  .ok r.toBytes

end LicenseRecordV1

/-- When a licence last showed presence, and for which mining key. -/
structure MiningPresenceStateV1 where
  version : UInt16
  miningKeySequence : UInt32
  lastPresenceEpoch : UInt64
  lastPresenceOperationId : Bytes32
deriving DecidableEq, Repr

namespace MiningPresenceStateV1

/-- The fields in order, each of its fixed width. -/
def toBytes (p : MiningPresenceStateV1) : Bytes :=
  Bytes.u16 p.version ++ (Bytes.u32 p.miningKeySequence ++
    (Bytes.u64 p.lastPresenceEpoch ++ Bytes.b32 p.lastPresenceOperationId))

theorem toBytes_inj {p q : MiningPresenceStateV1} (h : p.toBytes = q.toBytes) : p = q := by
  simp only [toBytes, Bytes.be_append_inj, Bytes.u16_inj, Bytes.u32_inj, Bytes.u64_inj,
    Bytes.b32_inj] at h
  rcases p with ⟨_, _, _, _⟩
  rcases q with ⟨_, _, _, _⟩
  rcases h with ⟨rfl, rfl, rfl, rfl⟩
  rfl

/-- The bytes of a value of the one version there is. -/
def encode (p : MiningPresenceStateV1) : Except StateError Bytes := do
  reject (p.version ≠ 1) .invalidMiningPresenceState
  .ok p.toBytes

end MiningPresenceStateV1

/-- What the treasury has and owes. -/
structure TreasuryStateV1 where
  availableStrikes : UInt64
  reservedDividendStrikes : UInt64
deriving DecidableEq, Repr

def TreasuryStateV1.encode (t : TreasuryStateV1) : Bytes :=
  Bytes.u64 t.availableStrikes ++ Bytes.u64 t.reservedDividendStrikes

theorem TreasuryStateV1.encode_inj {t u : TreasuryStateV1} (h : t.encode = u.encode) : t = u := by
  simp only [encode, Bytes.be_append_inj, Bytes.u64_inj] at h
  rcases t with ⟨_, _⟩
  rcases u with ⟨_, _⟩
  rcases h with ⟨rfl, rfl⟩
  rfl

/-- A dividend a licence can claim. -/
structure LicenseDividendAccountV1 where
  licenseId : Bytes32
  awardEpoch : UInt64
  claimDeadlineEpoch : UInt64
  claimableStrikes : UInt64
deriving DecidableEq, Repr

def LicenseDividendAccountV1.encode (a : LicenseDividendAccountV1) : Bytes :=
  Bytes.b32 a.licenseId ++ (Bytes.u64 a.awardEpoch ++
    (Bytes.u64 a.claimDeadlineEpoch ++ Bytes.u64 a.claimableStrikes))

theorem LicenseDividendAccountV1.encode_inj {a b : LicenseDividendAccountV1}
    (h : a.encode = b.encode) : a = b := by
  simp only [LicenseDividendAccountV1.encode, Bytes.be_append_inj, Bytes.u64_inj, Bytes.b32_inj] at h
  rcases a with ⟨_, _, _, _⟩
  rcases b with ⟨_, _, _, _⟩
  rcases h with ⟨rfl, rfl, rfl, rfl⟩
  rfl

/-- The numbers a root says beside the trees. -/
structure ConsensusMetaV1 where
  blockHeight : UInt64
  eligibleLicenseCount : UInt64
  totalLicensesIssued : UInt64
  difficultyCorrectionQ32 : UInt64
  baseFeeRateQ32 : UInt64
  totalIssuedStrikes : UInt64
deriving DecidableEq, Repr

def ConsensusMetaV1.encode (m : ConsensusMetaV1) : Bytes :=
  Bytes.u64 m.blockHeight ++ (Bytes.u64 m.eligibleLicenseCount ++
    (Bytes.u64 m.totalLicensesIssued ++ (Bytes.u64 m.difficultyCorrectionQ32 ++
      (Bytes.u64 m.baseFeeRateQ32 ++ Bytes.u64 m.totalIssuedStrikes))))

theorem ConsensusMetaV1.encode_inj {m n : ConsensusMetaV1} (h : m.encode = n.encode) : m = n := by
  simp only [encode, Bytes.be_append_inj, Bytes.u64_inj] at h
  rcases m with ⟨_, _, _, _, _, _⟩
  rcases n with ⟨_, _, _, _, _, _⟩
  rcases h with ⟨rfl, rfl, rfl, rfl, rfl, rfl⟩
  rfl

/-! ## Leaves, trees and roots -/

section Hashes

variable [Crypto]

/-- An inner node. -/
def smtNode (left right : Bytes32) : Bytes32 :=
  sha256Domain Domains.smtNode [Bytes.b32 left, Bytes.b32 right]

def smtEmptyLeaf : Bytes32 := sha256Domain Domains.smtEmptyLeaf []

/-- The sparse tree over leaf hashes, given in the order of their 256-bit keys. -/
def sparseRoot (entries : List (Nat × Bytes32)) : Bytes32 :=
  Merkle.sparseRoot smtNode smtEmptyLeaf 256 entries

def utxoKey (txid : Bytes32) (outputIndex : UInt16) : Bytes32 :=
  sha256Domain Domains.utxoKey [Bytes.b32 txid, Bytes.u16 outputIndex]

def utxoLeaf (key : Bytes32) (value : UtxoValueV1) : Bytes32 :=
  sha256Domain Domains.utxoLeaf [Bytes.b32 key, value.encode]

def licenseLeaf (licenseId : Bytes32) (record : LicenseRecordV1) : Except StateError Bytes32 := do
  let encoded ← record.encode
  .ok (sha256Domain Domains.licenseLeaf [Bytes.b32 licenseId, encoded])

def externalPaymentLeaf (paymentId : Bytes32) (canonicalValue : Bytes) : Bytes32 :=
  sha256Domain Domains.externalPaymentLeaf [Bytes.b32 paymentId, canonicalValue]

def protocolStateKey (objectType : UInt16) (objectId : Bytes32) : Bytes32 :=
  sha256Domain Domains.protocolStateKey [Bytes.u16 objectType, Bytes.b32 objectId]

def protocolStateLeaf (key : Bytes32) (canonicalValue : Bytes) : Bytes32 :=
  sha256Domain Domains.protocolStateLeaf [Bytes.b32 key, canonicalValue]

def ConsensusMetaV1.root (m : ConsensusMetaV1) : Bytes32 :=
  sha256Domain Domains.metaRoot [m.encode]

def stateRoot (utxoRoot licenseRoot externalPaymentRoot protocolStateRoot metaRoot : Bytes32) :
    Bytes32 :=
  sha256Domain Domains.stateRoot
    [Bytes.b32 utxoRoot, Bytes.b32 licenseRoot, Bytes.b32 externalPaymentRoot,
      Bytes.b32 protocolStateRoot, Bytes.b32 metaRoot]

/-- The root over the transaction leaves of a block. -/
def merkleRoot (leaves : List Bytes32) : Option Bytes32 :=
  Merkle.root (fun l r => sha256Domain Domains.txNode [Bytes.b32 l, Bytes.b32 r]) leaves

end Hashes

/-- The fee a transaction of a given weight must pay at a base fee rate. -/
def requiredBaseFee (rateQ32 : UInt64) (txWeight : Nat) : Except TxError UInt64 := do
  let product := rateQ32.toNat * txWeight
  reject (2 ^ 128 ≤ product + (2 ^ 32 - 1)) .overflow
  let fee := (product + (2 ^ 32 - 1)) / 2 ^ 32
  reject (2 ^ 64 ≤ fee) .overflow
  .ok (UInt64.ofNat fee)

end Mutiny
