import Mutiny.Crypto
import Mutiny.Lib.Reader
import Mutiny.Lib.Checked
import Mathlib.Data.List.Sort

/-!
# Bitcoin headers, targets and payments

The part of Bitcoin the node checks: raw headers and their proof of work, compact
targets and retargeting, transactions without their witness, Merkle branches, and
the payment that buys a licence.
-/

namespace Mutiny

open Result Reader

def requiredConfirmations : Nat := 6

def anchorContextHeaders : Nat := 11

/-- Why a header, a transaction or a payment is refused. -/
inductive BitcoinError where
  | truncated
  | badCompactSize
  | badTransaction
  | paymentOutputMissing
  | manifestOutputMissing
  | wrongTreasuryScript
  | underpayment
  | badManifestCommitment
  | badMerkleProof
  | insufficientConfirmations
  | nonContiguousHeaders
  | badCompactTarget
  | badProofOfWork
  | untrustedHeaderAnchor
  | unexpectedDifficulty
  | badAnchorContextLength
  | anchorNotRetargetBoundary
  | medianTimePastViolation
  | arithmeticOverflow
  | fixtureMiningExhausted
deriving DecidableEq, Repr

def BitcoinError.message : BitcoinError → String
  | .truncated => "truncated Bitcoin encoding"
  | .badCompactSize => "non-canonical or unsupported CompactSize"
  | .badTransaction => "malformed Bitcoin transaction"
  | .paymentOutputMissing => "Bitcoin payment output index is out of range"
  | .manifestOutputMissing => "Bitcoin manifest output index is out of range"
  | .wrongTreasuryScript => "Bitcoin payment output script does not match Treasury script"
  | .underpayment => "Bitcoin payment amount is below the required price"
  | .badManifestCommitment =>
    "Bitcoin transaction does not contain the canonical manifest commitment"
  | .badMerkleProof => "Bitcoin Merkle proof does not match the containing block"
  | .insufficientConfirmations => "Bitcoin SPV proof has fewer than six confirmations"
  | .nonContiguousHeaders => "Bitcoin headers are not contiguous"
  | .badCompactTarget => "Bitcoin compact target is invalid"
  | .badProofOfWork => "Bitcoin header fails proof of work"
  | .untrustedHeaderAnchor =>
    "Bitcoin header chain does not connect to the authenticated checkpoint"
  | .unexpectedDifficulty =>
    "Bitcoin header difficulty does not match the active checkpoint policy"
  | .badAnchorContextLength => "Bitcoin anchor context must contain exactly eleven headers"
  | .anchorNotRetargetBoundary => "Bitcoin anchor height is not a 2016-block retarget boundary"
  | .medianTimePastViolation =>
    "Bitcoin header timestamp is not greater than Median-Time-Past-11"
  | .arithmeticOverflow => "Bitcoin arithmetic overflow"
  | .fixtureMiningExhausted => "Bitcoin fixture nonce search exhausted"

/-- An output as it is parsed. -/
structure BitcoinTxOutput where
  valueSats : UInt64
  scriptPubkey : Bytes
deriving DecidableEq, Repr

/-- What is kept of a parsed transaction. -/
structure ParsedBitcoinTransaction where
  txidInternal : Bytes32
  outputs : List BitcoinTxOutput
deriving DecidableEq, Repr

/-- The 80 raw bytes of a header. -/
structure BitcoinHeader where
  raw : Bytes80
deriving DecidableEq, Repr

/-- A payment and the proof of its inclusion in a block. -/
structure BitcoinSpvProofV1 where
  rawTransaction : Bytes
  paymentOutputIndex : UInt32
  manifestOutputIndex : UInt32
  txIndex : UInt32
  merkleBranch : List Bytes32
  headers : List BitcoinHeader
  containingBlockHeight : UInt32
deriving DecidableEq, Repr

/-- A payment that passed all checks. -/
structure ValidatedBitcoinPayment where
  txidInternal : Bytes32
  containingBlockHashInternal : Bytes32
  containingBlockHeight : UInt32
  sixthConfirmationHashInternal : Bytes32
  sixthConfirmationHeight : UInt32
  sixthConfirmationTimestamp : UInt32
  paymentOutputIndex : UInt32
  paidSats : UInt64
deriving DecidableEq, Repr

namespace BitcoinHeader

/-- A range of the raw bytes. -/
def slice (h : BitcoinHeader) (start len : Nat) : Bytes := ((Bytes.b80 h.raw).drop start).take len

def previousBlockInternal (h : BitcoinHeader) : Bytes32 := Bytes.toB32 (h.slice 4 32)

def merkleRootInternal (h : BitcoinHeader) : Bytes32 := Bytes.toB32 (h.slice 36 32)

/-- The time of a header. -/
def timestamp (h : BitcoinHeader) : UInt32 := UInt32.ofNat (Bytes.leNat (h.slice 68 4))

/-- The compact target of a header. -/
def bits (h : BitcoinHeader) : UInt32 := UInt32.ofNat (Bytes.leNat (h.slice 72 4))

end BitcoinHeader

/-! ## Compact targets -/

/-- The target that compact bits denote. -/
def compactTargetBe (bits : UInt32) : Except BitcoinError Bytes32 := do
  let exponent := bits.toNat / 2 ^ 24
  let mantissa := bits.toNat % 2 ^ 23
  reject (mantissa = 0 ∨ bits.toNat / 2 ^ 23 % 2 = 1 ∨ exponent = 0 ∨ 32 < exponent)
    .badCompactTarget
  if exponent ≤ 3 then .ok (BitVec.ofNat 256 (mantissa / 2 ^ (8 * (3 - exponent))))
  else .ok (BitVec.ofNat 256 (mantissa * 2 ^ (8 * (exponent - 3))))

/-- The number of bytes of a number without leading zeros. -/
def byteLength (n : Nat) : Nat := (Nat.log2 n) / 8 + 1

/-- The compact bits of a number. -/
def compactBitsFromNat (target : Nat) : Except BitcoinError UInt32 := do
  reject (target = 0) .badCompactTarget
  let size := byteLength target
  let mantissa :=
    if size ≤ 3 then target * 2 ^ (8 * (3 - size)) else target / 2 ^ (8 * (size - 3))
  let (mantissa, size) := if 2 ^ 23 ≤ mantissa then (mantissa / 256, size + 1) else (mantissa, size)
  reject (255 < size) .arithmeticOverflow
  .ok (UInt32.ofNat (size * 2 ^ 24 + mantissa % 2 ^ 23))

/-- The compact bits of a target. -/
def compactBitsFromTargetBe (target : Bytes32) : Except BitcoinError UInt32 :=
  compactBitsFromNat target.toNat

/-- The target of bits that are the compact form of it. -/
def canonicalCompactTargetBe (bits : UInt32) : Except BitcoinError Bytes32 := do
  let target ← compactTargetBe bits
  let canonical ← compactBitsFromTargetBe target
  reject (canonical ≠ bits) .badCompactTarget
  .ok target

def bitcoinMainnetPowLimitBits : UInt32 := 0x1d00ffff
def bitcoinMainnetRetargetInterval : UInt32 := 2016
def bitcoinMainnetTargetTimespanSeconds : Nat := 1209600

/-- The target of bits that are canonical and not too easy. -/
def validateMainnetTargetBits (bits : UInt32) : Except BitcoinError Bytes32 := do
  let target ← canonicalCompactTargetBe bits
  let powLimit ← compactTargetBe bitcoinMainnetPowLimitBits
  reject (powLimit < target) .badCompactTarget
  .ok target

/-- A 256-bit number, if it fits. -/
def natToBe32 (value : Nat) : Except BitcoinError Bytes32 := do
  reject (2 ^ 256 ≤ value) .arithmeticOverflow
  .ok (BitVec.ofNat 256 value)

/-- The expected number of hashes for a target. -/
def bitcoinHeaderWorkBe (bits : UInt32) : Except BitcoinError Bytes32 := do
  let target ← canonicalCompactTargetBe bits
  natToBe32 (2 ^ 256 / (target.toNat + 1))

/-- The work of a chain with one more header. -/
def addChainworkBe (parentRelativeChainwork headerWork : Bytes32) : Except BitcoinError Bytes32 :=
  natToBe32 (parentRelativeChainwork.toNat + headerWork.toNat)

/-- The bits after a period, within a factor of four. -/
def bitcoinMainnetRetargetBits (oldBits firstPeriodTimestamp lastPeriodTimestamp : UInt32) :
    Except BitcoinError UInt32 := do
  let oldTarget ← validateMainnetTargetBits oldBits
  let powLimit ← compactTargetBe bitcoinMainnetPowLimitBits
  -- the elapsed time is clamped, so a clock that ran backwards counts as the minimum
  let elapsed := min (bitcoinMainnetTargetTimespanSeconds * 4)
    (max (bitcoinMainnetTargetTimespanSeconds / 4)
      (lastPeriodTimestamp.toNat - firstPeriodTimestamp.toNat))
  let target := oldTarget.toNat * elapsed / bitcoinMainnetTargetTimespanSeconds
  compactBitsFromNat (min target powLimit.toNat)

/-- The bits the rules ask of the next header. -/
def expectedMainnetBits (nextHeight parentBits firstPeriodTimestamp parentTimestamp : UInt32) :
    Except BitcoinError UInt32 := do
  let _ ← validateMainnetTargetBits parentBits
  if nextHeight % bitcoinMainnetRetargetInterval ≠ 0 then .ok parentBits
  else bitcoinMainnetRetargetBits parentBits firstPeriodTimestamp parentTimestamp

/-- The median of eleven timestamps. -/
def medianTimestamp11 (timestamps : List UInt32) : UInt32 :=
  (timestamps.insertionSort (· ≤ ·)).getD (anchorContextHeaders / 2) 0

/-- A header is later than the median of eleven. -/
def validateMainnetMtp (candidateTimestamp : UInt32) (previousTimestamps : List UInt32) :
    Except BitcoinError Unit :=
  reject (candidateTimestamp ≤ medianTimestamp11 previousTimestamps) .medianTimePastViolation

/-! ## Hashes and proof of work -/

section Hashes

variable [Crypto]

def doubleSha256 (bytes : Bytes) : Bytes32 :=
  Crypto.sha256 (Bytes.b32 (Crypto.sha256 bytes))

def BitcoinHeader.hashInternal (h : BitcoinHeader) : Bytes32 := doubleSha256 (Bytes.b80 h.raw)

/-- The proof of work meets the bits of the header. -/
def headerMeetsPow (h : BitcoinHeader) : Except BitcoinError Bool := do
  let target ← compactTargetBe h.bits
  .ok (decide (Bytes.reverse32 h.hashInternal ≤ target))

def headerMeetsMainnetPow (h : BitcoinHeader) : Except BitcoinError Bool := do
  let target ← validateMainnetTargetBits h.bits
  .ok (decide (Bytes.reverse32 h.hashInternal ≤ target))

/-- The rules of the Mainnet; the result is the work. -/
def validateMainnetHeaderRules (h : BitcoinHeader)
    (nextHeight parentBits firstPeriodTimestamp parentTimestamp : UInt32)
    (previousTimestamps : List UInt32) : Except BitcoinError Bytes32 := do
  let expectedBits ← expectedMainnetBits nextHeight parentBits firstPeriodTimestamp parentTimestamp
  reject (h.bits ≠ expectedBits) .unexpectedDifficulty
  validateMainnetMtp h.timestamp previousTimestamps
  let meets ← headerMeetsMainnetPow h
  reject (meets = false) .badProofOfWork
  bitcoinHeaderWorkBe h.bits

/-- Each header names the one before it. -/
def contiguousHeaders : List BitcoinHeader → Bool
  | a :: b :: rest => b.previousBlockInternal == a.hashInternal && contiguousHeaders (b :: rest)
  | _ => true

/-- The headers of a proof: linked, each with its work. -/
def validateHeaderChain (headers : List BitcoinHeader) : Except BitcoinError Unit := do
  reject (headers.length < requiredConfirmations) .insufficientConfirmations
  headers.forM fun h => do
    let meets ← headerMeetsPow h
    reject (meets = false) .badProofOfWork
  reject (contiguousHeaders headers = false) .nonContiguousHeaders

/-- The root a branch leads to. -/
def merkleRootFromBranch : Bytes32 → Nat → List Bytes32 → Bytes32
  | leaf, _, [] => leaf
  | leaf, index, sibling :: branch =>
    let pair := if index % 2 = 0 then Bytes.b32 leaf ++ Bytes.b32 sibling
      else Bytes.b32 sibling ++ Bytes.b32 leaf
    merkleRootFromBranch (doubleSha256 pair) (index / 2) branch

/-- Eleven linked headers up to the anchor. -/
def validateAnchorContext (headers : List BitcoinHeader) (trustedPreviousBlockInternal : Bytes32)
    (expectedBits anchorHeight : UInt32) : Except BitcoinError Unit := do
  reject (headers.length ≠ anchorContextHeaders) .badAnchorContextLength
  reject (anchorHeight % 2016 ≠ 0) .anchorNotRetargetBoundary
  reject (headers.head?.map (·.previousBlockInternal) ≠ some trustedPreviousBlockInternal)
    .untrustedHeaderAnchor
  reject (headers.any fun h => h.bits ≠ expectedBits) .unexpectedDifficulty
  validateHeaderChain headers

/-- The header a fixture mines: the first nonce from a start on that meets the
target. -/
def mineEasyHeaderLoop (fields : Bytes) : Nat → UInt32 → Except BitcoinError BitcoinHeader
  | 0, _ => .error .fixtureMiningExhausted
  | fuel + 1, nonce => do
    let header : BitcoinHeader := { raw := Bytes.toB80 (fields ++ Bytes.le32 nonce) }
    let meets ← headerMeetsPow header
    if meets then .ok header else mineEasyHeaderLoop fields fuel (nonce + 1)

/-- The first header with enough work from a nonce on. -/
def mineEasyHeader (previousBlockInternal merkleRootInternal : Bytes32)
    (timestamp bits nonceStart : UInt32) : Except BitcoinError BitcoinHeader :=
  mineEasyHeaderLoop (Bytes.le32 1 ++ (Bytes.b32 previousBlockInternal ++
    (Bytes.b32 merkleRootInternal ++ (Bytes.le32 timestamp ++ Bytes.le32 bits))))
    (2 ^ 32 - nonceStart.toNat) nonceStart

theorem mineEasyHeaderLoop_raw {fields : Bytes} {fuel : Nat} {nonce : UInt32} {header : BitcoinHeader}
    (h : mineEasyHeaderLoop fields fuel nonce = .ok header) :
    ∃ n, header.raw = Bytes.toB80 (fields ++ Bytes.le32 n) := by
  induction fuel generalizing nonce with
  | zero => cases h
  | succ fuel ih =>
    simp only [mineEasyHeaderLoop, bind_eq_ok] at h
    rcases h with ⟨meets, -, h⟩
    split at h
    · cases h
      exact ⟨nonce, rfl⟩
    · exact ih h

/-- A mined header carries the time it was mined for. -/
theorem timestamp_mineEasyHeader {prev root : Bytes32} {timestamp bits nonce : UInt32}
    {header : BitcoinHeader} (h : mineEasyHeader prev root timestamp bits nonce = .ok header) :
    header.timestamp = timestamp := by
  rcases mineEasyHeaderLoop_raw h with ⟨n, hraw⟩
  have hslice : header.slice 68 4 = Bytes.le32 timestamp := by
    have hsplit : (Bytes.le32 1 ++ (Bytes.b32 prev ++ (Bytes.b32 root ++
        (Bytes.le32 timestamp ++ Bytes.le32 bits)))) ++ Bytes.le32 n =
        (Bytes.le32 1 ++ (Bytes.b32 prev ++ Bytes.b32 root)) ++
          (Bytes.le32 timestamp ++ (Bytes.le32 bits ++ Bytes.le32 n)) := by
      simp only [List.append_assoc]
    rw [BitcoinHeader.slice, hraw, Bytes.b80_toB80 (by simp [Bytes.le32]), hsplit,
      List.drop_left' (by simp [Bytes.le32]), List.take_left' (by simp [Bytes.le32])]
  rw [BitcoinHeader.timestamp, hslice, Bytes.leNat_le32, UInt32.ofNat_toNat]

end Hashes

/-- The median time of eleven headers. -/
def medianTimePast11 (headers : List BitcoinHeader) : Except BitcoinError UInt32 := do
  reject (headers.length ≠ anchorContextHeaders) .badAnchorContextLength
  .ok (medianTimestamp11 (headers.map (·.timestamp)))

/-! ## Transactions -/

/-- A length prefix: its value and its bytes. -/
def readCompactSize : Reader BitcoinError (UInt64 × Bytes) := do
  let first ← take .truncated 1
  let wide (n min : Nat) : Reader BitcoinError (UInt64 × Bytes) := do
    let raw ← take .truncated n
    rejectIf (Bytes.leNat raw < min) .badCompactSize
    pure (UInt64.ofNat (Bytes.leNat raw), first ++ raw)
  match first.headD 0 with
  | 0xfd => wide 2 0xfd
  | 0xfe => wide 4 0x10000
  | 0xff => wide 8 0x100000000
  | b => pure (UInt64.ofNat b.toNat, first)

/-- One input, as the bytes of the witness-stripped form. -/
def readTxIn : Reader BitcoinError Bytes := do
  let outpoint ← take .truncated 36
  let (scriptLen, scriptEnc) ← readCompactSize
  let script ← take .truncated scriptLen.toNat
  let sequence ← take .truncated 4
  pure (outpoint ++ (scriptEnc ++ (script ++ sequence)))

/-- One output, with its bytes. -/
def readTxOut : Reader BitcoinError (BitcoinTxOutput × Bytes) := do
  let value ← take .truncated 8
  let (scriptLen, scriptEnc) ← readCompactSize
  let script ← take .truncated scriptLen.toNat
  pure ({ valueSats := UInt64.ofNat (Bytes.leNat value), scriptPubkey := script },
    value ++ (scriptEnc ++ script))

/-- The witness of one input, which the identifier leaves out. -/
def readWitness : Reader BitcoinError Unit := do
  let (items, _) ← readCompactSize
  let _ ← replicateM (do
    let (len, _) ← readCompactSize
    take .truncated len.toNat) items.toNat
  pure ()

/-- Whether the marker and flag of a segregated-witness transaction come next. -/
def peekSegwit : Reader BitcoinError Bool := fun bs =>
  .ok (match bs with
    | 0x00 :: flag :: _ => flag != 0x00
    | _ => false, bs)

/-- The outputs and the witness-stripped bytes of a transaction. -/
def readTransaction (total : Nat) : Reader BitcoinError (List BitcoinTxOutput × Bytes) := do
  let version ← take .truncated 4
  let segwit ← peekSegwit
  if segwit then
    let _ ← take .truncated 2
  let (vinCount, vinEnc) ← readCompactSize
  rejectIf (vinCount = 0 ∨ total / 41 + 1 < vinCount.toNat) .badTransaction
  let inputs ← replicateM readTxIn vinCount.toNat
  let (voutCount, voutEnc) ← readCompactSize
  rejectIf (voutCount = 0 ∨ total / 9 + 1 < voutCount.toNat) .badTransaction
  let outputs ← replicateM readTxOut voutCount.toNat
  if segwit then
    let _ ← replicateM readWitness vinCount.toNat
  let lockTime ← take .truncated 4
  pure (outputs.map (·.1), version ++ (vinEnc ++ (inputs.flatten ++
    (voutEnc ++ ((outputs.map (·.2)).flatten ++ lockTime)))))

/-- The outputs and the identifier of a whole transaction. -/
def parseTransaction [Crypto] (bytes : Bytes) : Except BitcoinError ParsedBitcoinTransaction := do
  let ((outputs, stripped), rest) ← readTransaction bytes.length bytes
  reject (rest ≠ []) .badTransaction
  .ok { txidInternal := doubleSha256 stripped, outputs := outputs }

/-- The script that commits to a manifest: a direct push of its hash. -/
def canonicalManifestScript (manifestHash : Bytes32) : Bytes :=
  0x6a :: 0x20 :: Bytes.b32 manifestHash

/-- The checks of a payment proof. -/
def validatePayment [Crypto] (proof : BitcoinSpvProofV1) (expectedManifestHash : Bytes32)
    (treasuryScriptPubkey : Bytes) (requiredSats : UInt64) :
    Except BitcoinError ValidatedBitcoinPayment := do
  validateHeaderChain proof.headers
  let parsed ← parseTransaction proof.rawTransaction
  let root := merkleRootFromBranch parsed.txidInternal proof.txIndex.toNat proof.merkleBranch
  let containing ← okOr proof.headers.head? .insufficientConfirmations
  reject (root ≠ containing.merkleRootInternal) .badMerkleProof
  let payment ← okOr parsed.outputs[proof.paymentOutputIndex.toNat]? .paymentOutputMissing
  reject (payment.scriptPubkey ≠ treasuryScriptPubkey) .wrongTreasuryScript
  reject (payment.valueSats < requiredSats) .underpayment
  let manifest ← okOr parsed.outputs[proof.manifestOutputIndex.toNat]? .manifestOutputMissing
  reject (manifest.valueSats ≠ 0 ∨
    manifest.scriptPubkey ≠ canonicalManifestScript expectedManifestHash) .badManifestCommitment
  let sixth ← okOr proof.headers[requiredConfirmations - 1]? .insufficientConfirmations
  let sixthHeight ← okOr (proof.containingBlockHeight.checkedAdd 5) .arithmeticOverflow
  .ok { txidInternal := parsed.txidInternal
        containingBlockHashInternal := containing.hashInternal
        containingBlockHeight := proof.containingBlockHeight
        sixthConfirmationHashInternal := sixth.hashInternal
        sixthConfirmationHeight := sixthHeight
        sixthConfirmationTimestamp := sixth.timestamp
        paymentOutputIndex := proof.paymentOutputIndex
        paidSats := payment.valueSats }

end Mutiny
