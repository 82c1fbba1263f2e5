import Mutiny.Protocol.Operations

/-!
# Decoding protocol operations

Operations travel as canonical bytes and are decoded again wherever they are
used.  Every decoder checks the operation's type and version and the exact length
of what it reads.
-/

namespace Mutiny

open Result Reader

/-- The bytes of a field that must be 32 bytes long. -/
def decode32 (bytes : Bytes) : Except String Bytes32 := do
  reject (bytes.length ≠ 32) "expected 32-byte hex value"
  .ok (Bytes.toB32 bytes)

def decodeProtocolOperationBytes (bytes : Bytes) : Except String ProtocolOperationV1 := do
  reject (bytes.length < 5) "protocol operation is truncated"
  let (opType, bytes) := Bytes.cut 2 bytes
  let (opVersion, bytes) := Bytes.cut 2 bytes
  let (payloadLen, payload) ← (readVaruint bytes).mapError DecodeError.message
  reject (payload.length ≠ payloadLen.toNat) "protocol operation payload length mismatch"
  .ok { opType := Bytes.toU16 opType, opVersion := Bytes.toU16 opVersion, payload := payload }

variable {op : ProtocolOperationV1}

/-- An operation is read back from its bytes. -/
theorem decodeProtocolOperationBytes_encode (h : op.payload.length < 2 ^ 64) :
    decodeProtocolOperationBytes op.encode = .ok op := by
  have hlength : ¬op.encode.length < 5 := by
    have hpos := length_encodeVaruint_pos (UInt64.ofNat op.payload.length)
    have htype : (Bytes.u16 op.opType).length = 2 := Bytes.length_be _ _
    have hversion : (Bytes.u16 op.opVersion).length = 2 := Bytes.length_be _ _
    simp only [ProtocolOperationV1.encode, encodeVar, List.length_append]
    omega
  simp only [decodeProtocolOperationBytes, reject_of_not hlength, ok_bind]
  have htype : (Bytes.u16 op.opType).length = 2 := Bytes.length_be _ _
  have hversion : (Bytes.u16 op.opVersion).length = 2 := Bytes.length_be _ _
  simp only [ProtocolOperationV1.encode, encodeVar, Bytes.cut_append htype,
    Bytes.cut_append hversion, reads_varuint _ _]
  have hpayload : ¬op.payload.length ≠ (UInt64.ofNat op.payload.length).toNat := by
    rw [UInt64.toNat_ofNat_of_lt' h]
    simp
  simp only [Except.mapError, ok_bind, reject_of_not hpayload, Bytes.toU16_u16]

/-- Read {lit}`n` pairs of keys off a manifest. -/
def readManifestEntries : Nat → Bytes → List LicenseManifestEntryV1
  | 0, _ => []
  | n + 1, bytes =>
    let (ownerPublicKey, bytes) := Bytes.cut 32 bytes
    let (miningPublicKey, bytes) := Bytes.cut 32 bytes
    { ownerPublicKey := Bytes.toB32 ownerPublicKey
      miningPublicKey := Bytes.toB32 miningPublicKey } :: readManifestEntries n bytes

def decodeMutManifest (bytes : Bytes) : Except String MutLicenseManifestV1 := do
  reject (bytes.length < 42) "native license manifest is truncated"
  let total := bytes.length
  let (version, bytes) := Bytes.cut 2 bytes
  let (networkId, bytes) := Bytes.cut 4 bytes
  let (purchaseNonce, bytes) := Bytes.cut 32 bytes
  let (countBytes, bytes) := Bytes.cut 4 bytes
  let count := Bytes.beNat countBytes
  reject (count = 0 ∨ 1024 < count) "native license manifest count outside 1..=1024"
  reject (total ≠ 42 + count * 64) "native license manifest length mismatch"
  let manifest : MutLicenseManifestV1 :=
    { version := Bytes.toU16 version
      networkId := Bytes.toU32 networkId
      purchaseNonce := Bytes.toB32 purchaseNonce
      licenses := readManifestEntries count bytes }
  manifest.validate.mapError ProtocolError.message
  .ok manifest

def decodeNativePurchaseOperation (op : ProtocolOperationV1) :
    Except String LicensePurchaseMutV1 := do
  reject (op.opType ≠ opLicensePurchaseMut ∨ op.opVersion ≠ 1)
    "operation is not a V1 native Mining License purchase"
  reject (op.payload.length < 35) "native Mining License purchase payload is truncated"
  let (paymentTxid, bytes) := Bytes.cut 32 op.payload
  let (paymentOutputIndex, bytes) := Bytes.cut 2 bytes
  let (manifestLen, bytes) ← (readVaruint bytes).mapError DecodeError.message
  reject (bytes.length ≠ manifestLen.toNat)
    "native Mining License purchase manifest length mismatch"
  let manifest ← decodeMutManifest bytes
  .ok { paymentTxid := Bytes.toB32 paymentTxid
        paymentOutputIndex := Bytes.toU16 paymentOutputIndex
        manifest := manifest }

def decodeLicenseTransferOperation (op : ProtocolOperationV1) :
    Except String LicenseTransferV1 := do
  reject (op.opType ≠ opLicenseTransfer ∨ op.opVersion ≠ 1)
    "operation is not a V1 Mining License transfer"
  reject (op.payload.length ≠ 168) "Mining License transfer payload must be exactly 168 bytes"
  let (licenseId, bytes) := Bytes.cut 32 op.payload
  let (expectedOwnerSequence, bytes) := Bytes.cut 4 bytes
  let (expectedMiningSequence, bytes) := Bytes.cut 4 bytes
  let (newOwnerPublicKey, bytes) := Bytes.cut 32 bytes
  let (newMiningPublicKey, ownerSignature) := Bytes.cut 32 bytes
  .ok { licenseId := Bytes.toB32 licenseId
        expectedOwnerSequence := Bytes.toU32 expectedOwnerSequence
        expectedMiningSequence := Bytes.toU32 expectedMiningSequence
        newOwnerPublicKey := Bytes.toB32 newOwnerPublicKey
        newMiningPublicKey := Bytes.toB32 newMiningPublicKey
        ownerSignature := Bytes.toB64 ownerSignature }

def decodeMiningKeyRotationOperation (op : ProtocolOperationV1) :
    Except String MiningKeyRotateV1 := do
  reject (op.opType ≠ opLicenseMiningKeyRotate ∨ op.opVersion ≠ 1)
    "operation is not a V1 Mining License mining-key rotation"
  reject (op.payload.length ≠ 136)
    "Mining License mining-key rotation payload must be exactly 136 bytes"
  let (licenseId, bytes) := Bytes.cut 32 op.payload
  let (expectedOwnerSequence, bytes) := Bytes.cut 4 bytes
  let (expectedMiningSequence, bytes) := Bytes.cut 4 bytes
  let (newMiningPublicKey, ownerSignature) := Bytes.cut 32 bytes
  .ok { licenseId := Bytes.toB32 licenseId
        expectedOwnerSequence := Bytes.toU32 expectedOwnerSequence
        expectedMiningSequence := Bytes.toU32 expectedMiningSequence
        newMiningPublicKey := Bytes.toB32 newMiningPublicKey
        ownerSignature := Bytes.toB64 ownerSignature }

/-- Different operations have different encodings. -/
theorem ProtocolOperationV1.encode_inj {op' : ProtocolOperationV1} :
    op.encode = op'.encode ↔ op = op' := by
  refine ⟨fun h => ?_, congrArg encode⟩
  rw [encode, encode, Bytes.be_append_inj, Bytes.be_append_inj, Bytes.u16_inj,
    Bytes.u16_inj] at h
  rcases h with ⟨htype, hversion, hvar⟩
  have hread := reads_varuint (UInt64.ofNat op.payload.length) op.payload
  have hread' := reads_varuint (UInt64.ofNat op'.payload.length) op'.payload
  rw [encodeVar, encodeVar] at hvar
  rw [hvar, hread', Except.ok.injEq, Prod.mk.injEq] at hread
  cases op
  cases op'
  simp_all

/-- The transfer decoder accepts exactly the operations of transfers. -/
theorem decodeLicenseTransferOperation_eq_ok {t : LicenseTransferV1} :
    decodeLicenseTransferOperation op = .ok t ↔ op = t.operation := by
  constructor
  · intro h
    simp only [decodeLicenseTransferOperation, Bytes.cut, ok_rules, not_or, not_not] at h
    rcases h with ⟨_, ⟨htype, hversion⟩, _, hlength, rfl⟩
    rcases op with ⟨opType, opVersion, payload⟩
    dsimp only at htype hversion hlength
    subst htype hversion
    simp (disch := grind) only [LicenseTransferV1.operation, LicenseTransferV1.unsignedPayload,
      List.append_assoc, Bytes.b64_toB64, Bytes.b32_take, Bytes.u32_take]
  · rintro rfl
    simp [decodeLicenseTransferOperation, LicenseTransferV1.operation,
      LicenseTransferV1.unsignedPayload, Result.reject]

/-- The rotation decoder accepts exactly the operations of rotations. -/
theorem decodeMiningKeyRotationOperation_eq_ok {r : MiningKeyRotateV1} :
    decodeMiningKeyRotationOperation op = .ok r ↔ op = r.operation := by
  constructor
  · intro h
    simp only [decodeMiningKeyRotationOperation, Bytes.cut, ok_rules, not_or, not_not] at h
    rcases h with ⟨_, ⟨htype, hversion⟩, _, hlength, rfl⟩
    rcases op with ⟨opType, opVersion, payload⟩
    dsimp only at htype hversion hlength
    subst htype hversion
    simp (disch := grind) only [MiningKeyRotateV1.operation, MiningKeyRotateV1.unsignedPayload,
      List.append_assoc, Bytes.b64_toB64, Bytes.b32_take, Bytes.u32_take]
  · rintro rfl
    simp [decodeMiningKeyRotationOperation, MiningKeyRotateV1.operation,
      MiningKeyRotateV1.unsignedPayload, Result.reject]

/-- The licence whose keys an operation changes, if it changes any. -/
def authorityOperationLicenseId (op : ProtocolOperationV1) : Except String (Option Bytes32) :=
  if op.opType = opLicenseTransfer then
    (decodeLicenseTransferOperation op).map fun t => some t.licenseId
  else if op.opType = opLicenseMiningKeyRotate then
    (decodeMiningKeyRotationOperation op).map fun r => some r.licenseId
  else .ok none

/-! ## Bitcoin payloads -/

/-- A reader inside a purchase payload; every codec error reads as a bad manifest. -/
def im {α : Type} (r : Reader DecodeError α) : Reader ProtocolError α :=
  r.mapError fun _ => .invalidManifest

def BtcLicenseManifestV1.decode (bytes : Bytes) : Except ProtocolError BtcLicenseManifestV1 := do
  let (version, bytes) ← im readU16Be bytes
  let (networkId, bytes) ← im readU32Be bytes
  reject (bytes.length < 64) .invalidManifest
  let (genesisHash, bytes) := Bytes.cut 32 bytes
  let (purchaseNonce, bytes) := Bytes.cut 32 bytes
  let (count, bytes) ← im readU32Be bytes
  reject (count = 0 ∨ 1024 < count ∨ bytes.length ≠ count.toNat * 64) .invalidManifest
  let manifest : BtcLicenseManifestV1 :=
    { version := version
      networkId := networkId
      genesisHash := Bytes.toB32 genesisHash
      purchaseNonce := Bytes.toB32 purchaseNonce
      licenses := readManifestEntries count.toNat bytes }
  manifest.validate
  .ok manifest

/-- A field preceded by its length. -/
def readVar : Reader ProtocolError Bytes := do
  let len ← im readVaruint
  take .invalidManifest len.toNat

def LicensePurchaseBtcV1.readPayload : Reader ProtocolError LicensePurchaseBtcV1 := do
  let manifestBytes ← readVar
  let manifest ← (fun bs => (BtcLicenseManifestV1.decode manifestBytes).map fun m => (m, bs) :
    Reader ProtocolError BtcLicenseManifestV1)
  let rawTransaction ← readVar
  let paymentOutputIndex ← im readU32Be
  let manifestOutputIndex ← im readU32Be
  let txIndex ← im readU32Be
  let branchLen ← im readVaruint
  rejectIf (64 < branchLen) .invalidManifest
  let merkleBranch ← replicateM (take ProtocolError.invalidManifest 32) branchLen.toNat
  let headerLen ← im readVaruint
  rejectIf (64 < headerLen) .invalidManifest
  let headers ← replicateM (take ProtocolError.invalidManifest 80) headerLen.toNat
  let containingBlockHeight ← im readU32Be
  pure { manifest := manifest
         proof := { rawTransaction := rawTransaction
                    paymentOutputIndex := paymentOutputIndex
                    manifestOutputIndex := manifestOutputIndex
                    txIndex := txIndex
                    merkleBranch := merkleBranch.map Bytes.toB32
                    headers := headers.map fun raw => { raw := Bytes.toB80 raw }
                    containingBlockHeight := containingBlockHeight } }

/-- A purchase and nothing after it. -/
def LicensePurchaseBtcV1.decodePayload (bytes : Bytes) :
    Except ProtocolError LicensePurchaseBtcV1 := do
  let (purchase, rest) ← LicensePurchaseBtcV1.readPayload bytes
  reject (rest ≠ []) .invalidManifest
  .ok purchase

/-- The VarUInt reader of the header wire, which reports its errors as text. -/
def packMReadVaruint : Nat → Nat → Nat → Bytes → Bytes → Except String (Nat × Bytes)
  | 0, _, _, _, _ => .error "unterminated Pack M VarUInt"
  | _ + 1, _, _, _, [] => .error "unterminated Pack M VarUInt"
  | fuel + 1, shift, value, consumed, byte :: rest =>
    let low := byte.toNat % 128
    if 64 ≤ shift ∨ (shift = 63 ∧ 1 < low) then .error "Pack M VarUInt overflow"
    else
      let value := value ||| low <<< shift
      let consumed := consumed ++ [byte]
      if byte.toNat < 128 then
        if writeVaruint 10 value ≠ consumed then
          .error "Pack M VarUInt is not minimally encoded"
        else .ok (value, rest)
      else packMReadVaruint fuel (shift + 7) value consumed rest

/-- Read {lit}`n` raw headers. -/
def readRawHeaders : Nat → Bytes → List BitcoinHeader
  | 0, _ => []
  | n + 1, bytes =>
    let (raw, bytes) := Bytes.cut 80 bytes
    { raw := Bytes.toB80 raw } :: readRawHeaders n bytes

namespace BitcoinHeadersV1

def maxHeaders : Nat := 256

def payload (h : BitcoinHeadersV1) : Except String Bytes := do
  reject (h.headers = [] ∨ maxHeaders < h.headers.length)
    "BITCOIN_HEADERS header_count must be in 1..=256"
  .ok (Bytes.u32 h.networkId ++ (Bytes.b32 h.genesisId ++
    (writeVaruint 10 h.headers.length ++ h.headers.flatMap fun x => Bytes.b80 x.raw)))

def decodePayload (bytes : Bytes) : Except String BitcoinHeadersV1 := do
  reject (bytes.length < 37) "BITCOIN_HEADERS payload is truncated"
  let (networkId, bytes) := Bytes.cut 4 bytes
  let (genesisId, bytes) := Bytes.cut 32 bytes
  let (count, bytes) ← packMReadVaruint 10 0 0 [] bytes
  reject (count = 0 ∨ maxHeaders < count) "BITCOIN_HEADERS header_count must be in 1..=256"
  reject (bytes.length ≠ count * 80) "BITCOIN_HEADERS payload length mismatch"
  .ok { networkId := Bytes.toU32 networkId
        genesisId := Bytes.toB32 genesisId
        headers := readRawHeaders count bytes }

def toOperation (h : BitcoinHeadersV1) : Except String ProtocolOperationV1 := do
  let payload ← h.payload
  .ok { opType := opBitcoinHeaders, opVersion := 1, payload := payload }

def fromOperation (op : ProtocolOperationV1) : Except String BitcoinHeadersV1 := do
  reject (op.opType ≠ opBitcoinHeaders ∨ op.opVersion ≠ 1) "not a BITCOIN_HEADERS v1 operation"
  decodePayload op.payload

end BitcoinHeadersV1

end Mutiny
