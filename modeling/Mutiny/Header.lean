import Mutiny.Crypto

/-!
# Block headers

A header is 272 bytes: a core of ten fixed-width fields and the miner's signature
over it.
-/

namespace Mutiny

namespace Domains

def blockSign : Bytes := Bytes.ascii "MUTINY-BLOCK-SIGN-V1"
def blockId : Bytes := Bytes.ascii "MUTINY-BLOCK-ID-V1"

end Domains

/-- The 208 bytes a miner signs. -/
structure HeaderCoreV1 where
  version : UInt16
  networkId : UInt32
  epoch : UInt64
  parentHash : Bytes32
  transactionRoot : Bytes32
  stateRoot : Bytes32
  target : Bytes32
  licenseId : Bytes32
  ticketIndex : UInt16
  argon2Proof : Bytes32
deriving DecidableEq, Repr

/-- A header with its signature. -/
structure HeaderV1 where
  core : HeaderCoreV1
  signature : Bytes64
deriving DecidableEq, Repr

def HeaderCoreV1.encode (c : HeaderCoreV1) : Bytes :=
  Bytes.u16 c.version ++ (Bytes.u32 c.networkId ++ (Bytes.u64 c.epoch ++
    (Bytes.b32 c.parentHash ++ (Bytes.b32 c.transactionRoot ++ (Bytes.b32 c.stateRoot ++
      (Bytes.b32 c.target ++ (Bytes.b32 c.licenseId ++ (Bytes.u16 c.ticketIndex ++
        Bytes.b32 c.argon2Proof))))))))

def HeaderV1.encode (h : HeaderV1) : Bytes := h.core.encode ++ Bytes.b64 h.signature

/-- Take the fields of a header off the front of its bytes. -/
def HeaderV1.decode (bytes : Bytes) : HeaderV1 :=
  let (version, bytes) := Bytes.cut 2 bytes
  let (networkId, bytes) := Bytes.cut 4 bytes
  let (epoch, bytes) := Bytes.cut 8 bytes
  let (parentHash, bytes) := Bytes.cut 32 bytes
  let (transactionRoot, bytes) := Bytes.cut 32 bytes
  let (stateRoot, bytes) := Bytes.cut 32 bytes
  let (target, bytes) := Bytes.cut 32 bytes
  let (licenseId, bytes) := Bytes.cut 32 bytes
  let (ticketIndex, bytes) := Bytes.cut 2 bytes
  let (argon2Proof, signature) := Bytes.cut 32 bytes
  { core :=
      { version := Bytes.toU16 version
        networkId := Bytes.toU32 networkId
        epoch := Bytes.toU64 epoch
        parentHash := Bytes.toB32 parentHash
        transactionRoot := Bytes.toB32 transactionRoot
        stateRoot := Bytes.toB32 stateRoot
        target := Bytes.toB32 target
        licenseId := Bytes.toB32 licenseId
        ticketIndex := Bytes.toU16 ticketIndex
        argon2Proof := Bytes.toB32 argon2Proof }
    signature := Bytes.toB64 signature }

/-- The fields of a header are read back from its bytes. -/
theorem HeaderV1.decode_encode (h : HeaderV1) : HeaderV1.decode h.encode = h := by
  simp only [decode, encode, HeaderCoreV1.encode, List.append_assoc, Bytes.cut_be_append,
    Bytes.toU16_u16, Bytes.toU32_u32, Bytes.toU64_u64, Bytes.toB32_b32, Bytes.toB64_b64]

/-- Any 272 bytes are the encoding of the header read off them. -/
theorem HeaderV1.encode_decode {bytes : Bytes} (h : bytes.length = 272) :
    (HeaderV1.decode bytes).encode = bytes := by
  simp (disch := simp [h]) only [decode, encode, HeaderCoreV1.encode, Bytes.cut, List.append_assoc,
    Bytes.b64_toB64, Bytes.b32_take, Bytes.u16_take, Bytes.u32_take, Bytes.u64_take]

theorem HeaderV1.encode_inj {a b : HeaderV1} : a.encode = b.encode ↔ a = b :=
  ⟨fun h => by rw [← decode_encode a, h, decode_encode], congrArg encode⟩

theorem HeaderV1.length_encode (h : HeaderV1) : h.encode.length = 272 := by
  simp [encode, HeaderCoreV1.encode]

variable [Crypto]

/-- The digest a miner signs. -/
def blockSigningDigest (core : HeaderCoreV1) : Bytes32 :=
  sha256Domain Domains.blockSign [core.encode]

def blockHash (header : HeaderV1) : Bytes32 := sha256Domain Domains.blockId [header.encode]

/-- A proof of work is good enough. -/
def proofBelowTarget (proof target : Bytes32) : Bool := decide (proof < target)

end Mutiny
