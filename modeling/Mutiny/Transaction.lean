import Mutiny.Codec
import Mutiny.Crypto

/-!
# Transactions

Inputs and outputs of V1 transactions, their canonical bytes, identifiers and
signature digests, and the check of the one witness type the node spends with.
-/

namespace Mutiny

open Result Reader

namespace Domains

def txId : Bytes := Bytes.ascii "MUTINY-TX-ID-V1"
def wtxId : Bytes := Bytes.ascii "MUTINY-WTX-ID-V1"
def txSign : Bytes := Bytes.ascii "MUTINY-TX-SIGN-V1"
def address : Bytes := Bytes.ascii "MUTINY-ADDRESS-V1"
def txLeaf : Bytes := Bytes.ascii "MUTINY-TX-LEAF-V1"

end Domains

def outputPubkeyHash : UInt8 := 0x01
def outputTreasury : UInt8 := 0x04
def outputLicensePayment : UInt8 := 0x05

def witnessPubkeyHash : UInt8 := 0x01
def witnessProtocolAuth : UInt8 := 0x03

/-- Why a transaction is refused. -/
inductive TxError where
  | invalidPublicKey
  | invalidSignature
  | addressMismatch
  | overflow
  | malformedEncoding
  | tooManyInputsOrOutputs
deriving DecidableEq, Repr

/-- The text of an error. -/
def TxError.message : TxError → String
  | .invalidPublicKey => "invalid public key"
  | .invalidSignature => "invalid signature"
  | .addressMismatch => "address does not match public key"
  | .overflow => "arithmetic overflow"
  | .malformedEncoding => "malformed canonical transaction encoding"
  | .tooManyInputsOrOutputs => "transaction exceeds V1 input/output limits"

/-- A byte string preceded by its length. -/
def encodeVar (payload : Bytes) : Bytes :=
  encodeVaruint (UInt64.ofNat payload.length) ++ payload

/-- An output. -/
structure TxOutput where
  amountStrikes : UInt64
  outputType : UInt8
  payload : Bytes
deriving DecidableEq, Repr

def TxOutput.encode (o : TxOutput) : Bytes :=
  Bytes.u64 o.amountStrikes ++ (o.outputType :: encodeVar o.payload)

/-- What a coinbase says about its block. -/
structure CoinbaseCommitmentV1 where
  blockEpoch : UInt64
  blockHeight : UInt64
  parentBlockHash : Bytes32
  protocolOperationsRoot : Bytes32
deriving DecidableEq, Repr

def CoinbaseCommitmentV1.encode (c : CoinbaseCommitmentV1) : Bytes :=
  Bytes.u64 c.blockEpoch ++ (Bytes.u64 c.blockHeight ++
    (Bytes.b32 c.parentBlockHash ++ Bytes.b32 c.protocolOperationsRoot))

/-- The transaction and output an input spends. -/
structure OutPoint where
  previousTxid : Bytes32
  previousOutputIndex : UInt16
deriving DecidableEq, Repr

/-- The outpoint that marks a coinbase input on the wire. -/
def OutPoint.null : OutPoint := ⟨0, 0xffff⟩

def OutPoint.encode (o : OutPoint) : Bytes :=
  Bytes.b32 o.previousTxid ++ Bytes.u16 o.previousOutputIndex

/-- An input. -/
inductive TxInput where
  | outpoint (o : OutPoint)
  | coinbase (commitment : CoinbaseCommitmentV1)
deriving DecidableEq, Repr

def TxInput.encodeCore : TxInput → Bytes
  | .outpoint o => o.encode
  | .coinbase commitment => OutPoint.null.encode ++ commitment.encode

/-- A transaction without witnesses. -/
structure TransactionCoreV1 where
  version : UInt16
  networkId : UInt32
  validFromEpoch : UInt64
  expiryEpoch : UInt64
  inputs : List TxInput
  outputs : List TxOutput
deriving DecidableEq, Repr

def TransactionCoreV1.encode (c : TransactionCoreV1) : Bytes :=
  Bytes.u16 c.version ++ (Bytes.u32 c.networkId ++ (Bytes.u64 c.validFromEpoch ++
    (Bytes.u64 c.expiryEpoch ++ (encodeVaruint (UInt64.ofNat c.inputs.length) ++
      (c.inputs.flatMap TxInput.encodeCore ++
        (encodeVaruint (UInt64.ofNat c.outputs.length) ++
          c.outputs.flatMap TxOutput.encode))))))

/-- A witness. -/
structure WitnessV1 where
  witnessType : UInt8
  payload : Bytes
deriving DecidableEq, Repr

def WitnessV1.encode (w : WitnessV1) : Bytes := w.witnessType :: encodeVar w.payload

/-- The witness of a key and its signature. -/
def WitnessV1.pubkeyHash (publicKey : Bytes32) (signature : Bytes64) : WitnessV1 where
  witnessType := witnessPubkeyHash
  payload := Bytes.b32 publicKey ++ Bytes.b64 signature

/-- The witness that names an operation. -/
def WitnessV1.protocolAuth (operationId : Bytes32) : WitnessV1 where
  witnessType := witnessProtocolAuth
  payload := Bytes.b32 operationId

/-- A transaction. -/
structure TransactionV1 where
  core : TransactionCoreV1
  witnesses : List WitnessV1
deriving DecidableEq, Repr

/-- The output a signature commits to spending. -/
structure PrevoutCommitmentV1 where
  outpoint : OutPoint
  amountStrikes : UInt64
  outputType : UInt8
  payload : Bytes
deriving DecidableEq, Repr

def PrevoutCommitmentV1.encode (p : PrevoutCommitmentV1) : Bytes :=
  p.outpoint.encode ++ (Bytes.u64 p.amountStrikes ++ (p.outputType :: encodeVar p.payload))

namespace TransactionV1

def encodeFull (t : TransactionV1) : Bytes :=
  t.core.encode ++ t.witnesses.flatMap WitnessV1.encode

/-- The length of a transaction. -/
def serializedLen (t : TransactionV1) : Nat := t.encodeFull.length

end TransactionV1

section Hashes

variable [Crypto]

def TransactionCoreV1.txid (c : TransactionCoreV1) : Bytes32 :=
  sha256Domain Domains.txId [c.encode]

def TransactionV1.txid (t : TransactionV1) : Bytes32 := t.core.txid

def TransactionV1.wtxid (t : TransactionV1) : Bytes32 :=
  sha256Domain Domains.wtxId [t.encodeFull]

def TransactionV1.leaf (t : TransactionV1) : Bytes32 :=
  sha256Domain Domains.txLeaf [Bytes.b32 t.txid, Bytes.b32 t.wtxid]

/-- The digest an input signs. -/
def sighashAll (txid : Bytes32) (inputIndex : UInt16) (prevout : PrevoutCommitmentV1) : Bytes32 :=
  sha256Domain Domains.txSign [Bytes.b32 txid, Bytes.u16 inputIndex, prevout.encode]

/-- The address of a key. -/
def addressId (publicKey : Bytes32) : Bytes32 :=
  sha256Domain Domains.address [Bytes.b32 publicKey]

/-- A witness proves the key of an address. -/
def verifyPubkeyHashWitness (address digest : Bytes32) (witness : WitnessV1) :
    Except TxError Unit := do
  reject (witness.witnessType ≠ witnessPubkeyHash ∨ witness.payload.length ≠ 96) .invalidSignature
  let publicKey := Bytes.toB32 (witness.payload.take 32)
  let signature := Bytes.toB64 (witness.payload.drop 32)
  reject (addressId publicKey ≠ address) .addressMismatch
  reject (Crypto.validPublicKey publicKey = false) .invalidPublicKey
  reject (Crypto.verify publicKey (Bytes.b32 digest) signature = false) .invalidSignature

end Hashes

/-! ## Decoding -/

/-- Codec errors inside a transaction all read as a malformed encoding. -/
def cv {α : Type} (r : Reader DecodeError α) : Reader TxError α :=
  r.mapError fun _ => .malformedEncoding

/-- A byte string preceded by its length. -/
def decodeVar : Reader TxError Bytes := do
  let len ← cv readVaruint
  take .malformedEncoding len.toNat

def TxOutput.decode : Reader TxError TxOutput := do
  let amountStrikes ← cv readU64Be
  let outputType ← cv readU8
  let payload ← decodeVar
  pure { amountStrikes, outputType, payload }

def WitnessV1.decode : Reader TxError WitnessV1 := do
  let witnessType ← cv readU8
  let payload ← decodeVar
  pure { witnessType, payload }

def CoinbaseCommitmentV1.decode : Reader TxError CoinbaseCommitmentV1 := do
  let blockEpoch ← cv readU64Be
  let blockHeight ← cv readU64Be
  let parentBlockHash ← cv readU256Be
  let protocolOperationsRoot ← cv readU256Be
  pure { blockEpoch, blockHeight, parentBlockHash, protocolOperationsRoot }

/-- One input.  The null outpoint marks a coinbase, which must stand alone. -/
def TxInput.decode (inputCount : Nat) : Reader TxError TxInput := do
  let previousTxid ← cv readU256Be
  let previousOutputIndex ← cv readU16Be
  if (⟨previousTxid, previousOutputIndex⟩ : OutPoint) = OutPoint.null then
    rejectIf (inputCount ≠ 1) .malformedEncoding
    let commitment ← CoinbaseCommitmentV1.decode
    pure (.coinbase commitment)
  else pure (.outpoint ⟨previousTxid, previousOutputIndex⟩)

/-- Whether an input is that of a coinbase. -/
def TxInput.isCoinbase : TxInput → Bool
  | .outpoint _ => false
  | .coinbase _ => true

def TransactionV1.decodeFrom : Reader TxError TransactionV1 := do
  let version ← cv readU16Be
  let networkId ← cv readU32Be
  let validFromEpoch ← cv readU64Be
  let expiryEpoch ← cv readU64Be
  let inputCount ← cv readVaruint
  rejectIf (1024 < inputCount) .tooManyInputsOrOutputs
  let inputs ← replicateM (TxInput.decode inputCount.toNat) inputCount.toNat
  let outputCount ← cv readVaruint
  rejectIf (1024 < outputCount) .tooManyInputsOrOutputs
  let outputs ← replicateM TxOutput.decode outputCount.toNat
  let witnessCount := if inputs.any TxInput.isCoinbase then 0 else inputCount.toNat
  let witnesses ← replicateM WitnessV1.decode witnessCount
  pure { core := { version, networkId, validFromEpoch, expiryEpoch, inputs, outputs }, witnesses }

/-- A transaction and nothing after it. -/
def TransactionV1.decodeFull (bytes : Bytes) : Except TxError TransactionV1 := do
  let (tx, rest) ← TransactionV1.decodeFrom bytes
  reject (rest ≠ []) .malformedEncoding
  .ok tx

end Mutiny
