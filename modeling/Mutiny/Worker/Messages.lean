import Mutiny.Crypto
import Mutiny.Lib.Result

/-!
# The messages of the worker handshake

A worker greets a node, the node answers with a challenge, the worker signs both, and the node
signs all three.  This module has the two encodings, the two signed messages, and the
identifiers derived from them.
-/

namespace Mutiny

open Result

/-- Why a message is refused. -/
inductive PackLError where
  | invalidLength (expected actual : Nat)
  | invalidVersion (version : UInt16)
  | invalidField (field : String)
  | invalidSignature
  | replay
  | outOfBudget
deriving DecidableEq, Repr

namespace Worker

def packLVersion : UInt16 := 1

def msgWorkerHello : UInt16 := 0x0201
def msgNodeChallenge : UInt16 := 0x0202
def msgWorkerAuth : UInt16 := 0x0203
def msgNodeAccept : UInt16 := 0x0204

def workerHelloLen : Nat := 80
def nodeChallengeLen : Nat := 174

def domainWorkerId : Bytes := Bytes.ascii "MUTINY-WORKER-ID-V1"
def domainWorkerAuth : Bytes := Bytes.ascii "MUTINY-WORKER-AUTH-V1"
def domainNodeAccept : Bytes := Bytes.ascii "MUTINY-NODE-WORKER-ACCEPT-V1"
def domainSessionId : Bytes := Bytes.ascii "MUTINY-WORKER-SESSION-ID-V1"
def domainAssignmentSignature : Bytes := Bytes.ascii "MUTINY-WORK-ASSIGNMENT-V1"
def domainResultSignature : Bytes := Bytes.ascii "MUTINY-WORK-RESULT-V1"
def domainCancelSignature : Bytes := Bytes.ascii "MUTINY-WORK-CANCEL-V1"
def domainNodeId : Bytes := Bytes.ascii "MUTINY-NODE-ID-V1"

/-- A worker's greeting. -/
structure WorkerHelloV1 where
  networkId : UInt32
  workerPublicKey : Bytes32
  workerNonce : Bytes32
  capabilities : UInt64
  maxParallelism : UInt16
deriving DecidableEq, Repr

/-- The node's challenge. -/
structure NodeChallengeV1 where
  networkId : UInt32
  nodeId : Bytes32
  nodePublicKey : Bytes32
  workerId : Bytes32
  workerNonce : Bytes32
  nodeNonce : Bytes32
  capabilities : UInt64
deriving DecidableEq, Repr

@[simp]
theorem length_domainWorkerAuth : domainWorkerAuth.length = 21 := by decide

@[simp]
theorem length_domainNodeAccept : domainNodeAccept.length = 28 := by decide

/-! ## Encodings -/

namespace WorkerHelloV1

def encode (h : WorkerHelloV1) : Bytes :=
  Bytes.u16 packLVersion ++ (Bytes.u32 h.networkId ++ (Bytes.b32 h.workerPublicKey ++
    (Bytes.b32 h.workerNonce ++ (Bytes.u64 h.capabilities ++ Bytes.u16 h.maxParallelism))))

def decode (bytes : Bytes) : Except PackLError WorkerHelloV1 := do
  reject (bytes.length ≠ workerHelloLen) (.invalidLength workerHelloLen bytes.length)
  let (version, bytes) := Bytes.cut 2 bytes
  reject (Bytes.toU16 version ≠ packLVersion) (.invalidVersion (Bytes.toU16 version))
  let (networkId, bytes) := Bytes.cut 4 bytes
  let (workerPublicKey, bytes) := Bytes.cut 32 bytes
  let (workerNonce, bytes) := Bytes.cut 32 bytes
  let (capabilities, maxParallelism) := Bytes.cut 8 bytes
  .ok { networkId := Bytes.toU32 networkId
        workerPublicKey := Bytes.toB32 workerPublicKey
        workerNonce := Bytes.toB32 workerNonce
        capabilities := Bytes.toU64 capabilities
        maxParallelism := Bytes.toU16 maxParallelism }

@[simp]
theorem length_encode (h : WorkerHelloV1) : h.encode.length = 80 := by
  simp [encode]

theorem decode_encode (h : WorkerHelloV1) : decode h.encode = .ok h := by
  simp [decode, Result.reject, workerHelloLen, encode]

theorem encode_append_inj {h h' : WorkerHelloV1} {xs ys : Bytes} :
    h.encode ++ xs = h'.encode ++ ys ↔ h = h' ∧ xs = ys := by
  constructor
  · intro heq
    rcases List.append_inj heq (by simp) with ⟨hencode, rfl⟩
    have hread := decode_encode h
    rw [hencode, decode_encode, Except.ok.injEq] at hread
    exact ⟨hread.symm, rfl⟩
  · rintro ⟨rfl, rfl⟩
    rfl

end WorkerHelloV1

namespace NodeChallengeV1

def encode (c : NodeChallengeV1) : Bytes :=
  Bytes.u16 packLVersion ++ (Bytes.u32 c.networkId ++ (Bytes.b32 c.nodeId ++
    (Bytes.b32 c.nodePublicKey ++ (Bytes.b32 c.workerId ++ (Bytes.b32 c.workerNonce ++
      (Bytes.b32 c.nodeNonce ++ Bytes.u64 c.capabilities))))))

def decode (bytes : Bytes) : Except PackLError NodeChallengeV1 := do
  reject (bytes.length ≠ nodeChallengeLen) (.invalidLength nodeChallengeLen bytes.length)
  let (version, bytes) := Bytes.cut 2 bytes
  reject (Bytes.toU16 version ≠ packLVersion) (.invalidVersion (Bytes.toU16 version))
  let (networkId, bytes) := Bytes.cut 4 bytes
  let (nodeId, bytes) := Bytes.cut 32 bytes
  let (nodePublicKey, bytes) := Bytes.cut 32 bytes
  let (workerId, bytes) := Bytes.cut 32 bytes
  let (workerNonce, bytes) := Bytes.cut 32 bytes
  let (nodeNonce, capabilities) := Bytes.cut 32 bytes
  .ok { networkId := Bytes.toU32 networkId
        nodeId := Bytes.toB32 nodeId
        nodePublicKey := Bytes.toB32 nodePublicKey
        workerId := Bytes.toB32 workerId
        workerNonce := Bytes.toB32 workerNonce
        nodeNonce := Bytes.toB32 nodeNonce
        capabilities := Bytes.toU64 capabilities }

@[simp]
theorem length_encode (c : NodeChallengeV1) : c.encode.length = 174 := by
  simp [encode]

theorem decode_encode (c : NodeChallengeV1) : decode c.encode = .ok c := by
  simp [decode, Result.reject, nodeChallengeLen, encode]

theorem encode_append_inj {c c' : NodeChallengeV1} {xs ys : Bytes} :
    c.encode ++ xs = c'.encode ++ ys ↔ c = c' ∧ xs = ys := by
  constructor
  · intro heq
    rcases List.append_inj heq (by simp) with ⟨hencode, rfl⟩
    have hread := decode_encode c
    rw [hencode, decode_encode, Except.ok.injEq] at hread
    exact ⟨hread.symm, rfl⟩
  · rintro ⟨rfl, rfl⟩
    rfl

end NodeChallengeV1

/-! ## Signed messages -/

/-- What the worker signs. -/
def workerAuthMessage (hello : WorkerHelloV1) (challenge : NodeChallengeV1) : Bytes :=
  domainWorkerAuth ++ (hello.encode ++ challenge.encode)

/-- What the node signs. -/
def nodeAcceptMessage (hello : WorkerHelloV1) (challenge : NodeChallengeV1)
    (workerSignature : Bytes64) : Bytes :=
  domainNodeAccept ++ (hello.encode ++ (challenge.encode ++ Bytes.b64 workerSignature))

variable {hello hello' : WorkerHelloV1} {challenge challenge' : NodeChallengeV1}

/-- A signed message determines what it was made of. -/
theorem workerAuthMessage_inj :
    workerAuthMessage hello challenge = workerAuthMessage hello' challenge' ↔
      hello = hello' ∧ challenge = challenge' := by
  have hend : challenge.encode = challenge'.encode ↔ challenge = challenge' := by
    have happend := @NodeChallengeV1.encode_append_inj challenge challenge' [] []
    simpa using happend
  rw [workerAuthMessage, workerAuthMessage, List.append_cancel_left_eq,
    WorkerHelloV1.encode_append_inj, hend]

variable {signature signature' : Bytes64}

/-- A signed message determines what it was made of. -/
theorem nodeAcceptMessage_inj :
    nodeAcceptMessage hello challenge signature = nodeAcceptMessage hello' challenge' signature' ↔
      hello = hello' ∧ challenge = challenge' ∧ signature = signature' := by
  rw [nodeAcceptMessage, nodeAcceptMessage, List.append_cancel_left_eq,
    WorkerHelloV1.encode_append_inj, NodeChallengeV1.encode_append_inj, Bytes.b64_inj]

/-- The two messages differ in length. -/
theorem workerAuthMessage_ne_nodeAcceptMessage :
    workerAuthMessage hello challenge ≠ nodeAcceptMessage hello' challenge' signature := by
  intro h
  have hlength := congrArg List.length h
  simp [workerAuthMessage, nodeAcceptMessage] at hlength

/-- What the two keys sign outside the handshake: assignments, results and cancellations, each
after its own domain, and the 32-byte digests of the peer handshake. -/
def signedElsewhere (message : Bytes) : Bool :=
  message.length == 32 || domainAssignmentSignature.isPrefixOf message ||
    domainResultSignature.isPrefixOf message || domainCancelSignature.isPrefixOf message

theorem signedElsewhere_workerAuthMessage (hello : WorkerHelloV1) (challenge : NodeChallengeV1) :
    signedElsewhere (workerAuthMessage hello challenge) = false := by
  have hlength : (workerAuthMessage hello challenge).length = 275 := by simp [workerAuthMessage]
  have htag {tag : Bytes} (hlong : 12 ≤ tag.length) (hne : tag.take 12 ≠ domainWorkerAuth.take 12) :
      tag.isPrefixOf (workerAuthMessage hello challenge) = false :=
    Bytes.isPrefixOf_append_eq_false hlong (by simp) hne _
  rw [signedElsewhere, hlength, htag (by decide) (by decide), htag (by decide) (by decide),
    htag (by decide) (by decide)]
  rfl

theorem signedElsewhere_nodeAcceptMessage (hello : WorkerHelloV1) (challenge : NodeChallengeV1)
    (signature : Bytes64) :
    signedElsewhere (nodeAcceptMessage hello challenge signature) = false := by
  have hlength : (nodeAcceptMessage hello challenge signature).length = 346 := by
    simp [nodeAcceptMessage]
  have htag {tag : Bytes} (hlong : 12 ≤ tag.length) (hne : tag.take 12 ≠ domainNodeAccept.take 12) :
      tag.isPrefixOf (nodeAcceptMessage hello challenge signature) = false :=
    Bytes.isPrefixOf_append_eq_false hlong (by simp) hne _
  rw [signedElsewhere, hlength, htag (by decide) (by decide), htag (by decide) (by decide),
    htag (by decide) (by decide)]
  rfl

/-! ## Identifiers -/

/-- What a session identifier is the hash of. -/
def sessionPreimage (hello : WorkerHelloV1) (challenge : NodeChallengeV1)
    (workerSignature nodeSignature : Bytes64) : Bytes :=
  domainSessionId ++ [hello.encode, challenge.encode, Bytes.b64 workerSignature,
    Bytes.b64 nodeSignature].flatten

/-- What a session identifier is the hash of determines the session. -/
theorem sessionPreimage_inj {nodeSignature nodeSignature' : Bytes64} :
    sessionPreimage hello challenge signature nodeSignature =
        sessionPreimage hello' challenge' signature' nodeSignature' ↔
      hello = hello' ∧ challenge = challenge' ∧ signature = signature' ∧
        nodeSignature = nodeSignature' := by
  simp only [sessionPreimage, List.flatten_cons, List.flatten_nil, List.append_nil]
  rw [List.append_cancel_left_eq, WorkerHelloV1.encode_append_inj,
    NodeChallengeV1.encode_append_inj, Bytes.be_append_inj, Bytes.b64_inj, Bytes.b64_inj]

variable [Crypto]

/-- A hash over parts. -/
def hashParts (domain : Bytes) (parts : List Bytes) : Bytes32 :=
  Crypto.sha256 (domain ++ parts.flatten)

def workerId (networkId : UInt32) (workerPublicKey : Bytes32) : Bytes32 :=
  hashParts domainWorkerId [Bytes.u32 networkId, Bytes.b32 workerPublicKey]

def WorkerHelloV1.workerId (h : WorkerHelloV1) : Bytes32 :=
  Worker.workerId h.networkId h.workerPublicKey

def nodeIdFromPublicKey (nodePublicKey : Bytes32) : Bytes32 :=
  hashParts domainNodeId [Bytes.b32 nodePublicKey]

def sessionId (hello : WorkerHelloV1) (challenge : NodeChallengeV1)
    (workerSignature nodeSignature : Bytes64) : Bytes32 :=
  hashParts domainSessionId [hello.encode, challenge.encode, Bytes.b64 workerSignature,
    Bytes.b64 nodeSignature]

/-! ## Checks -/

/-- The challenge answers the greeting. -/
def NodeChallengeV1.validateForHello (challenge : NodeChallengeV1) (hello : WorkerHelloV1) :
    Except PackLError Unit := do
  reject (challenge.networkId ≠ hello.networkId) (.invalidField "challenge NetworkID mismatch")
  reject (challenge.workerId ≠ hello.workerId) (.invalidField "challenge WorkerID mismatch")
  reject (challenge.workerNonce ≠ hello.workerNonce)
    (.invalidField "challenge worker_nonce mismatch")

/-- The signature of a worker; an undecodable key verifies nothing. -/
def verifyWorkerAuth (verify : Bytes32 → Bytes → Bytes64 → Bool) (workerPublicKey : Bytes32)
    (hello : WorkerHelloV1) (challenge : NodeChallengeV1) (signature : Bytes64) :
    Except PackLError Unit := do
  challenge.validateForHello hello
  reject (verify workerPublicKey (workerAuthMessage hello challenge) signature = false)
    .invalidSignature

/-- The node's signature is checked. -/
def verifyNodeAccept (verify : Bytes32 → Bytes → Bytes64 → Bool) (nodePublicKey : Bytes32)
    (hello : WorkerHelloV1) (challenge : NodeChallengeV1) (workerSignature signature : Bytes64) :
    Except PackLError Unit :=
  reject (verify nodePublicKey (nodeAcceptMessage hello challenge workerSignature) signature =
    false) .invalidSignature

end Worker

end Mutiny
