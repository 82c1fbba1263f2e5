import Mutiny.Lib.Sessions
import Mutiny.P2p.Frame
import Mutiny.Worker.Messages

/-!
# Pairing a worker with a node

The two ends of the worker handshake, cut where they wait for a frame: the node reads the
greeting and sends its challenge, reads the worker's signature, claims the worker in its
registry and sends its own signature; the worker sends its greeting, reads the challenge and
sends its signature, and reads the node's.  Any number of runs of both take place over a
network that is in the hands of an attacker.

Main result:

- Theorem {lit}`pairing_agreement`: the two ends agree on the transcript and on the session
  identifier.
-/

namespace Mutiny.Worker

open Result

/-- Why a handshake fails. -/
inductive EndpointError where
  | packL (e : PackLError)
  | frame (e : P2pError)
  | wrongMessageType
  | zeroRequestId
  | requestIdMismatch
  | unauthorizedWorker
  | wrongNode
  | duplicateActiveWorker
  | badPayloadLength
deriving DecidableEq, Repr

/-- What a handshake returns. -/
structure AuthenticatedWorkerSession where
  workerId : Bytes32
  workerPublicKey : Bytes32
  nodeId : Bytes32
  sessionId : Bytes32
  requestId : UInt64
deriving DecidableEq, Repr

/-! ## The active workers of a node -/

/-- Enter a worker; the registry is a set. -/
def claim (active : List Bytes32) (workerId : Bytes32) : Except EndpointError (List Bytes32) := do
  reject (workerId ∈ active) .duplicateActiveWorker
  .ok (workerId :: active)

/-- A worker leaves. -/
def release (active : List Bytes32) (workerId : Bytes32) : List Bytes32 :=
  active.filter (· ≠ workerId)

/-! ## Frames -/

/-- A frame of the expected type. -/
def readExactFrame (received : Except P2pError Frame) (expectedType : UInt16)
    (expectedRequestId : Option UInt64) : Except EndpointError Frame := do
  let frame ← received.mapError .frame
  reject (frame.messageType ≠ expectedType) .wrongMessageType
  reject (∃ id, expectedRequestId = some id ∧ frame.requestId ≠ id) .requestIdMismatch
  .ok frame

/-- A frame is sent. -/
def writeFrame (magic : UInt32) (messageType : UInt16) (requestId : UInt64) (payload : Bytes)
    (written : Except P2pError Unit) : Except EndpointError Unit :=
  (sendFrame magic messageType requestId payload written).mapError .frame

/-- The 64 bytes of a signature. -/
def readSignature (frame : Frame) : Except EndpointError Bytes64 := do
  reject (frame.payload.length ≠ 64) .badPayloadLength
  .ok (Bytes.toB64 frame.payload)

section Handshake

variable [Crypto]

/-! ## The node -/

/-- What a node brings to a run, with the number of the registry it uses. -/
structure NodeParams where
  workerMagic : UInt32
  networkId : UInt32
  publicKey : Bytes32
  nodeNonce : Bytes32
  nodeCapabilities : UInt64
  allowedWorkers : List Bytes32
  registry : Nat

/-- A greeting that was answered with a challenge. -/
structure Greeted where
  requestId : UInt64
  hello : WorkerHelloV1
  challenge : NodeChallengeV1

/-- What both ends hold when they are done. -/
structure Transcript where
  hello : WorkerHelloV1
  challenge : NodeChallengeV1
  workerSignature : Bytes64
  nodeSignature : Bytes64
  sessionId : Bytes32
deriving DecidableEq

/-- The challenge of a node. -/
def NodeParams.challenge (p : NodeParams) (hello : WorkerHelloV1) : NodeChallengeV1 where
  networkId := p.networkId
  nodeId := nodeIdFromPublicKey p.publicKey
  nodePublicKey := p.publicKey
  workerId := hello.workerId
  workerNonce := hello.workerNonce
  nodeNonce := p.nodeNonce
  capabilities := p.nodeCapabilities

/-- {lit}`accept_worker_handshake` up to the read of the worker's signature. -/
def acceptHello (p : NodeParams) (x : Exchange) : Except EndpointError Greeted := do
  let helloFrame ← readExactFrame x.received msgWorkerHello none
  reject (helloFrame.requestId = 0) .zeroRequestId
  let hello ← (WorkerHelloV1.decode helloFrame.payload).mapError .packL
  reject (hello.networkId ≠ p.networkId) (.packL (.invalidField "WorkerHello NetworkID mismatch"))
  reject (hello.workerId ∉ p.allowedWorkers) .unauthorizedWorker
  writeFrame p.workerMagic msgNodeChallenge helloFrame.requestId (p.challenge hello).encode
    x.written
  .ok ⟨helloFrame.requestId, hello, p.challenge hello⟩

/-- From there up to the node's own signature: the worker's signature and the registry with the
worker. -/
def acceptAuth (verify : Bytes32 → Bytes → Bytes64 → Bool) (g : Greeted) (active : List Bytes32)
    (x : Exchange) : Except EndpointError (Bytes64 × List Bytes32) := do
  let authFrame ← readExactFrame x.received msgWorkerAuth (some g.requestId)
  let workerSignature ← readSignature authFrame
  (verifyWorkerAuth verify g.hello.workerPublicKey g.hello g.challenge workerSignature).mapError
    .packL
  let active ← claim active g.hello.workerId
  .ok (workerSignature, active)

/-- The session of a node that has signed. -/
def acceptSession (p : NodeParams) (g : Greeted) (t : Transcript) (x : Exchange) :
    Except EndpointError AuthenticatedWorkerSession := do
  writeFrame p.workerMagic msgNodeAccept g.requestId (Bytes.b64 t.nodeSignature) x.written
  .ok { workerId := g.hello.workerId
        workerPublicKey := g.hello.workerPublicKey
        nodeId := nodeIdFromPublicKey p.publicKey
        sessionId := t.sessionId
        requestId := g.requestId }

/-! ## The worker -/

/-- What a worker is given. -/
structure WorkerParams where
  workerMagic : UInt32
  networkId : UInt32
  publicKey : Bytes32
  workerNonce : Bytes32
  workerCapabilities : UInt64
  maxParallelism : UInt16
  requestId : UInt64
  expectedNodeId : Bytes32

/-- The greeting of a worker. -/
def WorkerParams.hello (q : WorkerParams) : WorkerHelloV1 where
  networkId := q.networkId
  workerPublicKey := q.publicKey
  workerNonce := q.workerNonce
  capabilities := q.workerCapabilities
  maxParallelism := q.maxParallelism

/-- {lit}`initiate_worker_handshake` up to the read of the challenge. -/
def initiateHello (q : WorkerParams) (x : Exchange) : Except EndpointError Unit := do
  reject (q.requestId = 0) .zeroRequestId
  writeFrame q.workerMagic msgWorkerHello q.requestId q.hello.encode x.written

/-- From there up to the worker's signature. -/
def initiateChallenge (q : WorkerParams) (x : Exchange) :
    Except EndpointError NodeChallengeV1 := do
  let challengeFrame ← readExactFrame x.received msgNodeChallenge (some q.requestId)
  let challenge ← (NodeChallengeV1.decode challengeFrame.payload).mapError .packL
  (challenge.validateForHello q.hello).mapError .packL
  reject (challenge.nodeId ≠ nodeIdFromPublicKey challenge.nodePublicKey ∨
    challenge.nodeId ≠ q.expectedNodeId) .wrongNode
  .ok challenge

/-- From the read of the node's signature to the end. -/
def initiateAccept (verify : Bytes32 → Bytes → Bytes64 → Bool) (q : WorkerParams)
    (challenge : NodeChallengeV1) (workerSignature : Bytes64) (x : Exchange) :
    Except EndpointError (Transcript × AuthenticatedWorkerSession) := do
  let acceptFrame ← readExactFrame x.received msgNodeAccept (some q.requestId)
  let nodeSignature ← readSignature acceptFrame
  (verifyNodeAccept verify challenge.nodePublicKey q.hello challenge workerSignature
    nodeSignature).mapError .packL
  let sessionId := sessionId q.hello challenge workerSignature nodeSignature
  .ok (⟨q.hello, challenge, workerSignature, nodeSignature, sessionId⟩,
    { workerId := workerId q.networkId q.publicKey
      workerPublicKey := q.publicKey
      nodeId := challenge.nodeId
      sessionId := sessionId
      requestId := q.requestId })

/-! ## Runs -/

/-- Where a node stands. -/
inductive NodeState where
  | awaitingHello
  | awaitingAuth (g : Greeted)
  /-- Past its signature, and what the function returns. -/
  | accepted (t : Transcript) (result : Except EndpointError AuthenticatedWorkerSession)
  | failed (e : EndpointError)

/-- Where a worker stands. -/
inductive WorkerState where
  | begun
  | awaitingChallenge
  | awaitingAccept (challenge : NodeChallengeV1) (workerSignature : Bytes64)
  | finished (t : Transcript) (session : AuthenticatedWorkerSession)
  /-- Failed, before or after it has signed a challenge. -/
  | failed (signed : Option (NodeChallengeV1 × Bytes64)) (e : EndpointError)

/-- The challenge a worker has signed, and its signature. -/
def WorkerState.signed : WorkerState → Option (NodeChallengeV1 × Bytes64)
  | .begun | .awaitingChallenge => none
  | .awaitingAccept challenge signature => some (challenge, signature)
  | .finished t _ => some (t.challenge, t.workerSignature)
  | .failed signed _ => signed

/-- A run of either end. -/
inductive Run where
  | node (p : NodeParams) (state : NodeState)
  | worker (q : WorkerParams) (state : WorkerState)

/-- The nonce a run starts with, and the end that uses it. -/
def Run.nonce : Run → Bool × Bytes32
  | .node p _ => (true, p.nodeNonce)
  | .worker q _ => (false, q.workerNonce)

/-- The run has not done anything yet. -/
def Run.initial : Run → Bool
  | .node _ .awaitingHello => true
  | .worker _ .begun => true
  | _ => false

/-- The transcript of a run that has derived a session identifier. -/
def Run.transcript : Run → Option Transcript
  | .node _ (.accepted t _) => some t
  | .worker _ (.finished t _) => some t
  | _ => none

/-- The active workers, by registry. -/
abbrev Registries := Nat → List Bytes32

/-- What a run does. -/
abbrev Reacts := Sessions.Reaction Bytes32 Bytes Registries Run

/-- Nothing happens that others see. -/
def quiet (active : Registries) (r : Run) : Reacts where
  run := r
  shared := active
  signs := none

/-- What a node does. -/
def reactNode (verify : Bytes32 → Bytes → Bytes64 → Bool) (active : Registries) (p : NodeParams)
    (x : Exchange) (signature : Bytes64) : NodeState → Reacts
  | .awaitingHello =>
    match acceptHello p x with
    | .error e => quiet active (.node p (.failed e))
    | .ok g => quiet active (.node p (.awaitingAuth g))
  | .awaitingAuth g =>
    match acceptAuth verify g (active p.registry) x with
    | .error e => quiet active (.node p (.failed e))
    | .ok (workerSignature, claimed) =>
      let sessionId := sessionId g.hello g.challenge workerSignature signature
      let t : Transcript := ⟨g.hello, g.challenge, workerSignature, signature, sessionId⟩
      let result := acceptSession p g t x
      { run := .node p (.accepted t result)
        -- a worker that could not be told is released again
        shared := Function.update active p.registry
          (if result.isOk then claimed else release claimed g.hello.workerId)
        signs := some (p.publicKey, nodeAcceptMessage g.hello g.challenge workerSignature) }
  | state => quiet active (.node p state)

/-- What a worker does. -/
def reactWorker (verify : Bytes32 → Bytes → Bytes64 → Bool) (active : Registries)
    (q : WorkerParams) (x : Exchange) (signature : Bytes64) : WorkerState → Reacts
  | .begun =>
    match initiateHello q x with
    | .error e => quiet active (.worker q (.failed none e))
    | .ok () => quiet active (.worker q .awaitingChallenge)
  | .awaitingChallenge =>
    match initiateChallenge q x with
    | .error e => quiet active (.worker q (.failed none e))
    | .ok challenge =>
      let sent := writeFrame q.workerMagic msgWorkerAuth q.requestId (Bytes.b64 signature)
        x.written
      { run := .worker q (match sent with
          | .ok () => .awaitingAccept challenge signature
          | .error e => .failed (some (challenge, signature)) e)
        shared := active
        signs := some (q.publicKey, workerAuthMessage q.hello challenge) }
  | .awaitingAccept challenge workerSignature =>
    match initiateAccept verify q challenge workerSignature x with
    | .error e => quiet active (.worker q (.failed (some (challenge, workerSignature)) e))
    | .ok (t, session) => quiet active (.worker q (.finished t session))
  | state => quiet active (.worker q state)

/-- The handshake, for the keys of honest parties. -/
def handshake (honest : Bytes32 → Bool) (rogue : Bytes32 → Bytes → Bytes64 → Bool) :
    Sessions.System Bytes32 Bytes Bytes64 Exchange Registries (Nat × Bytes32) Run where
  honest := honest
  rogue := rogue
  elsewhere := signedElsewhere
  mayStart runs r := r.initial && decide (r.nonce ∉ runs.map Run.nonce)
  react verify active r x signature :=
    match r with
    | .node p state => reactNode verify active p x signature state
    | .worker q state => reactWorker verify active q x signature state
  -- a session ends and its worker is released
  outside active event :=
    Function.update active event.1 (release (active event.1) event.2)

/-! ## What a reaction does -/

/-- All that a node can do with what it receives: the message it signs, if any, and its next
state. -/
inductive NodeMove (verify : Bytes32 → Bytes → Bytes64 → Bool) (p : NodeParams)
    (signature : Bytes64) (state : NodeState) : Option (Bytes32 × Bytes) → NodeState → Prop
  | stay : NodeMove verify p signature state none state
  | fail (e : EndpointError) (hbefore : ∀ t result, state ≠ .accepted t result) :
      NodeMove verify p signature state none (.failed e)
  | greet {g : Greeted} (hstate : state = .awaitingHello)
      (hchallenge : g.challenge = p.challenge g.hello) :
      NodeMove verify p signature state none (.awaitingAuth g)
  | accept {g : Greeted} {workerSignature : Bytes64}
      {result : Except EndpointError AuthenticatedWorkerSession}
      (hstate : state = .awaitingAuth g)
      (hverified : verify g.hello.workerPublicKey (workerAuthMessage g.hello g.challenge)
        workerSignature = true)
      (hresult : ∀ session, result = .ok session →
        session.workerPublicKey = g.hello.workerPublicKey ∧
          session.sessionId = sessionId g.hello g.challenge workerSignature signature) :
      NodeMove verify p signature state
        (some (p.publicKey, nodeAcceptMessage g.hello g.challenge workerSignature))
        (.accepted ⟨g.hello, g.challenge, workerSignature, signature,
          sessionId g.hello g.challenge workerSignature signature⟩ result)

/-- All that a worker can do with what it receives. -/
inductive WorkerMove (verify : Bytes32 → Bytes → Bytes64 → Bool) (q : WorkerParams)
    (signature : Bytes64) (state : WorkerState) : Option (Bytes32 × Bytes) → WorkerState → Prop
  | stay : WorkerMove verify q signature state none state
  | fail (e : EndpointError) : WorkerMove verify q signature state none (.failed state.signed e)
  | greet (hstate : state = .begun) : WorkerMove verify q signature state none .awaitingChallenge
  | sign {challenge : NodeChallengeV1} {next : WorkerState} (hstate : state = .awaitingChallenge)
      (hnode : challenge.nodeId = nodeIdFromPublicKey challenge.nodePublicKey)
      (hpaired : challenge.nodeId = q.expectedNodeId)
      (hnext : next = .awaitingAccept challenge signature ∨
        ∃ e, next = .failed (some (challenge, signature)) e) :
      WorkerMove verify q signature state
        (some (q.publicKey, workerAuthMessage q.hello challenge)) next
  | finish {challenge : NodeChallengeV1} {workerSignature nodeSignature : Bytes64}
      {session : AuthenticatedWorkerSession}
      (hstate : state = .awaitingAccept challenge workerSignature)
      (hverified : verify challenge.nodePublicKey
        (nodeAcceptMessage q.hello challenge workerSignature) nodeSignature = true)
      (hsession : session.sessionId =
        sessionId q.hello challenge workerSignature nodeSignature) :
      WorkerMove verify q signature state none
        (.finished ⟨q.hello, challenge, workerSignature, nodeSignature,
          sessionId q.hello challenge workerSignature nodeSignature⟩ session)

variable {p : NodeParams} {x : Exchange} {g : Greeted}

theorem acceptHello_eq_ok (h : acceptHello p x = .ok g) :
    g.challenge = p.challenge g.hello := by
  simp only [acceptHello, ok_rules] at h
  rcases h with ⟨_, -, _, -, _, -, _, -, _, -, _, -, rfl⟩
  rfl

variable {verify : Bytes32 → Bytes → Bytes64 → Bool} {workerSignature : Bytes64}

theorem acceptAuth_eq_ok {active claimed : List Bytes32}
    (h : acceptAuth verify g active x = .ok (workerSignature, claimed)) :
    verify g.hello.workerPublicKey (workerAuthMessage g.hello g.challenge) workerSignature =
      true := by
  simp only [acceptAuth, verifyWorkerAuth, ok_rules, Prod.mk.injEq] at h
  rcases h with ⟨_, -, _, -, _, ⟨_, -, hverified⟩, _, -, rfl, -⟩
  exact Bool.not_eq_false _ ▸ hverified

variable {session : AuthenticatedWorkerSession}

theorem acceptSession_eq_ok {t : Transcript} (h : acceptSession p g t x = .ok session) :
    session.workerPublicKey = g.hello.workerPublicKey ∧ session.sessionId = t.sessionId := by
  simp only [acceptSession, ok_rules] at h
  rcases h with ⟨_, -, rfl⟩
  exact ⟨rfl, rfl⟩

variable {q : WorkerParams}

theorem initiateChallenge_eq_ok {challenge : NodeChallengeV1}
    (h : initiateChallenge q x = .ok challenge) :
    challenge.nodeId = nodeIdFromPublicKey challenge.nodePublicKey ∧
      challenge.nodeId = q.expectedNodeId := by
  simp only [initiateChallenge, ok_rules, not_or, not_not] at h
  rcases h with ⟨_, -, _, -, _, -, _, hnode, rfl⟩
  exact hnode

theorem initiateAccept_eq_ok {challenge : NodeChallengeV1} {t : Transcript}
    (h : initiateAccept verify q challenge workerSignature x = .ok (t, session)) :
    ∃ nodeSignature, verify challenge.nodePublicKey
        (nodeAcceptMessage q.hello challenge workerSignature) nodeSignature = true ∧
      t = ⟨q.hello, challenge, workerSignature, nodeSignature,
        sessionId q.hello challenge workerSignature nodeSignature⟩ ∧
      session.sessionId = sessionId q.hello challenge workerSignature nodeSignature := by
  simp only [initiateAccept, verifyNodeAccept, ok_rules, Prod.mk.injEq] at h
  rcases h with ⟨_, -, nodeSignature, -, _, hverified, rfl, rfl⟩
  exact ⟨nodeSignature, Bool.not_eq_false _ ▸ hverified, rfl, rfl⟩

theorem reactNode_move (verify : Bytes32 → Bytes → Bytes64 → Bool) (active : Registries)
    (p : NodeParams) (x : Exchange) (signature : Bytes64) (state : NodeState) :
    ∃ next, (reactNode verify active p x signature state).run = .node p next ∧
      NodeMove verify p signature state (reactNode verify active p x signature state).signs
        next := by
  cases state with
  | awaitingHello =>
    cases h : acceptHello p x with
    | error e =>
      simp only [reactNode, h]
      exact ⟨_, rfl, .fail e (by simp)⟩
    | ok g =>
      simp only [reactNode, h]
      exact ⟨_, rfl, .greet rfl (acceptHello_eq_ok h)⟩
  | awaitingAuth g =>
    cases h : acceptAuth verify g (active p.registry) x with
    | error e =>
      simp only [reactNode, h]
      exact ⟨_, rfl, .fail e (by simp)⟩
    | ok claimed =>
      rcases claimed with ⟨workerSignature, claimed⟩
      simp only [reactNode, h]
      exact ⟨_, rfl, .accept rfl (acceptAuth_eq_ok h) fun _ => acceptSession_eq_ok⟩
  | accepted t result => exact ⟨_, rfl, .stay⟩
  | failed e => exact ⟨_, rfl, .stay⟩

theorem reactWorker_move (verify : Bytes32 → Bytes → Bytes64 → Bool) (active : Registries)
    (q : WorkerParams) (x : Exchange) (signature : Bytes64) (state : WorkerState) :
    ∃ next, (reactWorker verify active q x signature state).run = .worker q next ∧
      WorkerMove verify q signature state (reactWorker verify active q x signature state).signs
        next := by
  cases state with
  | begun =>
    cases h : initiateHello q x with
    | error e =>
      simp only [reactWorker, h]
      exact ⟨_, rfl, .fail e⟩
    | ok =>
      simp only [reactWorker, h]
      exact ⟨_, rfl, .greet rfl⟩
  | awaitingChallenge =>
    cases h : initiateChallenge q x with
    | error e =>
      simp only [reactWorker, h]
      exact ⟨_, rfl, .fail e⟩
    | ok challenge =>
      rcases initiateChallenge_eq_ok h with ⟨hnode, hpaired⟩
      simp only [reactWorker, h]
      refine ⟨_, rfl, .sign rfl hnode hpaired ?_⟩
      cases writeFrame q.workerMagic msgWorkerAuth q.requestId (Bytes.b64 signature)
        x.written with
      | error e => exact .inr ⟨e, rfl⟩
      | ok => exact .inl rfl
  | awaitingAccept challenge workerSignature =>
    cases h : initiateAccept verify q challenge workerSignature x with
    | error e =>
      simp only [reactWorker, h]
      exact ⟨_, rfl, .fail e⟩
    | ok done =>
      rcases done with ⟨t, session⟩
      rcases initiateAccept_eq_ok h with ⟨nodeSignature, hverified, rfl, hsession⟩
      simp only [reactWorker, h]
      exact ⟨_, rfl, .finish rfl hverified hsession⟩
  | finished t session => exact ⟨_, rfl, .stay⟩
  | failed signed e => exact ⟨_, rfl, .stay⟩

/-! ## What a state says -/

/-- The signatures a run has made. -/
def Run.Made : Run → Bytes32 → Bytes → Bytes64 → Prop
  | .node p (.accepted t _), k, m, s =>
    k = p.publicKey ∧ m = nodeAcceptMessage t.hello t.challenge t.workerSignature ∧
      s = t.nodeSignature
  | .node _ _, _, _, _ => False
  | .worker q state, k, m, s =>
    ∃ challenge, state.signed = some (challenge, s) ∧ k = q.publicKey ∧
      m = workerAuthMessage q.hello challenge

/-- The signatures a run has accepted. -/
def Run.Accepted : Run → Bytes32 → Bytes → Bytes64 → Prop
  | .node _ (.accepted t _), k, m, s =>
    k = t.hello.workerPublicKey ∧ m = workerAuthMessage t.hello t.challenge ∧
      s = t.workerSignature
  | .worker _ (.finished t _), k, m, s =>
    k = t.challenge.nodePublicKey ∧
      m = nodeAcceptMessage t.hello t.challenge t.workerSignature ∧ s = t.nodeSignature
  | _, _, _, _ => False

/-- The worker has checked whose challenge it is. -/
def WorkerParams.Paired (q : WorkerParams) (challenge : NodeChallengeV1) : Prop :=
  challenge.nodeId = nodeIdFromPublicKey challenge.nodePublicKey ∧
    challenge.nodeId = q.expectedNodeId

/-- What a state holds fits what the run was started with. -/
def Run.Coherent : Run → Prop
  | .node p (.awaitingAuth g) => g.challenge = p.challenge g.hello
  | .node p (.accepted t result) =>
    t.challenge = p.challenge t.hello ∧
      t.sessionId = sessionId t.hello t.challenge t.workerSignature t.nodeSignature ∧
      ∀ session, result = .ok session →
        session.workerPublicKey = t.hello.workerPublicKey ∧ session.sessionId = t.sessionId
  | .worker q (.awaitingAccept challenge _) => q.Paired challenge
  | .worker q (.finished t session) =>
    t.hello = q.hello ∧ q.Paired t.challenge ∧
      t.sessionId = sessionId t.hello t.challenge t.workerSignature t.nodeSignature ∧
      session.sessionId = t.sessionId
  | _ => True

variable {signs : Option (Bytes32 × Bytes)} {signature : Bytes64}

theorem NodeMove.coherent {state next : NodeState}
    (hmove : NodeMove verify p signature state signs next) (h : (Run.node p state).Coherent) :
    (Run.node p next).Coherent := by
  cases hmove with
  | stay => exact h
  | fail => trivial
  | greet hstate hchallenge => exact hchallenge
  | accept hstate hverified hresult =>
    subst hstate
    exact ⟨h, rfl, hresult⟩

variable {state next : WorkerState}

theorem WorkerMove.coherent (hmove : WorkerMove verify q signature state signs next)
    (h : (Run.worker q state).Coherent) :
    (Run.worker q next).Coherent := by
  cases hmove with
  | stay => exact h
  | fail => trivial
  | greet => trivial
  | sign hstate hnode hpaired hnext =>
    rcases hnext with rfl | ⟨e, rfl⟩
    · exact ⟨hnode, hpaired⟩
    · trivial
  | finish hstate hverified hsession =>
    subst hstate
    exact ⟨rfl, h, rfl, hsession⟩

variable {honest : Bytes32 → Bool} {rogue : Bytes32 → Bytes → Bytes64 → Bool}

omit [Crypto] in
theorem Run.eq_of_initial {r : Run} (h : r.initial = true) :
    (∃ p, r = .node p .awaitingHello) ∨ ∃ q, r = .worker q .begun := by
  cases r with
  | node p state =>
    cases state with
    | awaitingHello => exact .inl ⟨p, rfl⟩
    | _ => cases h
  | worker q state =>
    cases state with
    | begun => exact .inr ⟨q, rfl⟩
    | _ => cases h

theorem initial_of_mayStart {runs : List Run} {r : Run}
    (h : (handshake honest rogue).mayStart runs r = true) :
    r.initial = true ∧ r.nonce ∉ runs.map Run.nonce := by
  simpa [handshake] using h

/-- The runs of reachable worlds are coherent. -/
theorem coherent_of_reachable {active : Registries}
    {w : Sessions.World Bytes32 Bytes Bytes64 Registries Run}
    (hreach : Machine.Reachable (handshake honest rogue).step (.start active) w) :
    ∀ r ∈ w.runs, r.Coherent := by
  refine Sessions.System.forall_runs ?_ ?_ hreach
  · intro runs r hstart
    rcases Run.eq_of_initial (initial_of_mayStart hstart).1 with ⟨p, rfl⟩ | ⟨q, rfl⟩ <;> trivial
  · intro verify active r x signature hr
    cases r with
    | node p state =>
      rcases reactNode_move verify active p x signature state with ⟨next, hrun, hmove⟩
      change (reactNode verify active p x signature state).run.Coherent
      rw [hrun]
      exact hmove.coherent hr
    | worker q state =>
      rcases reactWorker_move verify active q x signature state with ⟨next, hrun, hmove⟩
      change (reactWorker verify active q x signature state).run.Coherent
      rw [hrun]
      exact hmove.coherent hr

theorem NodeMove.accounts {state next : NodeState}
    (hmove : NodeMove verify p signature state signs next) (k : Bytes32) (m : Bytes) (s : Bytes64) :
    (signs = some (k, m) → (Run.node p next).Made k m signature) ∧
      ((Run.node p state).Made k m s → (Run.node p next).Made k m s) ∧
      ((Run.node p next).Accepted k m s →
        (Run.node p state).Accepted k m s ∨ verify k m s = true) := by
  cases hmove with
  | stay => exact ⟨by simp, fun h => h, .inl⟩
  | fail e hbefore =>
    refine ⟨by simp, fun h => ?_, False.elim⟩
    cases state with
    | accepted t result => exact absurd rfl (hbefore t result)
    | _ => exact h
  | greet hstate =>
    subst hstate
    exact ⟨by simp, False.elim, False.elim⟩
  | accept hstate hverified =>
    subst hstate
    refine ⟨fun h => ?_, False.elim, ?_⟩
    · rw [Option.some.injEq, Prod.mk.injEq] at h
      exact ⟨h.1.symm, h.2.symm, rfl⟩
    · rintro ⟨rfl, rfl, rfl⟩
      exact .inr hverified

theorem WorkerMove.accounts (hmove : WorkerMove verify q signature state signs next) (k : Bytes32)
    (m : Bytes) (s : Bytes64) :
    (signs = some (k, m) → (Run.worker q next).Made k m signature) ∧
      ((Run.worker q state).Made k m s → (Run.worker q next).Made k m s) ∧
      ((Run.worker q next).Accepted k m s →
        (Run.worker q state).Accepted k m s ∨ verify k m s = true) := by
  cases hmove with
  | stay => exact ⟨by simp, fun h => h, .inl⟩
  | fail => exact ⟨by simp, fun h => h, False.elim⟩
  | greet hstate =>
    subst hstate
    exact ⟨by simp, fun h => h, False.elim⟩
  | @sign challenge next hstate hnode hpaired hnext =>
    subst hstate
    have hsigned : next.signed = some (challenge, signature) := by
      rcases hnext with rfl | ⟨e, rfl⟩ <;> rfl
    refine ⟨fun h => ?_, ?_, fun h => ?_⟩
    · rw [Option.some.injEq, Prod.mk.injEq] at h
      exact ⟨challenge, hsigned, h.1.symm, h.2.symm⟩
    · rintro ⟨challenge, hnone, -⟩
      cases hnone
    · rcases hnext with rfl | ⟨e, rfl⟩ <;> exact h.elim
  | finish hstate hverified =>
    subst hstate
    refine ⟨by simp, fun h => h, ?_⟩
    rintro ⟨rfl, rfl, rfl⟩
    exact .inr hverified

/-- What a run has signed and what it has accepted can be read off its state. -/
theorem accounts_handshake : (handshake honest rogue).Accounts Run.Made Run.Accepted := by
  have hreact (verify) (active) (r : Run) (x) (signature) (k) (m) (s) :
      (((handshake honest rogue).react verify active r x signature).signs = some (k, m) →
          ((handshake honest rogue).react verify active r x signature).run.Made k m signature) ∧
        (r.Made k m s →
          ((handshake honest rogue).react verify active r x signature).run.Made k m s) ∧
        (((handshake honest rogue).react verify active r x signature).run.Accepted k m s →
          r.Accepted k m s ∨ verify k m s = true) := by
    cases r with
    | node p state =>
      rcases reactNode_move verify active p x signature state with ⟨next, hrun, hmove⟩
      have haccounts := hmove.accounts k m s
      rwa [← hrun] at haccounts
    | worker q state =>
      rcases reactWorker_move verify active q x signature state with ⟨next, hrun, hmove⟩
      have haccounts := hmove.accounts k m s
      rwa [← hrun] at haccounts
  constructor
  · intro verify active r x signature k m
    exact (hreact verify active r x signature k m signature).1
  · intro verify active r x signature k m s
    exact (hreact verify active r x signature k m s).2.1
  · intro runs r k m s hstart haccepted
    rcases Run.eq_of_initial (initial_of_mayStart hstart).1 with ⟨p, rfl⟩ | ⟨q, rfl⟩ <;>
      exact haccepted
  · intro verify active r x signature k m s
    exact (hreact verify active r x signature k m s).2.2

/-! ## Agreement -/

section Worlds

variable {active : Registries} {w : Sessions.World Bytes32 Bytes Bytes64 Registries Run}
  (hreach : Machine.Reachable (handshake honest rogue).step (.start active) w)

include hreach

variable {t : Transcript}

/-- A worker signed what a node accepted from it. -/
theorem worker_of_accepted {p : NodeParams}
    {result : Except EndpointError AuthenticatedWorkerSession}
    (hrun : Run.node p (.accepted t result) ∈ w.runs)
    (hhonest : honest t.hello.workerPublicKey = true) :
    ∃ q state, Run.worker q state ∈ w.runs ∧ q.hello = t.hello ∧
      state.signed = some (t.challenge, t.workerSignature) := by
  have haccepted : (Run.node p (.accepted t result)).Accepted t.hello.workerPublicKey
      (workerAuthMessage t.hello t.challenge) t.workerSignature := ⟨rfl, rfl, rfl⟩
  rcases accounts_handshake.agreement hreach hrun haccepted hhonest
    (signedElsewhere_workerAuthMessage t.hello t.challenge) with ⟨r, hr, hmade⟩
  cases r with
  | node p' state =>
    cases state with
    | accepted t' result' => exact absurd hmade.2.1 workerAuthMessage_ne_nodeAcceptMessage
    | _ => exact hmade.elim
  | worker q state =>
    rcases hmade with ⟨challenge, hsigned, -, hmessage⟩
    rcases workerAuthMessage_inj.mp hmessage with ⟨hhello, hchallenge⟩
    exact ⟨q, state, hr, hhello.symm, hchallenge ▸ hsigned⟩

/-- A node signed what a worker accepted from it, and derived the same session identifier. -/
theorem node_of_finished {q : WorkerParams} {session : AuthenticatedWorkerSession}
    (hrun : Run.worker q (.finished t session) ∈ w.runs)
    (hhonest : honest t.challenge.nodePublicKey = true) :
    ∃ p result, Run.node p (.accepted t result) ∈ w.runs ∧
      p.publicKey = t.challenge.nodePublicKey := by
  have haccepted : (Run.worker q (.finished t session)).Accepted t.challenge.nodePublicKey
      (nodeAcceptMessage t.hello t.challenge t.workerSignature) t.nodeSignature := ⟨rfl, rfl, rfl⟩
  rcases accounts_handshake.agreement hreach hrun haccepted hhonest
    (signedElsewhere_nodeAcceptMessage t.hello t.challenge t.workerSignature) with ⟨r, hr, hmade⟩
  cases r with
  | worker q' state =>
    rcases hmade with ⟨challenge, -, -, hmessage⟩
    exact absurd hmessage.symm workerAuthMessage_ne_nodeAcceptMessage
  | node p state =>
    cases state with
    | accepted t' result =>
      rcases hmade with ⟨hkey, hmessage, hsignature⟩
      rcases nodeAcceptMessage_inj.mp hmessage with ⟨hhello, hchallenge, hworker⟩
      -- both identifiers are computed from the four parts
      have hfinished := (coherent_of_reachable hreach _ hrun).2.2.1
      have haccepted := (coherent_of_reachable hreach _ hr).2.1
      have heq : t' = t := by
        rcases t with ⟨hello, challenge, workerSignature, nodeSignature, id⟩
        rcases t' with ⟨hello', challenge', workerSignature', nodeSignature', id'⟩
        simp only at hhello hchallenge hworker hsignature hfinished haccepted
        subst hhello hchallenge hworker hsignature
        rw [haccepted, hfinished]
      subst heq
      exact ⟨p, result, hr, hkey.symm⟩
    | _ => exact hmade.elim

variable {r : Run}

omit hreach in
omit [Crypto] in
theorem Run.eq_of_transcript (ht : r.transcript = some t) :
    (∃ p result, r = .node p (.accepted t result)) ∨
      ∃ q session, r = .worker q (.finished t session) := by
  cases r with
  | node p state =>
    cases state with
    | accepted t' result =>
      cases ht
      exact .inl ⟨p, result, rfl⟩
    | _ => cases ht
  | worker q state =>
    cases state with
    | finished t' session =>
      cases ht
      exact .inr ⟨q, session, rfl⟩
    | _ => cases ht

/-- The identifier of a run is the hash of its transcript. -/
theorem sessionId_of_transcript (hr : r ∈ w.runs) (ht : r.transcript = some t) :
    t.sessionId = sessionId t.hello t.challenge t.workerSignature t.nodeSignature := by
  have hcoherent := coherent_of_reachable hreach r hr
  rcases Run.eq_of_transcript ht with ⟨p, result, rfl⟩ | ⟨q, session, rfl⟩
  · exact hcoherent.2.1
  · exact hcoherent.2.2.1

/-- The nonce of a run is in its transcript. -/
theorem nonce_of_transcript (hr : r ∈ w.runs) (ht : r.transcript = some t) :
    r.nonce = (r.nonce.1, if r.nonce.1 then t.challenge.nodeNonce else t.hello.workerNonce) := by
  have hcoherent := coherent_of_reachable hreach r hr
  rcases Run.eq_of_transcript ht with ⟨p, result, rfl⟩ | ⟨q, session, rfl⟩
  · simp [Run.nonce, hcoherent.1, NodeParams.challenge]
  · simp [Run.nonce, hcoherent.1, WorkerParams.hello]

/-- Two runs with one session identifier have one transcript, or there is a collision. -/
theorem transcript_eq_or_collision {r' : Run} {t' : Transcript} (hr : r ∈ w.runs)
    (hr' : r' ∈ w.runs) (ht : r.transcript = some t) (ht' : r'.transcript = some t')
    (hid : t.sessionId = t'.sessionId) :
    t = t' ∨ Collision (sessionPreimage t.hello t.challenge t.workerSignature t.nodeSignature)
      (sessionPreimage t'.hello t'.challenge t'.workerSignature t'.nodeSignature) := by
  have hhash := sessionId_of_transcript hreach hr ht
  have hhash' := sessionId_of_transcript hreach hr' ht'
  have hsame := (hhash.symm.trans hid).trans hhash'
  rcases eq_or_collision hsame with hpreimage | hcollision
  · rcases sessionPreimage_inj.mp hpreimage with ⟨hhello, hchallenge, hworker, hnode⟩
    left
    rcases t with ⟨hello, challenge, workerSignature, nodeSignature, id⟩
    rcases t' with ⟨hello', challenge', workerSignature', nodeSignature', id'⟩
    simp only at hhello hchallenge hworker hnode hid
    subst hhello hchallenge hworker hnode hid
    rfl
  · exact .inr hcollision

/-- Different runs of one end have different nonces. -/
theorem eq_of_nonce {i j : Nat} {r' : Run} (hi : w.runs[i]? = some r) (hj : w.runs[j]? = some r')
    (hnonce : r.nonce = r'.nonce) : i = j := by
  refine Sessions.System.eq_of_nonce (fun _ _ h => (initial_of_mayStart h).2) ?_ hreach hi hj
    hnonce
  intro verify active r x signature
  cases r with
  | node p state =>
    rcases reactNode_move verify active p x signature state with ⟨next, hrun, -⟩
    exact (congrArg Run.nonce hrun).trans rfl
  | worker q state =>
    rcases reactWorker_move verify active q x signature state with ⟨next, hrun, -⟩
    exact (congrArg Run.nonce hrun).trans rfl

end Worlds

/-- The handshake binds both ends.  When a node returns a session for the key of an honest
worker, that worker has run the handshake with the same greeting and signed the same challenge.
When a worker returns a session and is paired with an honest node, that node has reached its
acceptance with the same transcript and the same session identifier, or two keys collide as node
identifiers.  And two runs that derived one session identifier have the same nonces in their
transcripts, and are one run if they are of one end, or their transcripts collide. -/
theorem pairing_agreement {active : Registries}
    {w : Sessions.World Bytes32 Bytes Bytes64 Registries Run}
    (hreach : Machine.Reachable (handshake honest rogue).step (.start active) w) :
    (∀ p t session, Run.node p (.accepted t (.ok session)) ∈ w.runs →
      honest session.workerPublicKey = true →
      ∃ q state, Run.worker q state ∈ w.runs ∧ q.publicKey = session.workerPublicKey ∧
        q.hello = t.hello ∧ state.signed = some (t.challenge, t.workerSignature)) ∧
    (∀ q t session k, Run.worker q (.finished t session) ∈ w.runs → honest k = true →
      q.expectedNodeId = nodeIdFromPublicKey k →
      t.hello = q.hello ∧ session.sessionId = t.sessionId ∧
        ((∃ p result, Run.node p (.accepted t result) ∈ w.runs ∧ p.publicKey = k) ∨
          Collision (domainNodeId ++ Bytes.b32 t.challenge.nodePublicKey)
            (domainNodeId ++ Bytes.b32 k))) ∧
    ∀ (i j : Nat) (r r' : Run) (t t' : Transcript), w.runs[i]? = some r →
      w.runs[j]? = some r' → r.transcript = some t → r'.transcript = some t' →
      t.sessionId = t'.sessionId →
      (t.challenge.workerNonce = t'.challenge.workerNonce ∧
          t.challenge.nodeNonce = t'.challenge.nodeNonce ∧
          (r.nonce.1 = r'.nonce.1 → i = j)) ∨
        Collision (sessionPreimage t.hello t.challenge t.workerSignature t.nodeSignature)
          (sessionPreimage t'.hello t'.challenge t'.workerSignature t'.nodeSignature) := by
  refine ⟨?_, ?_, ?_⟩
  · intro p t session hrun hhonest
    have hkey := ((coherent_of_reachable hreach _ hrun).2.2 session rfl).1
    rw [hkey] at hhonest ⊢
    rcases worker_of_accepted hreach hrun hhonest with ⟨q, state, hq, hhello, hsigned⟩
    exact ⟨q, state, hq, hhello ▸ rfl, hhello, hsigned⟩
  · intro q t session k hrun hhonest hpaired
    rcases coherent_of_reachable hreach _ hrun with ⟨hhello, ⟨hderived, hexpected⟩, -, hsession⟩
    refine ⟨hhello, hsession, ?_⟩
    have hids := (hderived.symm.trans hexpected).trans hpaired
    simp only [nodeIdFromPublicKey, hashParts, List.flatten_cons, List.flatten_nil,
      List.append_nil] at hids
    rcases eq_or_collision hids with hkeys | hcollision
    · have hkey : t.challenge.nodePublicKey = k := by
        rwa [List.append_cancel_left_eq, Bytes.b32_inj] at hkeys
      rw [← hkey] at hhonest
      rcases node_of_finished hreach hrun hhonest with ⟨p, result, hp, hpublic⟩
      exact .inl ⟨p, result, hp, hpublic.trans hkey⟩
    · exact .inr hcollision
  · intro i j r r' t t' hi hj ht ht' hid
    have hr := List.mem_of_getElem? hi
    have hr' := List.mem_of_getElem? hj
    rcases transcript_eq_or_collision hreach hr hr' ht ht' hid with rfl | hcollision
    · refine .inl ⟨rfl, rfl, fun hend => ?_⟩
      have hnonce : r.nonce = r'.nonce := by
        rw [nonce_of_transcript hreach hr ht, nonce_of_transcript hreach hr' ht', hend]
      exact eq_of_nonce hreach hi hj hnonce
    · exact .inr hcollision

end Handshake

/-! ## A session -/

section Sample

attribute [local instance] sampleCrypto

def sampleNode : NodeParams where
  workerMagic := 1
  networkId := 2
  publicKey := 3
  nodeNonce := 4
  nodeCapabilities := 5
  allowedWorkers := [workerId 2 6]
  registry := 0

def sampleWorker : WorkerParams where
  workerMagic := 1
  networkId := 2
  publicKey := 6
  workerNonce := 7
  workerCapabilities := 8
  maxParallelism := 9
  requestId := 10
  expectedNodeId := nodeIdFromPublicKey 3

/-- A frame of the sample session that arrives, while what is sent next is written. -/
def sampleExchange (messageType : UInt16) (payload : Bytes) : Exchange where
  received := .ok ⟨1, p2pVersion, messageType, 0, 10, payload⟩
  written := .ok ()

/-- A worker and a node, between which the frames are carried. -/
def sampleSchedule : List (Sessions.Action Bytes32 Bytes Bytes64 Exchange (Nat × Bytes32) Run) :=
  [.start (.node sampleNode .awaitingHello), .start (.worker sampleWorker .begun),
    .deliver 1 (sampleExchange 0 []) 0,
    .deliver 0 (sampleExchange msgWorkerHello sampleWorker.hello.encode) 0,
    .deliver 1 (sampleExchange msgNodeChallenge (sampleNode.challenge sampleWorker.hello).encode)
      11,
    .deliver 0 (sampleExchange msgWorkerAuth (Bytes.b64 11)) 12,
    .deliver 1 (sampleExchange msgNodeAccept (Bytes.b64 12)) 0]

/-- Whether both ends have returned a session, with the same identifier. -/
def bothPaired (runs : List Run) : Bool :=
  match runs with
  | [.node _ (.accepted t (.ok session)), .worker _ (.finished t' session')] =>
    t == t' && session.sessionId == session'.sessionId
  | _ => false

/-- The two runs of the session end with one transcript, and the node's acceptance is explained
by the worker's run. -/
theorem sample_session_agrees :
    ∃ w, Machine.run (handshake (fun _ => true) fun _ _ _ => false).step (.start fun _ => [])
        sampleSchedule = some w ∧ bothPaired w.runs = true ∧
      ∀ p t session, Run.node p (.accepted t (.ok session)) ∈ w.runs →
        ∃ q state, Run.worker q state ∈ w.runs ∧ q.publicKey = session.workerPublicKey ∧
          q.hello = t.hello ∧ state.signed = some (t.challenge, t.workerSignature) := by
  have hrun : (Machine.run (handshake (fun _ => true) fun _ _ _ => false).step
      (.start fun _ => []) sampleSchedule).map (fun w => bothPaired w.runs) = some true := by
    decide +kernel
  rcases Option.map_eq_some_iff.mp hrun with ⟨w, hw, hpaired⟩
  refine ⟨w, hw, hpaired, fun p t session hp => ?_⟩
  exact (pairing_agreement ⟨sampleSchedule, hw⟩).1 p t session hp rfl

end Sample

end Mutiny.Worker
