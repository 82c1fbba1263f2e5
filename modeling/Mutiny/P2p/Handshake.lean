import Mutiny.Crypto
import Mutiny.Lib.Sessions
import Mutiny.P2p.Frame

/-!
# The handshake of two peers

The initiator sends a challenge, the responder signs the transcript of both and sends its
greeting, and the initiator signs the same transcript under another domain.  The two ends are
cut where they wait for a frame.  Any number of runs of both take place over a network that is
in the hands of an attacker.

Main result:

- Theorem {lit}`p2p_handshake_authentic`: a run with an honest peer has one partner, or
  SHA-256 collides.
-/

namespace Mutiny

namespace Domains

def nodeId : Bytes := Bytes.ascii "MUTINY-NODE-ID-V1"
def p2pHandshake : Bytes := Bytes.ascii "MUTINY-P2P-HANDSHAKE-V1"
def p2pHelloSign : Bytes := Bytes.ascii "MUTINY-P2P-HELLO-SIGN-V1"
def p2pAckSign : Bytes := Bytes.ascii "MUTINY-P2P-ACK-SIGN-V1"

end Domains

namespace P2p

open Result

def msgChallenge : UInt16 := 0x0001
def msgHello : UInt16 := 0x0002
def msgHelloAck : UInt16 := 0x0003

/-- What a run learns of its peer. -/
structure PeerInfo where
  nodePublicKey : Bytes32
  nodeId : Bytes32
  capabilities : UInt32
  selectedVersion : UInt16
deriving DecidableEq, Repr

/-! ## Transcripts -/

/-- What both ends hash: {lit}`a` is the initiator, {lit}`b` the responder. -/
@[ext]
structure Transcript where
  network : UInt32
  version : UInt16
  ca : UInt32
  cb : UInt32
  pa : Bytes32
  pb : Bytes32
  na : Bytes32
  nb : Bytes32
deriving DecidableEq, Repr

/-- The two ends of a handshake. -/
inductive Role where
  | initiator
  | responder
deriving DecidableEq, Repr

/-- The role of the peer. -/
def Role.other : Role → Role
  | .initiator => .responder
  | .responder => .initiator

/-- The domain under which an end signs. -/
def Role.domain : Role → Bytes
  | .initiator => Domains.p2pAckSign
  | .responder => Domains.p2pHelloSign

/-- What the hash of a transcript is the hash of. -/
def Transcript.preimage (t : Transcript) : Bytes :=
  Domains.p2pHandshake ++ [Bytes.u32 t.network, Bytes.u16 t.version, Bytes.u32 t.ca,
    Bytes.u32 t.cb, Bytes.b32 t.pa, Bytes.b32 t.pb, Bytes.b32 t.na, Bytes.b32 t.nb].flatten

/-- What is hashed determines the transcript. -/
theorem Transcript.preimage_inj {t t' : Transcript} : t.preimage = t'.preimage ↔ t = t' := by
  constructor
  · intro h
    simp only [preimage, List.flatten_cons, List.flatten_nil, List.append_nil,
      List.append_cancel_left_eq, Bytes.be_append_inj] at h
    rcases h with ⟨hnetwork, hversion, hca, hcb, hpa, hpb, hna, hnb⟩
    exact Transcript.ext (Bytes.u32_inj.mp hnetwork) (Bytes.u16_inj.mp hversion)
      (Bytes.u32_inj.mp hca) (Bytes.u32_inj.mp hcb) (Bytes.b32_inj.mp hpa) (Bytes.b32_inj.mp hpb)
      (Bytes.b32_inj.mp hna) (Bytes.b32_inj.mp hnb)
  · exact congrArg _

/-- The key of the other end. -/
def Transcript.peerKey (t : Transcript) : Role → Bytes32
  | .initiator => t.pb
  | .responder => t.pa

/-- The capabilities of the other end. -/
def Transcript.peerCapabilities (t : Transcript) : Role → UInt32
  | .initiator => t.cb
  | .responder => t.ca

section Handshake

variable [Crypto]

def transcript (network : UInt32) (version : UInt16) (ca cb : UInt32) (pa pb na nb : Bytes32) :
    Bytes32 :=
  sha256Domain Domains.p2pHandshake [Bytes.u32 network, Bytes.u16 version, Bytes.u32 ca,
    Bytes.u32 cb, Bytes.b32 pa, Bytes.b32 pb, Bytes.b32 na, Bytes.b32 nb]

def nodeId (pk : Bytes32) : Bytes32 := sha256Domain Domains.nodeId [Bytes.b32 pk]

def Transcript.hash (t : Transcript) : Bytes32 :=
  transcript t.network t.version t.ca t.cb t.pa t.pb t.na t.nb

/-- What an end signs. -/
def Role.digest (role : Role) (t : Transcript) : Bytes32 :=
  sha256Domain role.domain [Bytes.b32 t.hash]

/-- What the signed digest is the hash of. -/
def Role.preimage (role : Role) (t : Transcript) : Bytes := role.domain ++ Bytes.b32 t.hash

theorem Role.sha256_preimage (role : Role) (t : Transcript) :
    Crypto.sha256 (role.preimage t) = role.digest t := by
  simp [preimage, digest, sha256Domain]

/-- The domains differ in length, and so does what the two ends sign. -/
theorem Role.preimage_ne {role role' : Role} (hne : role ≠ role') (t t' : Transcript) :
    role.preimage t ≠ role'.preimage t' := by
  have hdomains : role.domain.length ≠ role'.domain.length := by
    cases role <;> cases role' <;> first | exact absurd rfl hne | decide
  intro h
  have hlength := congrArg List.length h
  rw [preimage, preimage, List.length_append, List.length_append, Bytes.length_be,
    Bytes.length_be] at hlength
  omega

variable {t : Transcript}

/-- Two ends that sign the same digest have different roles or transcripts only if SHA-256
collides, on one of two pairs of inputs. -/
theorem Role.digest_eq {role role' : Role} {t' : Transcript} (h : role.digest t = role'.digest t') :
    role = role' ∧ t = t' ∨ Collision (role.preimage t) (role'.preimage t') ∨
      Collision t.preimage t'.preimage := by
  rw [← sha256_preimage, ← sha256_preimage] at h
  rcases eq_or_collision h with hpreimage | hcollision
  · by_cases hrole : role = role'
    · subst hrole
      rw [preimage, preimage, List.append_cancel_left_eq, Bytes.b32_inj] at hpreimage
      rcases eq_or_collision hpreimage with htranscript | hcollision
      · exact .inl ⟨rfl, Transcript.preimage_inj.mp htranscript⟩
      · exact .inr (.inr hcollision)
    · exact absurd hpreimage (preimage_ne hrole t t')
  · exact .inr (.inl hcollision)

/-! ## The two ends -/

/-- What an end brings to a run. -/
structure Params where
  publicKey : Bytes32
  caps : UInt32
  network : UInt32
  magic : UInt32
  nonce : Bytes32

/-- A signature is checked. -/
def verify (verifies : Bytes32 → Bytes → Bytes64 → Bool) (pk digest : Bytes32) (sig : Bytes64) :
    Except P2pError Unit := do
  reject (Crypto.validPublicKey pk = false) .badPublicKey
  reject (verifies pk (Bytes.b32 digest) sig = false) .badSignature

/-- What a completed run says about its peer. -/
def peerInfo (role : Role) (t : Transcript) : PeerInfo where
  nodePublicKey := t.peerKey role
  nodeId := nodeId (t.peerKey role)
  capabilities := t.peerCapabilities role
  selectedVersion := 1

/-- {lit}`initiator_handshake` up to the read of the greeting. -/
def initiatorChallenge (p : Params) (x : Exchange) : Except P2pError Unit :=
  sendFrame p.magic msgChallenge 1 (Bytes.u32 p.network ++ (Bytes.u16 1 ++ (Bytes.u16 1 ++
    (Bytes.u32 p.caps ++ (Bytes.b32 p.publicKey ++ Bytes.b32 p.nonce))))) x.written

/-- From there up to the initiator's signature: the transcript and the signature of the
responder. -/
def initiatorHello (verifies : Bytes32 → Bytes → Bytes64 → Bool) (p : Params) (x : Exchange) :
    Except P2pError (Transcript × Bytes64) := do
  let f ← x.received
  reject (f.messageType ≠ msgHello ∨ f.payload.length ≠ 170) .unexpectedMessage
  let (net, bytes) := Bytes.cut 4 f.payload
  reject (Bytes.toU32 net ≠ p.network) .networkMismatch
  let (ver, bytes) := Bytes.cut 2 bytes
  reject (Bytes.toU16 ver ≠ 1) .badVersion
  let (cb, bytes) := Bytes.cut 4 bytes
  let (pb, bytes) := Bytes.cut 32 bytes
  let (echoed, bytes) := Bytes.cut 32 bytes
  reject (Bytes.toB32 echoed ≠ p.nonce) .nonceMismatch
  let (nb, sig) := Bytes.cut 32 bytes
  let t : Transcript :=
    { network := p.network, version := 1, ca := p.caps, cb := Bytes.toU32 cb, pa := p.publicKey,
      pb := Bytes.toB32 pb, na := p.nonce, nb := Bytes.toB32 nb }
  verify verifies t.pb (Role.responder.digest t) (Bytes.toB64 sig)
  .ok (t, Bytes.toB64 sig)

/-- From the initiator's signature to the end. -/
def initiatorAck (p : Params) (t : Transcript) (signature : Bytes64) (x : Exchange) :
    Except P2pError PeerInfo := do
  sendFrame p.magic msgHelloAck 1 (Bytes.u32 p.network ++ (Bytes.u16 1 ++ (Bytes.b32 t.nb ++
    Bytes.b64 signature))) x.written
  .ok (peerInfo .initiator t)

/-- {lit}`responder_handshake` up to the responder's signature: the identifier of the request
and the transcript. -/
def responderChallenge (p : Params) (x : Exchange) : Except P2pError (UInt64 × Transcript) := do
  let f ← x.received
  reject (f.messageType ≠ msgChallenge ∨ f.payload.length ≠ 76) .unexpectedMessage
  let (net, bytes) := Bytes.cut 4 f.payload
  reject (Bytes.toU32 net ≠ p.network) .networkMismatch
  let (min, bytes) := Bytes.cut 2 bytes
  let (max, bytes) := Bytes.cut 2 bytes
  reject (1 < Bytes.toU16 min ∨ Bytes.toU16 max < 1) .badVersion
  let (ca, bytes) := Bytes.cut 4 bytes
  let (pa, na) := Bytes.cut 32 bytes
  reject (Crypto.validPublicKey (Bytes.toB32 pa) = false) .badPublicKey
  .ok (f.requestId,
    { network := p.network, version := 1, ca := Bytes.toU32 ca, cb := p.caps,
      pa := Bytes.toB32 pa, pb := p.publicKey, na := Bytes.toB32 na, nb := p.nonce })

/-- From the responder's signature up to the read of the acknowledgement. -/
def responderHello (p : Params) (requestId : UInt64) (t : Transcript) (signature : Bytes64)
    (x : Exchange) : Except P2pError Unit :=
  sendFrame p.magic msgHello requestId (Bytes.u32 p.network ++ (Bytes.u16 1 ++ (Bytes.u32 p.caps ++
    (Bytes.b32 p.publicKey ++ (Bytes.b32 t.na ++ (Bytes.b32 p.nonce ++ Bytes.b64 signature))))))
    x.written

/-- From there to the end: the signature of the initiator. -/
def responderAck (verifies : Bytes32 → Bytes → Bytes64 → Bool) (p : Params) (t : Transcript)
    (x : Exchange) : Except P2pError Bytes64 := do
  let a ← x.received
  reject (a.messageType ≠ msgHelloAck ∨ a.payload.length ≠ 102) .unexpectedMessage
  let (net, bytes) := Bytes.cut 4 a.payload
  reject (Bytes.toU32 net ≠ p.network) .networkMismatch
  let (_, bytes) := Bytes.cut 2 bytes
  let (echoed, sig) := Bytes.cut 32 bytes
  reject (Bytes.toB32 echoed ≠ p.nonce) .nonceMismatch
  verify verifies t.pa (Role.initiator.digest t) (Bytes.toB64 sig)
  .ok (Bytes.toB64 sig)

/-! ## Runs -/

/-- Where a run stands. -/
inductive State where
  | begun
  /-- An initiator that waits for the greeting. -/
  | challenged
  /-- A responder that waits for the acknowledgement, and its signature. -/
  | greeted (t : Transcript) (signature : Bytes64)
  /-- The peer's signature was accepted; both signatures and what the function returns. -/
  | completed (t : Transcript) (signature peerSignature : Bytes64)
      (result : Except P2pError PeerInfo)
  /-- Failed, before or after it has signed a transcript. -/
  | failed (signed : Option (Transcript × Bytes64)) (e : P2pError)

/-- The transcript a run has signed, and its signature. -/
def State.signed : State → Option (Transcript × Bytes64)
  | .begun | .challenged => none
  | .greeted t signature | .completed t signature _ _ => some (t, signature)
  | .failed signed _ => signed

/-- A run of the handshake. -/
structure Run where
  role : Role
  params : Params
  state : State

/-- Nothing is shared between runs. -/
abbrev Reacts := Sessions.Reaction Bytes32 Bytes Unit Run

/-- The run goes on in another state. -/
def Run.goOn (r : Run) (state : State) (signs : Option (Bytes32 × Bytes)) : Reacts where
  run := { r with state := state }
  shared := ()
  signs := signs

/-- What the run signs. -/
def Run.message (r : Run) (t : Transcript) : Bytes32 × Bytes :=
  (r.params.publicKey, Bytes.b32 (r.role.digest t))

/-- What an initiator does. -/
def reactInitiator (verifies : Bytes32 → Bytes → Bytes64 → Bool) (r : Run) (x : Exchange)
    (signature : Bytes64) : Reacts :=
  match r.state with
  | .begun =>
    match initiatorChallenge r.params x with
    | .error e => r.goOn (.failed none e) none
    | .ok () => r.goOn .challenged none
  | .challenged =>
    match initiatorHello verifies r.params x with
    | .error e => r.goOn (.failed none e) none
    | .ok (t, peerSignature) =>
      r.goOn (.completed t signature peerSignature (initiatorAck r.params t signature x))
        (some (r.message t))
  | state => r.goOn state none

/-- What a responder does. -/
def reactResponder (verifies : Bytes32 → Bytes → Bytes64 → Bool) (r : Run) (x : Exchange)
    (signature : Bytes64) : Reacts :=
  match r.state with
  | .begun =>
    match responderChallenge r.params x with
    | .error e => r.goOn (.failed none e) none
    | .ok (requestId, t) =>
      match responderHello r.params requestId t signature x with
      | .error e => r.goOn (.failed (some (t, signature)) e) (some (r.message t))
      | .ok () => r.goOn (.greeted t signature) (some (r.message t))
  | .greeted t own =>
    match responderAck verifies r.params t x with
    | .error e => r.goOn (.failed (some (t, own)) e) none
    | .ok peerSignature =>
      r.goOn (.completed t own peerSignature (.ok (peerInfo .responder t))) none
  | state => r.goOn state none

/-- The run has not done anything yet. -/
def Run.initial (r : Run) : Bool :=
  match r.state with
  | .begun => true
  | _ => false

/-- The nonce a run starts with, and the end that uses it. -/
def Run.nonce (r : Run) : Role × Bytes32 := (r.role, r.params.nonce)

/-- The handshake, for the keys of honest parties.  Outside of it they sign nothing of the length
of a digest. -/
def handshake (honest : Bytes32 → Bool) (rogue : Bytes32 → Bytes → Bytes64 → Bool) :
    Sessions.System Bytes32 Bytes Bytes64 Exchange Unit Unit Run where
  honest := honest
  rogue := rogue
  elsewhere message := message.length != 32
  mayStart runs r := r.initial && decide (r.nonce ∉ runs.map Run.nonce)
  react verifies _ r x signature :=
    match r.role with
    | .initiator => reactInitiator verifies r x signature
    | .responder => reactResponder verifies r x signature
  outside _ _ := ()

/-! ## What a reaction does -/

/-- The transcript has what the run was started with in the place of its end. -/
def Run.Own (r : Run) (t : Transcript) : Prop :=
  t.network = r.params.network ∧ t.version = 1 ∧
    match r.role with
    | .initiator => t.ca = r.params.caps ∧ t.pa = r.params.publicKey ∧ t.na = r.params.nonce
    | .responder => t.cb = r.params.caps ∧ t.pb = r.params.publicKey ∧ t.nb = r.params.nonce

/-- All that a run can do with what it receives: the message it signs, if any, and its next
state. -/
inductive Move (verifies : Bytes32 → Bytes → Bytes64 → Bool) (r : Run) (signature : Bytes64) :
    Option (Bytes32 × Bytes) → State → Prop
  | stay : Move verifies r signature none r.state
  | fail (e : P2pError) : Move verifies r signature none (.failed r.state.signed e)
  | challenge (hnone : r.state.signed = none) : Move verifies r signature none .challenged
  | greet {t : Transcript} {next : State} (hnone : r.state.signed = none) (hown : r.Own t)
      (hnext : next = .greeted t signature ∨ ∃ e, next = .failed (some (t, signature)) e) :
      Move verifies r signature (some (r.message t)) next
  | complete {t : Transcript} {own peerSignature : Bytes64} {result : Except P2pError PeerInfo}
      {signs : Option (Bytes32 × Bytes)}
      (hsigned : r.state.signed = none ∧ signs = some (r.message t) ∧ own = signature ∨
        r.state = .greeted t own ∧ signs = none)
      (hown : r.state.signed = none → r.Own t)
      (hverified : verifies (t.peerKey r.role) (Bytes.b32 (r.role.other.digest t))
        peerSignature = true)
      (hresult : ∀ info, result = .ok info → info = peerInfo r.role t) :
      Move verifies r signature signs (.completed t own peerSignature result)

variable {verifies : Bytes32 → Bytes → Bytes64 → Bool}

theorem verify_eq_ok {pk digest : Bytes32} {sig : Bytes64} {u : Unit}
    (h : verify verifies pk digest sig = .ok u) :
    verifies pk (Bytes.b32 digest) sig = true := by
  simp only [verify, ok_rules] at h
  rcases h with ⟨_, -, hverified⟩
  exact Bool.not_eq_false _ ▸ hverified

variable {r : Run} {x : Exchange}

theorem initiatorHello_eq_ok {peerSignature : Bytes64} (hrole : r.role = .initiator)
    (h : initiatorHello verifies r.params x = .ok (t, peerSignature)) :
    r.Own t ∧ verifies t.pb (Bytes.b32 (Role.responder.digest t)) peerSignature = true := by
  simp only [initiatorHello, ok_rules, Prod.mk.injEq] at h
  rcases h with ⟨_, -, _, -, _, -, _, -, _, -, _, hverified, rfl, rfl⟩
  refine ⟨⟨rfl, rfl, ?_⟩, verify_eq_ok hverified⟩
  rw [hrole]
  exact ⟨rfl, rfl, rfl⟩

variable {signature : Bytes64}

theorem initiatorAck_eq_ok {p : Params} {info : PeerInfo}
    (h : initiatorAck p t signature x = .ok info) :
    info = peerInfo .initiator t := by
  simp only [initiatorAck, ok_rules] at h
  rcases h with ⟨_, -, rfl⟩
  rfl

theorem responderChallenge_eq_ok {requestId : UInt64} (hrole : r.role = .responder)
    (h : responderChallenge r.params x = .ok (requestId, t)) :
    r.Own t := by
  simp only [responderChallenge, ok_rules, Prod.mk.injEq] at h
  rcases h with ⟨_, -, _, -, _, -, _, -, _, -, -, rfl⟩
  refine ⟨rfl, rfl, ?_⟩
  rw [hrole]
  exact ⟨rfl, rfl, rfl⟩

theorem responderAck_eq_ok {p : Params} {peerSignature : Bytes64}
    (h : responderAck verifies p t x = .ok peerSignature) :
    verifies t.pa (Bytes.b32 (Role.initiator.digest t)) peerSignature = true := by
  simp only [responderAck, ok_rules] at h
  rcases h with ⟨_, -, _, -, _, -, _, -, _, hverified, rfl⟩
  exact verify_eq_ok hverified

/-- A reaction is a move of its run. -/
def Moves (verifies : Bytes32 → Bytes → Bytes64 → Bool) (r : Run) (signature : Bytes64)
    (reaction : Reacts) : Prop :=
  ∃ next, reaction.run = { r with state := next } ∧
    Move verifies r signature reaction.signs next

theorem reactInitiator_moves (verifies : Bytes32 → Bytes → Bytes64 → Bool)
    (hrole : r.role = .initiator) (x : Exchange) (signature : Bytes64) :
    Moves verifies r signature (reactInitiator verifies r x signature) := by
  rcases r with ⟨role, p, state⟩
  obtain rfl : role = .initiator := hrole
  cases state with
  | begun =>
    cases h : initiatorChallenge p x with
    | error e =>
      simp only [reactInitiator, h]
      exact ⟨_, rfl, .fail e⟩
    | ok =>
      simp only [reactInitiator, h]
      exact ⟨_, rfl, .challenge rfl⟩
  | challenged =>
    cases h : initiatorHello verifies p x with
    | error e =>
      simp only [reactInitiator, h]
      exact ⟨_, rfl, .fail e⟩
    | ok hello =>
      rcases hello with ⟨t, peerSignature⟩
      rcases initiatorHello_eq_ok (r := ⟨.initiator, p, .challenged⟩) rfl h with
        ⟨hown, hverified⟩
      simp only [reactInitiator, h]
      exact ⟨_, rfl, .complete (.inl ⟨rfl, rfl, rfl⟩) (fun _ => hown) hverified
        fun _ => initiatorAck_eq_ok⟩
  | greeted t own => exact ⟨_, rfl, .stay⟩
  | completed t own peerSignature result => exact ⟨_, rfl, .stay⟩
  | failed signed e => exact ⟨_, rfl, .stay⟩

theorem reactResponder_moves (verifies : Bytes32 → Bytes → Bytes64 → Bool)
    (hrole : r.role = .responder) (x : Exchange) (signature : Bytes64) :
    Moves verifies r signature (reactResponder verifies r x signature) := by
  rcases r with ⟨role, p, state⟩
  obtain rfl : role = .responder := hrole
  cases state with
  | begun =>
    cases h : responderChallenge p x with
    | error e =>
      simp only [reactResponder, h]
      exact ⟨_, rfl, .fail e⟩
    | ok challenge =>
      rcases challenge with ⟨requestId, t⟩
      have hown := responderChallenge_eq_ok (r := ⟨.responder, p, .begun⟩) rfl h
      cases hsent : responderHello p requestId t signature x with
      | error e =>
        simp only [reactResponder, h, hsent]
        exact ⟨_, rfl, .greet rfl hown (.inr ⟨e, rfl⟩)⟩
      | ok =>
        simp only [reactResponder, h, hsent]
        exact ⟨_, rfl, .greet rfl hown (.inl rfl)⟩
  | greeted t own =>
    cases h : responderAck verifies p t x with
    | error e =>
      simp only [reactResponder, h]
      exact ⟨_, rfl, .fail e⟩
    | ok peerSignature =>
      simp only [reactResponder, h]
      refine ⟨_, rfl, .complete (.inr ⟨rfl, rfl⟩) (by simp [State.signed])
        (responderAck_eq_ok h) ?_⟩
      rintro info ⟨rfl⟩
      rfl
  | challenged => exact ⟨_, rfl, .stay⟩
  | completed t own peerSignature result => exact ⟨_, rfl, .stay⟩
  | failed signed e => exact ⟨_, rfl, .stay⟩

variable {honest : Bytes32 → Bool} {rogue : Bytes32 → Bytes → Bytes64 → Bool}

variable (honest rogue) in
theorem react_moves (verifies : Bytes32 → Bytes → Bytes64 → Bool) (u : Unit) (r : Run)
    (x : Exchange) (signature : Bytes64) :
    Moves verifies r signature ((handshake honest rogue).react verifies u r x signature) := by
  rcases hrole : r.role with _ | _
  · simp only [handshake, hrole]
    exact reactInitiator_moves verifies hrole x signature
  · simp only [handshake, hrole]
    exact reactResponder_moves verifies hrole x signature

/-! ## What a state says -/

/-- The signatures a run has made. -/
def Run.Made (r : Run) (k : Bytes32) (m : Bytes) (s : Bytes64) : Prop :=
  ∃ t, r.state.signed = some (t, s) ∧ (k, m) = r.message t

/-- The signatures a run has accepted. -/
def Run.Accepted (r : Run) (k : Bytes32) (m : Bytes) (s : Bytes64) : Prop :=
  ∃ t own result, r.state = .completed t own s result ∧ k = t.peerKey r.role ∧
    m = Bytes.b32 (r.role.other.digest t)

/-- What a state holds fits what the run was started with. -/
structure Run.Coherent (r : Run) : Prop where
  own : ∀ t s, r.state.signed = some (t, s) → r.Own t
  peer : ∀ t own s info, r.state = .completed t own s (.ok info) → info = peerInfo r.role t

variable {signs : Option (Bytes32 × Bytes)}

theorem Move.coherent {next : State} (hmove : Move verifies r signature signs next) (h : r.Coherent)
    :
    Run.Coherent { r with state := next } := by
  cases hmove with
  | stay => exact h
  | fail e => exact ⟨h.own, by simp⟩
  | challenge => exact ⟨by simp [State.signed], by simp⟩
  | greet hnone hown hnext =>
    rcases hnext with rfl | ⟨e, rfl⟩
    · refine ⟨?_, by simp⟩
      rintro t s ⟨rfl, rfl⟩
      exact hown
    · refine ⟨?_, by simp⟩
      rintro t s ⟨rfl, rfl⟩
      exact hown
  | complete hsigned hown hverified hresult =>
    constructor
    · rintro t s ⟨rfl, rfl⟩
      rcases hsigned with ⟨hnone, -, -⟩ | ⟨hstate, -⟩
      · exact hown hnone
      · exact h.own _ _ (by rw [hstate]; rfl)
    · rintro t own s info ⟨rfl, rfl, rfl, rfl⟩
      exact hresult info rfl

theorem Move.accounts {next : State} (hmove : Move verifies r signature signs next) (k : Bytes32)
    (m : Bytes) (s : Bytes64) :
    (signs = some (k, m) → Run.Made { r with state := next } k m signature) ∧
      (r.Made k m s → Run.Made { r with state := next } k m s) ∧
      (Run.Accepted { r with state := next } k m s → r.Accepted k m s ∨
        verifies k m s = true) := by
  cases hmove with
  | stay => exact ⟨by simp, fun h => h, .inl⟩
  | fail e =>
    refine ⟨by simp, fun h => h, ?_⟩
    rintro ⟨t, own, result, hstate, -⟩
    cases hstate
  | challenge hnone =>
    refine ⟨by simp, ?_, ?_⟩
    · rintro ⟨t, hsigned, -⟩
      rw [hnone] at hsigned
      cases hsigned
    · rintro ⟨t, own, result, hstate, -⟩
      cases hstate
  | @greet t next hnone hown hnext =>
    have hsigned : next.signed = some (t, signature) := by
      rcases hnext with rfl | ⟨e, rfl⟩ <;> rfl
    refine ⟨fun h => ⟨t, hsigned, (Option.some.inj h).symm⟩, ?_, ?_⟩
    · rintro ⟨t, hbefore, -⟩
      rw [hnone] at hbefore
      cases hbefore
    · rintro ⟨t, own, result, hstate, -⟩
      rcases hnext with rfl | ⟨e, rfl⟩ <;> cases hstate
  | @complete t own peerSignature result signs hsigned hown hverified hresult =>
    refine ⟨fun h => ?_, fun hmade => ?_, ?_⟩
    · rcases hsigned with ⟨-, hmessage, rfl⟩ | ⟨-, hnone⟩
      · exact ⟨t, rfl, Option.some.inj (h.symm.trans hmessage)⟩
      · rw [hnone] at h
        cases h
    · rcases hmade with ⟨t', hbefore, hmessage⟩
      rcases hsigned with ⟨hnone, -, -⟩ | ⟨hstate, -⟩
      · rw [hnone] at hbefore
        cases hbefore
      · rw [hstate] at hbefore
        cases hbefore
        exact ⟨t, rfl, hmessage⟩
    · rintro ⟨t, own, result, ⟨rfl, rfl, rfl, rfl⟩, rfl, rfl⟩
      exact .inr hverified

theorem initial_of_mayStart {runs : List Run} (h : (handshake honest rogue).mayStart runs r = true)
    :
    r.state = .begun ∧ r.nonce ∉ runs.map Run.nonce := by
  simp only [handshake, Bool.and_eq_true, decide_eq_true_eq] at h
  refine ⟨?_, h.2⟩
  rcases r with ⟨role, p, _ | _ | _ | _ | _⟩
  · rfl
  all_goals cases h.1

/-- What a run has signed and what it has accepted can be read off its state. -/
theorem accounts_handshake : (handshake honest rogue).Accounts Run.Made Run.Accepted := by
  constructor
  · intro verifies u r x signature k m
    rcases react_moves honest rogue verifies u r x signature
      with ⟨next, hrun, hmove⟩
    rw [hrun]
    exact (hmove.accounts k m signature).1
  · intro verifies u r x signature k m s
    rcases react_moves honest rogue verifies u r x signature
      with ⟨next, hrun, hmove⟩
    rw [hrun]
    exact (hmove.accounts k m s).2.1
  · rintro runs r k m s hstart ⟨t, own, result, hstate, -⟩
    rw [(initial_of_mayStart hstart).1] at hstate
    cases hstate
  · intro verifies u r x signature k m s
    rcases react_moves honest rogue verifies u r x signature
      with ⟨next, hrun, hmove⟩
    rw [hrun]
    exact (hmove.accounts k m s).2.2

/-! ## Authentication -/

section Worlds

variable {w : Sessions.World Bytes32 Bytes Bytes64 Unit Run}
  (hreach : Machine.Reachable (handshake honest rogue).step (.start ()) w)

include hreach

theorem coherent_of_reachable : ∀ r ∈ w.runs, r.Coherent := by
  refine Sessions.System.forall_runs ?_ ?_ hreach
  · intro runs r hstart
    have hbegun := (initial_of_mayStart hstart).1
    exact ⟨by simp [hbegun, State.signed], by simp [hbegun]⟩
  · intro verifies u r x signature hr
    rcases react_moves honest rogue verifies u r x signature
      with ⟨next, hrun, hmove⟩
    rw [hrun]
    exact hmove.coherent hr

/-- Different runs of one role have different nonces. -/
theorem eq_of_nonce {i j : Nat} {r r' : Run} (hi : w.runs[i]? = some r)
    (hj : w.runs[j]? = some r') (hnonce : r.nonce = r'.nonce) : i = j := by
  refine Sessions.System.eq_of_nonce (fun _ _ h => (initial_of_mayStart h).2) ?_ hreach hi hj
    hnonce
  intro verifies u r x signature
  rcases react_moves honest rogue verifies u r x signature with ⟨next, hrun, -⟩
  rw [hrun]
  rfl

/-- Two runs of one role have signed different transcripts. -/
theorem eq_of_signed {i j : Nat} {r r' : Run} {t : Transcript} {s s' : Bytes64}
    (hi : w.runs[i]? = some r) (hj : w.runs[j]? = some r') (hrole : r.role = r'.role)
    (hr : r.state.signed = some (t, s)) (hr' : r'.state.signed = some (t, s')) : i = j := by
  have hown := (coherent_of_reachable hreach r (List.mem_of_getElem? hi)).own t s hr
  have hown' := (coherent_of_reachable hreach r' (List.mem_of_getElem? hj)).own t s' hr'
  refine eq_of_nonce hreach hi hj (Prod.ext hrole ?_)
  unfold Run.Own at hown hown'
  rw [← hrole] at hown'
  rcases hr : r.role with _ | _
  · rw [hr] at hown hown'
    exact hown.2.2.2.2.symm.trans hown'.2.2.2.2
  · rw [hr] at hown hown'
    exact hown.2.2.2.2.symm.trans hown'.2.2.2.2

/-- Some run produced the signature that completed another one. -/
theorem produced_of_completed {r : Run} {t : Transcript} {own s : Bytes64}
    {result : Except P2pError PeerInfo} (hr : r ∈ w.runs)
    (hstate : r.state = .completed t own s result) (hhonest : honest (t.peerKey r.role) = true) :
    ∃ r' ∈ w.runs, r'.Made (t.peerKey r.role) (Bytes.b32 (r.role.other.digest t)) s := by
  have haccepted : r.Accepted (t.peerKey r.role) (Bytes.b32 (r.role.other.digest t)) s :=
    ⟨t, own, result, hstate, rfl, rfl⟩
  refine accounts_handshake.agreement hreach hr haccepted hhonest ?_
  simp [handshake]

end Worlds

/-- The run {lit}`r'` has made the signature {lit}`s`, with which {lit}`r` accepted its peer. -/
def Run.Completed (r r' : Run) (t : Transcript) (s : Bytes64) : Prop :=
  r'.Made (t.peerKey r.role) (Bytes.b32 (r.role.other.digest t)) s

/-- What produced the signature is the other end, with the same transcript, or SHA-256
collides. -/
theorem partner_or_collision {r' : Run} {s : Bytes64} (h : r.Completed r' t s) :
    ∃ t', r'.state.signed = some (t', s) ∧ r'.params.publicKey = t.peerKey r.role ∧
      (r'.role = r.role.other ∧ t' = t ∨
        Collision (r'.role.preimage t') (r.role.other.preimage t) ∨
        Collision t'.preimage t.preimage) := by
  rcases h with ⟨t', hsigned, hmessage⟩
  rw [Run.message, Prod.mk.injEq, Bytes.b32_inj] at hmessage
  exact ⟨t', hsigned, hmessage.1.symm, Role.digest_eq hmessage.2.symm⟩

/-- The handshake authenticates both ends.  When a run returns an honest peer, its transcript has
its own parameters and the result has those of the peer; some run of that key produced the
signature it accepted; and every run that produced it is of the other role and has the same
transcript, or SHA-256 collides on inputs of the two runs.  No two runs of one role share a
transcript, so the partner is one run, and the partner of one run. -/
theorem p2p_handshake_authentic {w : Sessions.World Bytes32 Bytes Bytes64 Unit Run}
    (hreach : Machine.Reachable (handshake honest rogue).step (.start ()) w) :
    (∀ r t own s info, r ∈ w.runs → r.state = .completed t own s (.ok info) →
      honest info.nodePublicKey = true →
      r.Own t ∧ info = peerInfo r.role t ∧ (∃ r' ∈ w.runs, r.Completed r' t s) ∧
        ∀ r' ∈ w.runs, r.Completed r' t s →
          ∃ t', r'.state.signed = some (t', s) ∧ r'.params.publicKey = info.nodePublicKey ∧
            r'.Own t' ∧ (r'.role = r.role.other ∧ t' = t ∨
              Collision (r'.role.preimage t') (r.role.other.preimage t) ∨
              Collision t'.preimage t.preimage)) ∧
    ∀ (i j : Nat) (r r' : Run) t s s', w.runs[i]? = some r → w.runs[j]? = some r' →
      r.role = r'.role → r.state.signed = some (t, s) → r'.state.signed = some (t, s') →
      i = j := by
  refine ⟨?_, fun i j r r' t s s' => eq_of_signed hreach⟩
  intro r t own s info hr hstate hhonest
  have hcoherent := coherent_of_reachable hreach r hr
  have hown := hcoherent.own t own (by rw [hstate]; rfl)
  obtain rfl := hcoherent.peer t own s info hstate
  refine ⟨hown, rfl, produced_of_completed hreach hr hstate hhonest, ?_⟩
  intro r' hr' hcompleted
  rcases partner_or_collision hcompleted with ⟨t', hsigned, hkey, hpartner⟩
  exact ⟨t', hsigned, hkey, (coherent_of_reachable hreach r' hr').own t' s hsigned, hpartner⟩

end Handshake

/-! ## A handshake -/

section Sample

attribute [local instance] sampleCrypto

def sampleInitiator : Params where
  publicKey := 1
  caps := 2
  network := 3
  magic := 4
  nonce := 5

def sampleResponder : Params where
  publicKey := 6
  caps := 7
  network := 3
  magic := 4
  nonce := 8

/-- A frame that arrives, while what is sent next is written. -/
def sampleExchange (messageType : UInt16) (payload : Bytes) : Exchange where
  received := .ok ⟨4, p2pVersion, messageType, 0, 1, payload⟩
  written := .ok ()

/-- The frames of an initiator and a responder, carried between them. -/
def sampleSchedule : List (Sessions.Action Bytes32 Bytes Bytes64 Exchange Unit Run) :=
  [.start ⟨.initiator, sampleInitiator, .begun⟩, .start ⟨.responder, sampleResponder, .begun⟩,
    .deliver 0 (sampleExchange 0 []) 0,
    .deliver 1 (sampleExchange msgChallenge (Bytes.u32 3 ++ (Bytes.u16 1 ++ (Bytes.u16 1 ++
      (Bytes.u32 2 ++ (Bytes.b32 1 ++ Bytes.b32 5)))))) 9,
    .deliver 0 (sampleExchange msgHello (Bytes.u32 3 ++ (Bytes.u16 1 ++ (Bytes.u32 7 ++
      (Bytes.b32 6 ++ (Bytes.b32 5 ++ (Bytes.b32 8 ++ Bytes.b64 9))))))) 10,
    .deliver 1 (sampleExchange msgHelloAck (Bytes.u32 3 ++ (Bytes.u16 1 ++ (Bytes.b32 8 ++
      Bytes.b64 10)))) 0]

/-- Whether two runs are the two ends of one handshake that both have completed. -/
def bothCompleted (runs : List Run) : Bool :=
  match runs with
  | [⟨.initiator, _, .completed t s s' (.ok _)⟩, ⟨.responder, _, .completed t' s₁ s₁' (.ok _)⟩] =>
    t == t' && s == s₁' && s' == s₁
  | _ => false

/-- Both runs of the handshake complete, and each was completed by a run of its peer. -/
theorem sample_handshake_authentic :
    ∃ w, Machine.run (handshake (fun _ => true) fun _ _ _ => false).step (.start ())
        sampleSchedule = some w ∧ bothCompleted w.runs = true ∧
      ∀ r t own s info, r ∈ w.runs → r.state = .completed t own s (.ok info) →
        ∃ r' ∈ w.runs, r.Completed r' t s := by
  have hrun : (Machine.run (handshake (fun _ => true) fun _ _ _ => false).step (.start ())
      sampleSchedule).map (fun w => bothCompleted w.runs) = some true := by
    decide +kernel
  rcases Option.map_eq_some_iff.mp hrun with ⟨w, hw, hcompleted⟩
  refine ⟨w, hw, hcompleted, fun r t own s info hr hstate => ?_⟩
  exact ((p2p_handshake_authentic ⟨sampleSchedule, hw⟩).1 r t own s info hr hstate rfl).2.2.1

end Sample

end P2p

end Mutiny
