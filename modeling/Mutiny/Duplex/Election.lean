import Mathlib.Data.List.NodupEquivFin
import Mathlib.Logic.Function.Basic
import Mutiny.Lib.Bytes
import Mutiny.Lib.Machine

/-!
# The election between duplicate connections

Two nodes may hold several authenticated connections to each other.  Each end registers its
end of every connection and keeps one: the node with the smaller identifier is the
preferred dialer, and a connection it dialed replaces one dialed by the other.  Everything
else is closed, and a closing reaches the other end at some later moment.

Main result:

- Theorem {lit}`election_agrees`: exactly when both ends settle on one connection.
-/

namespace Mutiny.Duplex

/-! ## One end -/

/-- Who dialled a connection. -/
inductive ConnectionDirection where
  | inbound
  | outbound
deriving DecidableEq, Repr

/-- The direction that wins at a node. -/
def preferredDirection (localNodeId remoteNodeId : Bytes32) : ConnectionDirection :=
  if localNodeId < remoteNodeId then .outbound else .inbound

/-- Whether a new connection wins over the registered one. -/
def candidateShouldReplace (localNodeId remoteNodeId : Bytes32)
    (current candidate : ConnectionDirection) : Bool :=
  if current = candidate then false
  else candidate = preferredDirection localNodeId remoteNodeId

/-- An address a connection comes from. -/
inductive IpAddr where
  | v4 (address : BitVec 32)
  | v6 (address : BitVec 128)
deriving DecidableEq, Repr

/-- A session: an end of one of the connections between the two nodes, or of some other
connection. -/
inductive Handle where
  | link (i : Nat)
  | other (i : Nat)
deriving DecidableEq, Repr

/-- A registered session. -/
structure LiveDuplexPeer where
  nodeId : Bytes32
  address : Option String
  direction : ConnectionDirection
  sourceIp : Option IpAddr
  session : Handle
deriving DecidableEq, Repr

/-- The registry of a node, and which of its sessions are closed. -/
structure Endpoint where
  registry : List LiveDuplexPeer
  closed : Handle → Bool

def maxLiveDuplexPeers : Nat := 64

def maxInboundDuplexPeers : Nat := 48

def maxInboundDuplexPeersPerIp : Nat := 8

namespace Endpoint

/-- The session with a peer. -/
def get (n : Endpoint) (id : Bytes32) : Option LiveDuplexPeer :=
  n.registry.find? fun q => q.nodeId = id

/-- A session is closed. -/
def close (n : Endpoint) (session : Handle) : Endpoint :=
  { n with closed := Function.update n.closed session true }

/-- The session with a peer is taken out. -/
def remove (n : Endpoint) (id : Bytes32) : Endpoint :=
  { n with registry := n.registry.filter fun q => q.nodeId ≠ id }

/-- A session is registered in place of another. -/
def insert (n : Endpoint) (q : LiveDuplexPeer) : Endpoint :=
  { n with registry := q :: n.registry.filter fun q' => q'.nodeId ≠ q.nodeId }

/-- Closed sessions are taken out. -/
def retainOpen (n : Endpoint) : Endpoint :=
  { n with registry := n.registry.filter fun q => !n.closed q.session }

/-- Note the address of a peer whose address is not known. -/
def fillAddress (n : Endpoint) (id : Bytes32) (address : Option String) : Endpoint :=
  { n with registry := n.registry.map fun q =>
      if q.nodeId = id ∧ q.address = none then { q with address := address } else q }

end Endpoint

/-- The inbound sessions. -/
def inboundCount (peers : List LiveDuplexPeer) : Nat :=
  peers.countP fun q => q.direction = .inbound

/-- The inbound sessions of an address. -/
def sameIpCount (peers : List LiveDuplexPeer) (ip : IpAddr) : Nat :=
  peers.countP fun q => q.direction = .inbound ∧ q.sourceIp = some ip

/-- The candidate is registered unless a cap is reached. -/
def admitCandidate (n : Endpoint) (c : LiveDuplexPeer) : Except String Bool × Endpoint :=
  let n := n.retainOpen
  if c.direction = .inbound ∧ maxInboundDuplexPeers ≤ inboundCount n.registry then
    (.ok false, n.close c.session)
  else if c.direction = .inbound ∧
      ∃ ip ∈ c.sourceIp, maxInboundDuplexPeersPerIp ≤ sameIpCount n.registry ip then
    (.ok false, n.close c.session)
  else if maxLiveDuplexPeers ≤ n.registry.length then (.ok false, n.close c.session)
  else (.ok true, n.insert c)

/-- A new connection is registered, or closed. -/
def registerDuplexCandidate (n : Endpoint) (localNodeId : Bytes32) (c : LiveDuplexPeer) :
    Except String Bool × Endpoint :=
  if c.nodeId = localNodeId then (.error "refusing self duplex session", n.close c.session)
  else
    match n.get c.nodeId with
    | some current =>
      if n.closed current.session then admitCandidate (n.remove c.nodeId) c
      else if candidateShouldReplace localNodeId c.nodeId current.direction c.direction then
        (.ok true, (n.close current.session).insert
          { c with address := c.address.or current.address })
      else (.ok false, (n.fillAddress c.nodeId c.address).close c.session)
    | none => admitCandidate n c

/-! ## What a registration does -/

namespace Endpoint

/-- The entry of a node. -/
def entries (n : Endpoint) (id : Bytes32) : List LiveDuplexPeer :=
  n.registry.filter fun q => q.nodeId = id

/-- The entries of all other nodes. -/
def others (n : Endpoint) (id : Bytes32) : List LiveDuplexPeer :=
  n.registry.filter fun q => q.nodeId ≠ id

/-- The sessions with a node that are registered and open. -/
def openSessions (n : Endpoint) (id : Bytes32) : List Handle :=
  ((n.entries id).filter fun q => !n.closed q.session).map (·.session)

/-- No cap is reached by the entries of the other nodes. -/
structure Room (peers : List LiveDuplexPeer) : Prop where
  live : peers.length < maxLiveDuplexPeers
  inbound : inboundCount peers < maxInboundDuplexPeers
  sameIp : ∀ ip, sameIpCount peers ip < maxInboundDuplexPeersPerIp

theorem Room.sublist {xs ys : List LiveDuplexPeer} (h : Room ys) (hsub : xs.Sublist ys) :
    Room xs where
  live := hsub.length_le.trans_lt h.live
  inbound := hsub.countP_le.trans_lt h.inbound
  sameIp ip := hsub.countP_le.trans_lt (h.sameIp ip)

end Endpoint

open Endpoint

/-- What a registration does when no cap is reached: the new end, without the answer. -/
inductive Outcome (n : Endpoint) (localNodeId : Bytes32) (c : LiveDuplexPeer) : Endpoint → Prop
  /-- No open session is registered with the node: the candidate is. -/
  | added {n' : Endpoint} (hcurrent : ∀ q ∈ n.entries c.nodeId, n.closed q.session = true)
      (hentries : n'.entries c.nodeId = [c]) (hclosed : n'.closed = n.closed)
      (hothers : (n'.others c.nodeId).Sublist (n.others c.nodeId)) : Outcome n localNodeId c n'
  /-- The candidate replaces the registered session, which is closed. -/
  | replaced {n' : Endpoint} {q q' : LiveDuplexPeer} (hcurrent : n.entries c.nodeId = [q])
      (hopen : n.closed q.session = false)
      (hreplace : candidateShouldReplace localNodeId c.nodeId q.direction c.direction = true)
      (hentries : n'.entries c.nodeId = [q']) (hsession : q'.session = c.session)
      (hdirection : q'.direction = c.direction)
      (hclosed : n'.closed = Function.update n.closed q.session true)
      (hothers : (n'.others c.nodeId).Sublist (n.others c.nodeId)) : Outcome n localNodeId c n'
  /-- The registered session stays and the candidate is closed. -/
  | dropped {n' : Endpoint} {q q' : LiveDuplexPeer} (hcurrent : n.entries c.nodeId = [q])
      (hopen : n.closed q.session = false)
      (hreplace : candidateShouldReplace localNodeId c.nodeId q.direction c.direction = false)
      (hentries : n'.entries c.nodeId = [q']) (hsession : q'.session = q.session)
      (hdirection : q'.direction = q.direction)
      (hclosed : n'.closed = Function.update n.closed c.session true)
      (hothers : (n'.others c.nodeId).Sublist (n.others c.nodeId)) : Outcome n localNodeId c n'

theorem Endpoint.entries_insert (n : Endpoint) (q : LiveDuplexPeer) :
    (n.insert q).entries q.nodeId = [q] := by
  simp [Endpoint.entries, Endpoint.insert, List.filter_filter]

theorem Endpoint.others_insert (n : Endpoint) (q : LiveDuplexPeer) :
    (n.insert q).others q.nodeId = n.others q.nodeId := by
  simp [Endpoint.others, Endpoint.insert, List.filter_filter]

variable {c : LiveDuplexPeer}

/-- Without an entry of its node, and with room, a candidate is registered. -/
theorem admitCandidate_of_room {n : Endpoint} (hnone : n.entries c.nodeId = [])
    (hroom : Room (n.others c.nodeId)) :
    (admitCandidate n c).2 = n.retainOpen.insert c := by
  have hall : n.registry = n.others c.nodeId := by
    rw [Endpoint.others, eq_comm, List.filter_eq_self]
    intro q hq
    rw [Endpoint.entries, List.filter_eq_nil_iff] at hnone
    simpa using hnone q hq
  have hroom' : Room n.retainOpen.registry := by
    rw [← hall] at hroom
    exact hroom.sublist List.filter_sublist
  have hip : ¬ ∃ ip ∈ c.sourceIp,
      maxInboundDuplexPeersPerIp ≤ sameIpCount n.retainOpen.registry ip := by
    rintro ⟨ip, -, hreached⟩
    exact absurd hreached (not_le.mpr (hroom'.sameIp ip))
  simp only [admitCandidate, if_neg (fun h => hip (And.right h)),
    if_neg (fun h : _ ∧ _ => absurd h.2 (not_le.mpr hroom'.inbound)),
    if_neg (not_le.mpr hroom'.live)]

theorem sublist_of_eq {xs ys : List LiveDuplexPeer} (h : xs = ys) : xs.Sublist ys := h ▸ .refl xs

theorem Endpoint.get_eq_head? (n : Endpoint) (id : Bytes32) : n.get id = (n.entries id).head? := by
  rw [Endpoint.get, Endpoint.entries, List.head?_filter]

theorem Endpoint.entries_remove (n : Endpoint) (id : Bytes32) : (n.remove id).entries id = [] := by
  simp [Endpoint.entries, Endpoint.remove, List.filter_filter]

theorem Endpoint.others_remove (n : Endpoint) (id : Bytes32) :
    (n.remove id).others id = n.others id := by
  simp [Endpoint.others, Endpoint.remove, List.filter_filter]

theorem Endpoint.others_retainOpen (n : Endpoint) (id : Bytes32) :
    (n.retainOpen.others id).Sublist (n.others id) :=
  List.filter_sublist.filter _

section FillAddress

variable (n : Endpoint) (id : Bytes32) (address : Option String)

/-- The peer with its address noted. -/
def noteAddress (q : LiveDuplexPeer) : LiveDuplexPeer :=
  if q.nodeId = id ∧ q.address = none then { q with address := address } else q

theorem nodeId_noteAddress (q : LiveDuplexPeer) : (noteAddress id address q).nodeId = q.nodeId := by
  unfold noteAddress
  split <;> rfl

theorem session_noteAddress (q : LiveDuplexPeer) :
    (noteAddress id address q).session = q.session := by
  unfold noteAddress
  split <;> rfl

theorem direction_noteAddress (q : LiveDuplexPeer) :
    (noteAddress id address q).direction = q.direction := by
  unfold noteAddress
  split <;> rfl

theorem Endpoint.entries_fillAddress :
    (n.fillAddress id address).entries id = (n.entries id).map (noteAddress id address) := by
  simp only [Endpoint.entries, Endpoint.fillAddress]
  rw [show (fun q : LiveDuplexPeer => if q.nodeId = id ∧ q.address = none then
    { q with address := address } else q) = noteAddress id address from rfl, List.filter_map]
  simp only [Function.comp_def, nodeId_noteAddress]

theorem Endpoint.others_fillAddress : (n.fillAddress id address).others id = n.others id := by
  simp only [Endpoint.others, Endpoint.fillAddress]
  rw [show (fun q : LiveDuplexPeer => if q.nodeId = id ∧ q.address = none then
    { q with address := address } else q) = noteAddress id address from rfl, List.filter_map]
  simp only [Function.comp_def, nodeId_noteAddress]
  refine (List.map_congr_left fun q hq => ?_).trans (List.map_id _)
  have hne : q.nodeId ≠ id := by simpa using (List.mem_filter.mp hq).2
  simp [noteAddress, hne]

end FillAddress

/-- What a registration does when no cap is reached. -/
theorem registerDuplexCandidate_outcome {n : Endpoint} {localNodeId : Bytes32}
    (hself : c.nodeId ≠ localNodeId) (hone : (n.entries c.nodeId).length ≤ 1)
    (hroom : Room (n.others c.nodeId)) :
    Outcome n localNodeId c (registerDuplexCandidate n localNodeId c).2 := by
  have hget := n.get_eq_head? c.nodeId
  rw [registerDuplexCandidate, if_neg hself]
  rcases hentries : n.entries c.nodeId with _ | ⟨q, rest⟩
  · rw [hentries, List.head?_nil] at hget
    rw [hget]
    simp only [admitCandidate_of_room hentries hroom]
    refine .added (by simp [hentries]) (entries_insert ..) rfl ?_
    rw [others_insert]
    exact others_retainOpen ..
  · have hrest : rest = [] := by
      rw [hentries, List.length_cons] at hone
      exact List.length_eq_zero_iff.mp (by omega)
    rw [hrest] at hentries
    rw [hentries, List.head?_cons] at hget
    simp only [hget]
    cases hclosed : n.closed q.session with
    | true =>
      have hroom' : Room ((n.remove c.nodeId).others c.nodeId) := by rwa [others_remove]
      rw [if_pos rfl, admitCandidate_of_room (entries_remove ..) hroom']
      refine .added (by simp [hentries, hclosed]) (entries_insert ..) rfl ?_
      rw [others_insert]
      exact (others_retainOpen ..).trans (by rw [others_remove])
    | false =>
      rw [if_neg Bool.false_ne_true]
      cases hreplace : candidateShouldReplace localNodeId c.nodeId q.direction c.direction with
      | true =>
        rw [if_pos rfl]
        refine .replaced hentries hclosed hreplace
          (entries_insert _ { c with address := c.address.or q.address }) rfl rfl rfl ?_
        have hothers := others_insert (n.close q.session)
          { c with address := c.address.or q.address }
        exact sublist_of_eq hothers
      | false =>
        rw [if_neg Bool.false_ne_true]
        have hfilled : (fillAddress n c.nodeId c.address).entries c.nodeId =
            [noteAddress c.nodeId c.address q] :=
          (entries_fillAddress ..).trans (by rw [hentries, List.map_singleton])
        refine .dropped hentries hclosed hreplace hfilled
          (session_noteAddress ..) (direction_noteAddress ..) rfl ?_
        · exact sublist_of_eq (others_fillAddress n c.nodeId c.address)

/-! ## Two nodes -/

/-- The two nodes. -/
inductive Party where
  | left
  | right
deriving DecidableEq, Repr

/-- The node at the other end. -/
def Party.other : Party → Party
  | left => right
  | right => left

/-- Two nodes and the authenticated connections between them: connection {lit}`i` was dialed
by {lit}`dialers[i]`. -/
structure Pairing where
  nodeId : Party → Bytes32
  distinct : nodeId .left ≠ nodeId .right
  dialers : List Party
  address : Party → Nat → Option String
  sourceIp : Party → Nat → Option IpAddr

/-- Both nodes, and which ends are registered. -/
structure Link where
  ends : Party → Endpoint
  registered : Party → Nat → Bool

/-- What can happen. -/
inductive LinkAction where
  /-- A node registers its end of a connection. -/
  | register (p : Party) (i : Nat)
  /-- The closing of the other end of a connection reaches a node. -/
  | arrive (p : Party) (i : Nat)
deriving DecidableEq, Repr

namespace Pairing

variable (P : Pairing)

/-- A connection as one node sees it. -/
def direction (p : Party) (i : Nat) : ConnectionDirection :=
  if P.dialers[i]? = some p then .outbound else .inbound

/-- An end of a connection, as it is registered. -/
def candidate (p : Party) (i : Nat) : LiveDuplexPeer where
  nodeId := P.nodeId p.other
  address := P.address p i
  direction := P.direction p i
  sourceIp := P.sourceIp p i
  session := .link i

@[simp]
theorem nodeId_candidate (p : Party) (i : Nat) : (P.candidate p i).nodeId = P.nodeId p.other := rfl

@[simp]
theorem session_candidate (p : Party) (i : Nat) : (P.candidate p i).session = .link i := rfl

@[simp]
theorem direction_candidate (p : Party) (i : Nat) :
    (P.candidate p i).direction = P.direction p i := rfl

/-- An action, if it can take place. -/
def step (s : Link) : LinkAction → Option Link
  | .register p i =>
    if i < P.dialers.length ∧ s.registered p i = false then
      some
        { ends := Function.update s.ends p
            (registerDuplexCandidate (s.ends p) (P.nodeId p) (P.candidate p i)).2
          registered := Function.update s.registered p (Function.update (s.registered p) i true) }
    else none
  | .arrive p i =>
    if (s.ends p.other).closed (.link i) = true then
      some { s with ends := Function.update s.ends p ((s.ends p).close (.link i)) }
    else none

/-- Before the first registration: the connections are open, neither node has an entry of the
other, and the other peers leave room. -/
structure Fresh (s : Link) : Prop where
  unregistered : ∀ p i, s.registered p i = false
  linked : ∀ p i, (s.ends p).closed (.link i) = false
  unknown : ∀ p, (s.ends p).entries (P.nodeId p.other) = []
  room : ∀ p, Room ((s.ends p).others (P.nodeId p.other))

/-- Every connection is registered at both ends, and every closing has arrived. -/
structure Complete (s : Link) : Prop where
  registered : ∀ p, ∀ i < P.dialers.length, s.registered p i = true
  arrived : ∀ p, ∀ i < P.dialers.length,
    (s.ends p.other).closed (.link i) = true → (s.ends p).closed (.link i) = true

/-- Both nodes have one open session with the other, and these are the ends of one
connection. -/
def Agreed (s : Link) : Prop :=
  ∃ i, ∀ p, (s.ends p).openSessions (P.nodeId p.other) = [.link i]

/-- The node with the smaller identifier. -/
def low : Party := if P.nodeId .left < P.nodeId .right then .left else .right

/-- One connection was dialed by the preferred node, or there is only one. -/
def Electable : Prop := P.dialers.count P.low = 1 ∨ P.dialers.length = 1

/-! ## The rule -/

/-- Connection {lit}`i` replaces connection {lit}`j`. -/
def Beats (i j : Nat) : Prop := P.dialers[i]? = some P.low ∧ P.dialers[j]? ≠ some P.low

theorem nodeId_other_ne (p : Party) : P.nodeId p.other ≠ P.nodeId p := by
  cases p with
  | left => exact P.distinct.symm
  | right => exact P.distinct

variable {p : Party} {i : Nat}

/-- Both ends apply one rule. -/
theorem candidateShouldReplace_iff {j : Nat} (hi : i < P.dialers.length) (hj : j < P.dialers.length)
    :
    candidateShouldReplace (P.nodeId p) (P.nodeId p.other) (P.direction p j) (P.direction p i) =
      true ↔ P.Beats i j := by
  have horder : P.nodeId .right < P.nodeId .left ↔ ¬ P.nodeId .left < P.nodeId .right := by
    have hne : (P.nodeId .left).toNat ≠ (P.nodeId .right).toNat :=
      fun h => P.distinct (BitVec.eq_of_toNat_eq h)
    rw [BitVec.lt_def, BitVec.lt_def]
    omega
  simp only [Beats, candidateShouldReplace, preferredDirection, Pairing.direction, low,
    List.getElem?_eq_getElem hi, List.getElem?_eq_getElem hj, Option.some.injEq]
  cases P.dialers[i] <;> cases P.dialers[j] <;> cases p <;>
    by_cases hlow : P.nodeId .left < P.nodeId .right <;> simp [Party.other, hlow, horder]

/-! ## A connection that nothing replaces -/

/-- Connection {lit}`k` replaces every other one. -/
def Dominant (k : Nat) : Prop :=
  k < P.dialers.length ∧ ∀ j < P.dialers.length, j ≠ k → P.Beats k j

/-- Connection {lit}`k` is open at an end and registered if the end was given it. -/
structure WinningAt (k : Nat) (p : Party) (n : Endpoint) (registered : Nat → Bool) : Prop where
  openLink : n.closed (.link k) = false
  entry : n.entries (P.nodeId p.other) = [] ∨
    ∃ q i, n.entries (P.nodeId p.other) = [q] ∧ q.session = .link i ∧
      q.direction = P.direction p i ∧ i < P.dialers.length ∧ registered i = true
  won : registered k = true → ∃ q, n.entries (P.nodeId p.other) = [q] ∧ q.session = .link k
  room : Room (n.others (P.nodeId p.other))

/-- Connection {lit}`k` is open at both ends and registered where it has been. -/
def Winning (k : Nat) (s : Link) : Prop := ∀ p, P.WinningAt k p (s.ends p) (s.registered p)

variable {P} {k : Nat} {s : Link} {n : Endpoint} {registered : Nat → Bool}

theorem Winning.of_fresh (h : P.Fresh s) : P.Winning k s := fun p =>
  { openLink := h.linked p k
    entry := .inl (h.unknown p)
    won := fun hp => by rw [h.unregistered p k] at hp; cases hp
    room := h.room p }

/-- One end changes, the other is as it was. -/
theorem Winning.update (h : P.Winning k s) (hp : P.WinningAt k p n registered) :
    P.Winning k { ends := Function.update s.ends p n,
                  registered := Function.update s.registered p registered } := by
  intro p'
  by_cases heq : p' = p
  · subst heq
    simpa using hp
  · simpa [Function.update_of_ne heq] using h p'

/-- The registered session is of a connection registered before, and of {lit}`k` if that was. -/
theorem WinningAt.current (h : P.WinningAt k p n registered) {q : LiveDuplexPeer}
    (hq : n.entries (P.nodeId p.other) = [q]) :
    ∃ j, q.session = .link j ∧ q.direction = P.direction p j ∧ j < P.dialers.length ∧
      registered j = true ∧ (registered k = true → j = k) := by
  rcases h.entry with hnone | ⟨q', j, hq', hsession, hdirection, hj, hregistered⟩
  · rw [hnone] at hq
    cases hq
  · rw [hq] at hq'
    cases hq'
    refine ⟨j, hsession, hdirection, hj, hregistered, fun hreg => ?_⟩
    rcases h.won hreg with ⟨q'', hq'', hsession''⟩
    rw [hq] at hq''
    cases hq''
    rw [hsession] at hsession''
    exact Handle.link.inj hsession''

/-- The registration of one more connection at an end. -/
theorem WinningAt.register (h : P.WinningAt k p n registered) (hk : P.Dominant k)
    (hi : i < P.dialers.length) (hnew : registered i = false) :
    P.WinningAt k p (registerDuplexCandidate n (P.nodeId p) (P.candidate p i)).2
      (Function.update registered i true) := by
  have hone : (n.entries (P.nodeId p.other)).length ≤ 1 := by
    rcases h.entry with hnone | ⟨q, j, hentry, -⟩
    · simp [hnone]
    · simp [hentry]
  have houtcome := registerDuplexCandidate_outcome (c := P.candidate p i) (P.nodeId_other_ne p)
    hone h.room
  generalize (registerDuplexCandidate n (P.nodeId p) (P.candidate p i)).2 = n' at houtcome ⊢
  -- what the end must look like afterwards
  have hdone : n'.closed (.link k) = false →
      (∃ q j, n'.entries (P.nodeId p.other) = [q] ∧ q.session = .link j ∧
        q.direction = P.direction p j ∧ j < P.dialers.length ∧
        (j = i ∨ registered j = true) ∧ (i = k ∨ registered k = true → j = k)) →
      (n'.others (P.nodeId p.other)).Sublist (n.others (P.nodeId p.other)) →
      P.WinningAt k p n' (Function.update registered i true) := by
    rintro hopen ⟨q, j, hentry, hsession, hdirection, hj, hregistered, hwon⟩ hothers
    have hmark : ∀ j', Function.update registered i true j' = true ↔
        i = j' ∨ registered j' = true := by
      intro j'
      by_cases hji : j' = i
      · simp [hji]
      · simp [Function.update_of_ne hji, Ne.symm hji]
    refine ⟨hopen, .inr ⟨q, j, hentry, hsession, hdirection, hj, ?_⟩, fun hmarked => ?_,
      h.room.sublist hothers⟩
    · exact (hmark j).mpr (hregistered.imp_left Eq.symm)
    · exact ⟨q, hentry, hwon ((hmark k).mp hmarked) ▸ hsession⟩
  have hother : ∀ {j}, registered j = true → i ≠ j := by
    rintro _ hregistered rfl
    rw [hnew] at hregistered
    cases hregistered
  cases houtcome with
  | added hold hentries hclosed hothers =>
    refine hdone (by rw [hclosed]; exact h.openLink)
      ⟨P.candidate p i, i, hentries, rfl, rfl, hi, .inl rfl, ?_⟩ hothers
    rintro (hik | hreg)
    · exact hik
    · rcases h.won hreg with ⟨q, hq, hsession⟩
      have hdead := hold q (by rw [nodeId_candidate, hq];
                               exact List.mem_singleton_self q)
      rw [hsession, h.openLink] at hdead
      cases hdead
  | @replaced q q' hq hopen hreplace hentries hsession hdirection hclosed hothers =>
    rcases h.current hq with ⟨j, hqsession, hqdirection, hj, hregistered, hwon⟩
    rw [hqdirection] at hreplace
    have hbeats := (P.candidateShouldReplace_iff hi hj).mp hreplace
    have hjk : j ≠ k := by
      rintro rfl
      exact hbeats.2 (hk.2 i hi (hother hregistered)).1
    refine hdone ?_ ⟨q', i, hentries, hsession, hdirection, hi, .inl rfl, ?_⟩ hothers
    · rw [hclosed, hqsession, Function.update_of_ne (fun heq => hjk (Handle.link.inj heq).symm)]
      exact h.openLink
    · rintro (hik | hreg)
      · exact hik
      · exact absurd (hwon hreg) hjk
  | @dropped q q' hq hopen hreplace hentries hsession hdirection hclosed hothers =>
    rcases h.current hq with ⟨j, hqsession, hqdirection, hj, hregistered, hwon⟩
    have hik : i ≠ k := by
      rintro rfl
      rw [hqdirection] at hreplace
      have hbeats := (P.candidateShouldReplace_iff (p := p) hi hj).mpr
        (hk.2 j hj (hother hregistered).symm)
      exact Bool.false_ne_true (hreplace.symm.trans hbeats)
    refine hdone ?_ ⟨q', j, hentries, hsession.trans hqsession, hdirection.trans hqdirection, hj,
      .inr hregistered, ?_⟩ hothers
    · have hlink : Handle.link k ≠ Handle.link i := fun heq => hik (Handle.link.inj heq).symm
      rw [hclosed, session_candidate, Function.update_of_ne hlink]
      exact h.openLink
    · rintro (heq | hreg)
      · exact absurd heq hik
      · exact hwon hreg

variable {s' : Link}

/-- A connection that nothing replaces is kept by both ends. -/
theorem Winning.step {action : LinkAction} (h : P.Winning k s) (hk : P.Dominant k)
    (hstep : P.step s action = some s') : P.Winning k s' := by
  cases action with
  | register p i =>
    simp only [Pairing.step, Option.ite_none_right_eq_some, Option.some.injEq] at hstep
    rcases hstep with ⟨⟨hi, hnew⟩, rfl⟩
    exact h.update ((h p).register hk hi hnew)
  | arrive p i =>
    simp only [Pairing.step, Option.ite_none_right_eq_some, Option.some.injEq] at hstep
    rcases hstep with ⟨hclosed, rfl⟩
    have hlink : Handle.link k ≠ Handle.link i := by
      intro heq
      rw [← heq, (h _).openLink] at hclosed
      cases hclosed
    have hend : P.WinningAt k p ((s.ends p).close (.link i)) (s.registered p) :=
      { openLink := (Function.update_of_ne hlink ..).trans (h p).openLink
        entry := (h p).entry
        won := (h p).won
        room := (h p).room }
    simpa only [Function.update_eq_self] using h.update hend

/-- When everything is registered, both ends hold the connection. -/
theorem Winning.agreed (h : P.Winning k s) (hk : P.Dominant k) (hcomplete : P.Complete s) :
    P.Agreed s := by
  refine ⟨k, fun p => ?_⟩
  rcases (h p).won (hcomplete.registered p k hk.1) with ⟨q, hq, hsession⟩
  simp [Endpoint.openSessions, hq, hsession, (h p).openLink]

theorem Electable.exists_dominant (h : P.Electable) : ∃ k, P.Dominant k := by
  rcases h with hone | hone
  · have hmem : P.low ∈ P.dialers := List.count_pos_iff.mp (by omega)
    rcases List.mem_iff_getElem.mp hmem with ⟨k, hk, hlow⟩
    have hlow' : P.dialers[k]? = some P.low := by rw [List.getElem?_eq_getElem hk, hlow]
    refine ⟨k, hk, fun j hj hjk => ⟨hlow', fun hother => ?_⟩⟩
    -- two connections dialed by the same node
    rw [List.getElem?_eq_getElem hj, Option.some.injEq] at hother
    have hdup : List.Duplicate P.low P.dialers := by
      rw [List.duplicate_iff_exists_distinct_get]
      rcases Nat.lt_or_gt_of_ne hjk with hlt | hgt
      · exact ⟨⟨j, hj⟩, ⟨k, hk⟩, hlt, hother.symm, hlow.symm⟩
      · exact ⟨⟨k, hk⟩, ⟨j, hj⟩, hgt, hlow.symm, hother.symm⟩
    have htwo := List.duplicate_iff_two_le_count.mp hdup
    omega
  · exact ⟨0, by omega, fun j hj hj0 => by omega⟩

/-! ## A connection that an end keeps -/

/-- An end has registered connection {lit}`x` and closed every other connection it was given. -/
structure Kept (p : Party) (x : Nat) (s : Link) : Prop where
  entry : ∃ q, (s.ends p).entries (P.nodeId p.other) = [q] ∧ q.session = .link x ∧
    q.direction = P.direction p x
  openLink : (s.ends p).closed (.link x) = false
  lost : ∀ j, s.registered p j = true → j ≠ x → (s.ends p).closed (.link j) = true
  mark : s.registered p x = true
  room : Room ((s.ends p).others (P.nodeId p.other))

variable {x : Nat}

/-- The first connection an end is given is registered. -/
theorem Kept.of_first (hnew : ∀ i, s.registered p i = false)
    (hlinked : (s.ends p).closed (.link x) = false)
    (hunknown : (s.ends p).entries (P.nodeId p.other) = [])
    (hroom : Room ((s.ends p).others (P.nodeId p.other)))
    (hstep : P.step s (.register p x) = some s') : P.Kept p x s' := by
  simp only [Pairing.step, Option.ite_none_right_eq_some, Option.some.injEq] at hstep
  rcases hstep with ⟨-, rfl⟩
  have houtcome := registerDuplexCandidate_outcome (c := P.candidate p x) (P.nodeId_other_ne p)
    (show ((s.ends p).entries (P.nodeId p.other)).length ≤ 1 by simp [hunknown]) hroom
  have hnone : ∀ q, (s.ends p).entries (P.nodeId p.other) ≠ [q] := by
    intro q hq
    rw [hunknown] at hq
    cases hq
  generalize (registerDuplexCandidate (s.ends p) (P.nodeId p) (P.candidate p x)).2 = n at houtcome ⊢
  cases houtcome with
  | added hold hentries hclosed hothers =>
    refine ⟨⟨P.candidate p x, by simpa using hentries, rfl, rfl⟩, ?_, fun j hj hjx => ?_, ?_, ?_⟩
    · simpa [hclosed] using hlinked
    · simp [Function.update_of_ne hjx, hnew] at hj
    · simp
    · simpa using hroom.sublist hothers
  | replaced hq => exact absurd hq (hnone _)
  | dropped hq => exact absurd hq (hnone _)

/-- What does not replace the registered connection is closed. -/
theorem Kept.register (h : P.Kept p x s) (hx : x < P.dialers.length) (hbest : ¬ P.Beats i x)
    (hstep : P.step s (.register p i) = some s') : P.Kept p x s' := by
  simp only [Pairing.step, Option.ite_none_right_eq_some, Option.some.injEq] at hstep
  rcases hstep with ⟨⟨hi, hnew⟩, rfl⟩
  rcases h.entry with ⟨q, hq, hsession, hdirection⟩
  have hix : i ≠ x := by
    rintro rfl
    rw [h.mark] at hnew
    cases hnew
  have houtcome := registerDuplexCandidate_outcome (c := P.candidate p i) (P.nodeId_other_ne p)
    (show ((s.ends p).entries (P.nodeId p.other)).length ≤ 1 by simp [hq]) h.room
  have hsame : ∀ q', (s.ends p).entries (P.nodeId p.other) = [q'] → q' = q := by
    intro q' hq'
    rw [hq] at hq'
    exact (List.singleton_inj.mp hq').symm
  generalize (registerDuplexCandidate (s.ends p) (P.nodeId p) (P.candidate p i)).2 = n at houtcome ⊢
  cases houtcome with
  | added hold =>
    have hdead := hold q (by rw [nodeId_candidate, hq];
                             exact List.mem_singleton_self q)
    rw [hsession, h.openLink] at hdead
    cases hdead
  | @replaced q' _ hq' _ hreplace =>
    rw [hsame q' hq', hdirection] at hreplace
    exact absurd ((P.candidateShouldReplace_iff hi hx).mp hreplace) hbest
  | @dropped q' q'' hq' _ _ hentries hsession' hdirection' hclosed hothers =>
    cases hsame q' hq'
    have hlink : Handle.link x ≠ Handle.link i := fun heq => hix (Handle.link.inj heq).symm
    refine ⟨⟨q'', by simpa using hentries, hsession'.trans hsession,
      hdirection'.trans hdirection⟩, ?_, fun j hj hjx => ?_, ?_, ?_⟩
    · simpa [hclosed, Function.update_of_ne hlink] using h.openLink
    · by_cases hji : j = i
      · simp [hclosed, hji, candidate]
      · have hother : Handle.link j ≠ Handle.link i := fun heq => hji (Handle.link.inj heq)
        simp only [Function.update_self, Function.update_of_ne hji] at hj
        simpa [hclosed, Function.update_of_ne hother] using h.lost j hj hjx
    · simp [Function.update_of_ne (Ne.symm hix), h.mark]
    · simpa using h.room.sublist hothers

/-- An end that is given an unbeaten connection first keeps it while it is given the others. -/
theorem exists_kept {start : Link} (hfresh : P.Fresh start) (hends : s.ends p = start.ends p)
    (hregistered : s.registered p = start.registered p) (hx : x < P.dialers.length)
    (hbest : ∀ i < P.dialers.length, ¬ P.Beats i x) :
    ∃ s', Machine.Reachable P.step s s' ∧ P.Kept p x s' ∧
      (∀ i < P.dialers.length, s'.registered p i = true) ∧ s'.ends p.other = s.ends p.other ∧
      s'.registered p.other = s.registered p.other := by
  have hother : p.other ≠ p := by cases p <;> decide
  have hnew : ∀ i, s.registered p i = false := fun i => by
    rw [hregistered, hfresh.unregistered]
  -- a registration is possible, and is of one end only
  have hstep : ∀ s₁ i, i < P.dialers.length → s₁.registered p i = false →
      ∃ s₂, P.step s₁ (.register p i) = some s₂ ∧
        (∀ j, s₂.registered p j = true ↔ j = i ∨ s₁.registered p j = true) ∧
        s₂.ends p.other = s₁.ends p.other ∧ s₂.registered p.other = s₁.registered p.other := by
    intro s₁ i hi hi'
    refine ⟨_, if_pos ⟨hi, hi'⟩, fun j => ?_, Function.update_of_ne hother ..,
      Function.update_of_ne hother ..⟩
    by_cases hji : j = i <;> simp [hji]
  -- the first one, then those below m, by induction on m
  rcases hstep s x hx (hnew x) with ⟨s₀, hfirst, -, hends₀, hregistered₀⟩
  have hkept₀ : P.Kept p x s₀ := .of_first hnew (by rw [hends]; exact hfresh.linked p x)
    (by rw [hends]; exact hfresh.unknown p) (by rw [hends]; exact hfresh.room p) hfirst
  have hbelow : ∀ m ≤ P.dialers.length, ∃ s', Machine.Reachable P.step s s' ∧ P.Kept p x s' ∧
      (∀ i < m, s'.registered p i = true) ∧ s'.ends p.other = s.ends p.other ∧
      s'.registered p.other = s.registered p.other := by
    intro m
    induction m with
    | zero =>
      intro _
      exact ⟨s₀, (Machine.Reachable.refl s).tail hfirst, hkept₀, nofun, hends₀, hregistered₀⟩
    | succ m ih =>
      intro hm
      rcases ih (by omega) with ⟨s₁, hreach, hkept, hdone, hends₁, hregistered₁⟩
      cases hmark : s₁.registered p m with
      | true =>
        refine ⟨s₁, hreach, hkept, fun i hi => ?_, hends₁, hregistered₁⟩
        rcases Nat.lt_succ_iff_lt_or_eq.mp hi with hlt | rfl
        · exact hdone i hlt
        · exact hmark
      | false =>
        rcases hstep s₁ m (by omega) hmark with ⟨s₂, hlast, hmarks, hends₂, hregistered₂⟩
        refine ⟨s₂, hreach.tail hlast, hkept.register hx (hbest m (by omega)) hlast,
          fun i hi => (hmarks i).mpr ?_, hends₂.trans hends₁, hregistered₂.trans hregistered₁⟩
        rcases Nat.lt_succ_iff_lt_or_eq.mp hi with hlt | rfl
        · exact .inr (hdone i hlt)
        · exact .inl rfl
  exact hbelow P.dialers.length le_rfl

/-- Two unbeaten connections, of which either can be the first. -/
structure Rivals (x y : Nat) : Prop where
  ne : x ≠ y
  left : x < P.dialers.length
  right : y < P.dialers.length
  unbeatenLeft : ∀ i < P.dialers.length, ¬ P.Beats i x
  unbeatenRight : ∀ i < P.dialers.length, ¬ P.Beats i y

theorem exists_rivals (h : ¬ P.Electable) (hsome : 0 < P.dialers.length) :
    ∃ x y, P.Rivals x y := by
  rcases not_or.mp h with ⟨hcount, hlength⟩
  rcases Nat.eq_zero_or_pos (P.dialers.count P.low) with hzero | hpos
  · -- the preferred node dialed none
    have hnone : ∀ i j, ¬ P.Beats i j := by
      rintro i j ⟨hlow, -⟩
      exact List.count_eq_zero.mp hzero (List.mem_of_getElem? hlow)
    exact ⟨0, 1, by omega, hsome, by omega, fun i _ => hnone i 0, fun i _ => hnone i 1⟩
  · -- it dialed two
    have hdup : List.Duplicate P.low P.dialers := List.duplicate_iff_two_le_count.mpr (by omega)
    rcases List.duplicate_iff_exists_distinct_get.mp hdup with ⟨x, y, hxy, hx, hy⟩
    have hunbeaten : ∀ z : Fin P.dialers.length, P.low = P.dialers.get z →
        ∀ i < P.dialers.length, ¬ P.Beats i z := by
      rintro z hz i - ⟨-, hlost⟩
      refine hlost ?_
      rw [List.getElem?_eq_getElem z.2, hz]
      rfl
    exact ⟨x, y, fun heq => absurd hxy (by simp [Fin.lt_def, heq]), x.2, y.2, hunbeaten x hx,
      hunbeaten y hy⟩

/-- Given to the two ends in opposite orders, two rivals close each other. -/
theorem Rivals.exists_disagreement {y : Nat} {start : Link} (h : P.Rivals x y)
    (hfresh : P.Fresh start) :
    ∃ s, Machine.Reachable P.step start s ∧ P.Complete s ∧ ¬ P.Agreed s := by
  rcases exists_kept hfresh (s := start) (p := .left) rfl rfl h.left h.unbeatenLeft with
    ⟨s₁, hreach₁, hkept₁, hdone₁, hends₁, hregistered₁⟩
  rcases exists_kept hfresh (s := s₁) (p := .right) hends₁ hregistered₁ h.right h.unbeatenRight with
    ⟨s₂, hreach₂, hkept₂, hdone₂, hends₂, hregistered₂⟩
  simp only [Party.other] at hends₂ hregistered₂
  -- each end has closed what the other kept
  have hleft : ∀ i < P.dialers.length, i ≠ x → (s₂.ends .left).closed (.link i) = true := by
    intro i hi hix
    rw [hends₂]
    exact hkept₁.lost i (hdone₁ i hi) hix
  have hright : ∀ i < P.dialers.length, i ≠ y → (s₂.ends .right).closed (.link i) = true :=
    fun i hi hiy => hkept₂.lost i (hdone₂ i hi) hiy
  let s₃ : Link :=
    { s₂ with ends := Function.update s₂.ends .left ((s₂.ends .left).close (.link x)) }
  have hstep₃ : P.step s₂ (.arrive .left x) = some s₃ := if_pos (hright x h.left h.ne)
  let s₄ : Link :=
    { s₃ with ends := Function.update s₃.ends .right ((s₃.ends .right).close (.link y)) }
  have hstep₄ : P.step s₃ (.arrive .right y) = some s₄ := by
    refine if_pos ?_
    have hlink : Handle.link y ≠ Handle.link x := fun heq => h.ne (Handle.link.inj heq).symm
    simpa [s₃, Party.other, Endpoint.close, Function.update_of_ne hlink] using
      hleft y h.right h.ne.symm
  have hclosed : ∀ p, ∀ i < P.dialers.length, (s₄.ends p).closed (.link i) = true := by
    rintro (_ | _) i hi
    · by_cases hix : i = x
      · simp [s₄, s₃, Endpoint.close, hix]
      · simpa [s₄, s₃, Endpoint.close, Function.update_apply] using .inr (hleft i hi hix)
    · by_cases hiy : i = y
      · simp [s₄, s₃, Endpoint.close, hiy]
      · simpa [s₄, s₃, Endpoint.close, Function.update_apply] using .inr (hright i hi hiy)
  refine ⟨s₄, ((hreach₁.trans hreach₂).tail hstep₃).tail hstep₄, ⟨?_, ?_⟩, ?_⟩
  · rintro (_ | _) i hi
    · change s₂.registered .left i = true
      rw [hregistered₂]
      exact hdone₁ i hi
    · exact hdone₂ i hi
  · exact fun p i hi _ => hclosed p i hi
  · rintro ⟨i, hagreed⟩
    rcases hkept₁.entry with ⟨q, hq, hsession, -⟩
    have hregistry : (s₄.ends .left).registry = (s₁.ends .left).registry := by
      simp [s₄, s₃, Endpoint.close, hends₂]
    have hq' : (s₄.ends .left).entries (P.nodeId .right) = [q] := by
      rw [Endpoint.entries, hregistry]
      exact hq
    have hnone : (s₄.ends .left).openSessions (P.nodeId .right) = [] := by
      simp [Endpoint.openSessions, hq', hsession, hclosed .left x h.left]
    rw [show Party.right = Party.left.other from rfl, hagreed .left] at hnone
    cases hnone

/-- Whatever the order of registrations and closings, both ends settle on one connection
exactly if the rule decides between any two: one connection was dialed by the preferred
node, or there is no other. -/
theorem election_agrees (P : Pairing) (start : Link) (hfresh : P.Fresh start) :
    (∀ s, Machine.Reachable P.step start s → P.Complete s → P.Agreed s) ↔ P.Electable := by
  constructor
  · intro hagrees
    by_contra hnot
    rcases Nat.eq_zero_or_pos P.dialers.length with hzero | hsome
    · -- without a connection there is no session
      have hcomplete : P.Complete start :=
        ⟨fun p i hi => by omega, fun p i hi => by omega⟩
      rcases hagrees start (.refl start) hcomplete with ⟨i, hi⟩
      have hnone := hi .left
      simp [Endpoint.openSessions, hfresh.unknown .left] at hnone
    · rcases exists_rivals hnot hsome with ⟨x, y, hrivals⟩
      rcases hrivals.exists_disagreement hfresh with ⟨s, hreach, hcomplete, hdisagreed⟩
      exact hdisagreed (hagrees s hreach hcomplete)
  · intro helectable s hreach hcomplete
    rcases helectable.exists_dominant with ⟨k, hk⟩
    have hwinning : P.Winning k s :=
      hreach.invariant (.of_fresh hfresh) fun _ _ _ h hstep => h.step hk hstep
    exact hwinning.agreed hk hcomplete

end Pairing

/-- Two nodes without other peers, of which the left one is preferred. -/
def samplePairing (dialers : List Party) : Pairing where
  nodeId
    | .left => 1
    | .right => 2
  distinct := by decide
  dialers := dialers
  address _ _ := none
  sourceIp _ _ := none

def unconnected : Link where
  ends _ := { registry := [], closed := fun _ => false }
  registered _ _ := false

theorem fresh_unconnected (dialers : List Party) : (samplePairing dialers).Fresh unconnected where
  unregistered _ _ := rfl
  linked _ _ := rfl
  unknown _ := rfl
  room _ := ⟨Nat.zero_lt_succ 63, Nat.zero_lt_succ 47, fun _ => Nat.zero_lt_succ 7⟩

/-- The simultaneous dial: one connection in each direction. -/
theorem simultaneous_dial_agrees :
    (samplePairing [.right, .left]).Fresh unconnected ∧
      ∀ s, Machine.Reachable (samplePairing [.right, .left]).step unconnected s →
        (samplePairing [.right, .left]).Complete s → (samplePairing [.right, .left]).Agreed s :=
  ⟨fresh_unconnected _,
    (Pairing.election_agrees _ _ (fresh_unconnected _)).mpr (.inl (by decide))⟩

/-- Two connections dialed by one node are registered in opposite orders, and the two closings
arrive. -/
def crossedSchedule : List LinkAction :=
  [.register .left 0, .register .left 1, .register .right 1, .register .right 0,
    .arrive .left 0, .arrive .right 1]

/-- Each end closes the connection that the other has kept, and no session is left. -/
theorem double_dial_disagrees :
    ∃ s, Machine.run (samplePairing [.left, .left]).step unconnected crossedSchedule = some s ∧
      (samplePairing [.left, .left]).Complete s ∧
      (∀ p, (s.ends p).openSessions ((samplePairing [.left, .left]).nodeId p.other) = []) ∧
      ¬ (samplePairing [.left, .left]).Agreed s := by
  refine ⟨_, rfl, ⟨?_, ?_⟩, ?_, ?_⟩
  · rintro (_ | _) <;> decide
  · rintro (_ | _) <;> decide
  · rintro (_ | _) <;> decide
  · rintro ⟨i, hi⟩
    have hnone := hi .left
    cases hnone

end Mutiny.Duplex
