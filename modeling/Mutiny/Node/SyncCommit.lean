import Mathlib.Logic.Function.Basic
import Mutiny.Lib.Machine
import Mutiny.Node.ChainTrace
import Mutiny.Node.SyncRuns

/-!
# Synchronisation beside the admission of transactions

A thread that synchronises clones the shared state, rebuilds the chain of its peer without
the lock, and commits under the lock if the tip is still the one it cloned.  Transactions
are admitted meanwhile.  On the Mainnet the commit carries the pool of the current state
over to the new one; on the Devnet it replaces the current state, pool and all.

Main results:

- Theorem {lit}`sync_keeps_admitted`: on the Mainnet what was admitted meanwhile is kept.
- Theorem {lit}`devnet_sync_loses_admitted`: on the Devnet it is lost.
-/

namespace Mutiny

open Result

/-- Where a thread stands. -/
inductive SyncPhase
  | cloned
  | prepared (candidate : NodeState)
  | finished (committed : Bool)

/-- A thread that synchronises: the state it cloned, and how many transactions had been
admitted by then. -/
structure SyncThread where
  base : NodeState
  mark : Nat
  phase : SyncPhase

/-- A running node: the state behind the lock, the transactions admitted so far, and the
threads by their number. -/
structure SyncNode where
  shared : NodeState
  accepted : List PendingTxState
  threads : Nat → Option SyncThread

/-- What can happen. -/
inductive SyncAction
  | announce (tx : TransactionV1)
  | clone (c : Nat)
  | sync (c : Nat) (peer : Peer)
  | commit (c : Nat)
  | apply (c : Nat) (header : HeaderV1) (txs : List TransactionV1)
      (operations : List ProtocolOperationV1)
  | block (header : HeaderV1) (txs : List TransactionV1) (operations : List ProtocolOperationV1)

/-- A thread is replaced. -/
def SyncNode.set (s : SyncNode) (c : Nat) (t : SyncThread) : SyncNode :=
  { s with threads := Function.update s.threads c (some t) }

/-- No thread has started. -/
def SyncNode.start (shared : NodeState) : SyncNode where
  shared := shared
  accepted := []
  threads := fun _ => none

/-- The chain is replaced. -/
def NodeState.withChain (s : NodeState) (chain : DevnetState) : NodeState :=
  { s with chain := chain }

section Node

variable [Crypto]

/-- The admission of an announced transaction. -/
def admitAnnounced (s : DevnetState) (tx : TransactionV1) : Except String PendingTxState := do
  let pending ← pendingFromTransaction s tx
  validateReceivedPending s pending
  .ok pending

/-- What a thread has after a synchronisation: a candidate, if something changed. -/
def SyncPhase.ofSync (result : Except RuntimeBlockApplyError (NodeState × SyncReport)) :
    SyncPhase :=
  match result with
  | .error _ => .finished false
  | .ok (candidate, report) =>
    if 0 < report.appliedBlocks ∨ report.reorg = true then .prepared candidate
    else .finished false

/-- The state a commit puts in the place of the current one. -/
def committedState (runtime : RuntimeNetwork) (candidate current : NodeState) :
    Except String NodeState :=
  match runtime with
  | .devnet => .ok candidate
  | .mainnet => do
    let chain ← refreshPendingAfterRuntimeCommit candidate.chain current.chain
    .ok (candidate.withChain chain)

/-- One action.  A Mainnet thread whose announced block continues the tip applies it to the
state as it is under the lock; older peers have their block applied without a clone. -/
def SyncNode.step (runtime : RuntimeNetwork) (witness : Option (ApplyBlock RuntimeBlockApplyError))
    (s : SyncNode) : SyncAction → Option SyncNode
  | .announce tx =>
    match admitAnnounced s.shared.chain tx with
    | .error _ => some s
    | .ok pending => some { s with
        shared := s.shared.withChain { s.shared.chain with
          mempool := s.shared.chain.mempool ++ [pending] }
        accepted := s.accepted ++ [pending] }
  | .clone c =>
    match s.threads c with
    | some _ => none
    | none => some (s.set c ⟨s.shared, s.accepted.length, .cloned⟩)
  | .sync c peer =>
    match s.threads c with
    | some ⟨base, mark, .cloned⟩ => some (s.set c ⟨base, mark,
        .ofSync (syncStateFromPeerDuplexForRuntime runtime witness peer base)⟩)
    | _ => none
  | .commit c =>
    match s.threads c with
    | some ⟨base, mark, .prepared candidate⟩ =>
      if s.shared.chain.tipHash ≠ base.chain.tipHash then
        some (s.set c ⟨base, mark, .finished false⟩)
      else
        match committedState runtime candidate s.shared with
        | .error _ => some (s.set c ⟨base, mark, .finished false⟩)
        | .ok shared => some { s.set c ⟨base, mark, .finished true⟩ with shared := shared }
    | _ => none
  | .apply c header txs operations =>
    match s.threads c, runtime with
    | some ⟨base, mark, .cloned⟩, .mainnet =>
      if s.shared.chain.height ≠ base.chain.height ∨
          s.shared.chain.tipHash ≠ base.chain.tipHash then
        some (s.set c ⟨base, mark, .finished false⟩)
      else
        match validateAndApplyAnnouncedBlock runtime witness s.shared.chain header txs
            operations with
        | .error _ => some (s.set c ⟨base, mark, .finished false⟩)
        | .ok chain => some { s.set c ⟨base, mark, .finished true⟩ with
            shared := s.shared.withChain chain }
    | _, _ => none
  | .block header txs operations =>
    match validateAndApplyAnnouncedBlock runtime witness s.shared.chain header txs operations with
    | .error _ => some s
    | .ok chain => some { s with shared := s.shared.withChain chain }

/-- All that an action can do to a node. -/
inductive SyncMove (runtime : RuntimeNetwork) (witness : Option (ApplyBlock RuntimeBlockApplyError))
    (s : SyncNode) : SyncAction → SyncNode → Prop
  /-- A transaction or a block is refused. -/
  | refused {a} (ha : ∀ c, a ≠ .commit c) : SyncMove runtime witness s a s
  /-- A transaction is admitted. -/
  | admitted {tx pending} (hpooled : admitAnnounced s.shared.chain tx = .ok pending) :
      SyncMove runtime witness s (.announce tx) { s with
        shared := s.shared.withChain { s.shared.chain with
          mempool := s.shared.chain.mempool ++ [pending] }
        accepted := s.accepted ++ [pending] }
  /-- A thread starts. -/
  | cloned (c : Nat) :
      SyncMove runtime witness s (.clone c) (s.set c ⟨s.shared, s.accepted.length, .cloned⟩)
  /-- A thread is done with its peer. -/
  | synced {c t} (peer : Peer) (hthread : s.threads c = some t) :
      SyncMove runtime witness s (.sync c peer) (s.set c { t with
        phase := .ofSync (syncStateFromPeerDuplexForRuntime runtime witness peer t.base) })
  /-- A thread gives up. -/
  | stopped {a c t} (ha : ∀ d, a = .commit d → d = c) (hthread : s.threads c = some t)
      (hopen : t.phase ≠ .finished true) :
      SyncMove runtime witness s a (s.set c { t with phase := .finished false })
  /-- A thread commits its candidate. -/
  | committed {c t candidate shared} (hthread : s.threads c = some t)
      (hphase : t.phase = .prepared candidate)
      (htip : s.shared.chain.tipHash = t.base.chain.tipHash)
      (hshared : committedState runtime candidate s.shared = .ok shared) :
      SyncMove runtime witness s (.commit c)
        { s.set c { t with phase := .finished true } with shared := shared }
  /-- A thread applies a block to the shared chain. -/
  | applied {c t header txs operations chain} (hthread : s.threads c = some t)
      (htip : s.shared.chain.tipHash = t.base.chain.tipHash)
      (happly : validateAndApplyAnnouncedBlock runtime witness s.shared.chain header txs
        operations = .ok chain) :
      SyncMove runtime witness s (.apply c header txs operations)
        { s.set c { t with phase := .finished true } with shared := s.shared.withChain chain }
  /-- A block is applied without a thread. -/
  | extended {header txs operations chain}
      (happly : validateAndApplyAnnouncedBlock runtime witness s.shared.chain header txs
        operations = .ok chain) :
      SyncMove runtime witness s (.block header txs operations)
        { s with shared := s.shared.withChain chain }

theorem SyncNode.move_of_step {runtime : RuntimeNetwork}
    {witness : Option (ApplyBlock RuntimeBlockApplyError)} {s s' : SyncNode} {a : SyncAction}
    (h : s.step runtime witness a = some s') : SyncMove runtime witness s a s' := by
  cases a with
  | announce tx =>
    simp only [SyncNode.step] at h
    split at h
    · cases h
      exact .refused fun _ heq => by cases heq
    next pending hpooled =>
      cases h
      exact .admitted hpooled
  | clone c =>
    simp only [SyncNode.step] at h
    split at h
    · cases h
    · cases h
      exact .cloned c
  | sync c peer =>
    simp only [SyncNode.step] at h
    split at h
    next base mark hthread =>
      cases h
      exact .synced peer hthread
    · cases h
  | commit c =>
    simp only [SyncNode.step] at h
    split at h
    next base mark candidate hthread =>
      have hstopped : SyncMove runtime witness s (.commit c) (s.set c ⟨base, mark, .finished false⟩) :=
        .stopped (fun _ heq => by cases heq; rfl) hthread fun heq => by cases heq
      split at h
      · cases h
        exact hstopped
      next htip =>
        split at h
        · cases h
          exact hstopped
        next shared hshared =>
          cases h
          exact .committed hthread rfl (not_not.mp htip) hshared
    · cases h
  | apply c header txs operations =>
    simp only [SyncNode.step] at h
    split at h
    next base mark hthread =>
      have hstopped : SyncMove .mainnet witness s (.apply c header txs operations)
          (s.set c ⟨base, mark, .finished false⟩) :=
        .stopped (fun _ heq => by cases heq) hthread fun heq => by cases heq
      split at h
      · cases h
        exact hstopped
      next htip =>
        split at h
        · cases h
          exact hstopped
        next chain happly =>
          cases h
          rw [not_or, not_not, not_not] at htip
          exact .applied hthread htip.2 happly
    · cases h
  | block header txs operations =>
    simp only [SyncNode.step] at h
    split at h
    · cases h
      exact .refused fun _ heq => by cases heq
    next chain happly =>
      cases h
      exact .extended happly

end Node

/-! ## Threads and the shared state -/

section Invariant

variable [Crypto] {known : Set TransactionV1} {work : Bytes32 → Nat}
  {witness : Option (ApplyBlock RuntimeBlockApplyError)}

/-- What a thread may rely on: the chain it cloned is still there and everything admitted
since is in the pool behind it, or the shared chain has more work by now. -/
structure Following (known : Set TransactionV1) (work : Bytes32 → Nat) (s : SyncNode)
    (t : SyncThread) : Prop where
  mark : t.mark ≤ s.accepted.length
  grounded : Grounded known t.base.chain
  measured : chainwork t.base.chain = work t.base.chain.tipHash
  current : chainwork t.base.chain < chainwork s.shared.chain ∨
    (s.shared.chain = { t.base.chain with mempool := s.shared.chain.mempool } ∧
      ∀ x ∈ s.accepted.drop t.mark, AdmittedOnto s.shared.chain x)
  candidate : ∀ candidate, t.phase = .prepared candidate →
    Grounded known candidate.chain ∧ chainwork t.base.chain < chainwork candidate.chain

/-- What every schedule preserves. -/
structure SyncInvariant (known : Set TransactionV1) (work : Bytes32 → Nat) (s : SyncNode) :
    Prop where
  grounded : Grounded known s.shared.chain
  threads : ∀ c t, s.threads c = some t → Following known work s t

/-- A shared state whose pool has known transactions only and whose work its tip tells. -/
structure Measured (known : Set TransactionV1) (work : Bytes32 → Nat) (s : SyncNode) : Prop where
  pool : ∀ p ∈ s.shared.chain.mempool,
    p.toTransactionForNetwork s.shared.chain.networkId ∈ known
  tip : chainwork s.shared.chain = work s.shared.chain.tipHash

/-- An action that brings known transactions only. -/
def SyncAction.Within (known : Set TransactionV1) : SyncAction → Prop
  | .sync _ peer => peer.Within known
  | .apply _ _ txs _ => ∀ tx ∈ txs, tx ∈ known
  | .block _ txs _ => ∀ tx ∈ txs, tx ∈ known
  | _ => True

variable {s : SyncNode}

omit [Crypto] in
theorem SyncNode.threads_set {c d : Nat} {t t' : SyncThread} (h : (s.set c t).threads d = some t') :
    (d = c ∧ t' = t) ∨ (d ≠ c ∧ s.threads d = some t') := by
  by_cases hdc : d = c
  · left
    simp only [hdc, SyncNode.set, Function.update_self, Option.some.injEq] at h
    exact ⟨hdc, h.symm⟩
  · right
    simp only [SyncNode.set, Function.update_of_ne hdc] at h
    exact ⟨hdc, h⟩

namespace Following

variable {s s' : SyncNode} {t : SyncThread}

theorem work_le (h : Following known work s t) :
    chainwork t.base.chain ≤ chainwork s.shared.chain := by
  rcases h.current with hless | ⟨hsame, -⟩
  · exact hless.le
  · rw [hsame]
    exact le_rfl

/-- The shared chain gains work. -/
theorem grow (h : Following known work s t) (haccepted : s'.accepted = s.accepted)
    (hwork : chainwork s.shared.chain < chainwork s'.shared.chain) : Following known work s' t :=
  ⟨haccepted ▸ h.mark, h.grounded, h.measured, Or.inl (h.work_le.trans_lt hwork), h.candidate⟩

/-- The thread goes on and the shared state stays. -/
theorem set (h : Following known work s t) (hshared : s'.shared = s.shared)
    (haccepted : s'.accepted = s.accepted) {phase : SyncPhase}
    (hphase : ∀ candidate, phase = .prepared candidate →
      Grounded known candidate.chain ∧ chainwork t.base.chain < chainwork candidate.chain) :
    Following known work s' { t with phase := phase } :=
  ⟨haccepted ▸ h.mark, h.grounded, h.measured, by
    rw [hshared, haccepted]
    exact h.current, hphase⟩

/-- The tip is the one the thread cloned: so is the chain. -/
theorem current_of_tip (h : Following known work s t) (hs : Measured known work s)
    (htip : s.shared.chain.tipHash = t.base.chain.tipHash) :
    s.shared.chain = { t.base.chain with mempool := s.shared.chain.mempool } ∧
      ∀ x ∈ s.accepted.drop t.mark, AdmittedOnto s.shared.chain x := by
  rcases h.current with hless | hsame
  · rw [hs.tip, h.measured, htip] at hless
    exact absurd hless (lt_irrefl _)
  · exact hsame

end Following

theorem admittedOnto_append {s : DevnetState} {x p : PendingTxState} (h : AdmittedOnto s x) :
    AdmittedOnto { s with mempool := s.mempool ++ [p] } x := by
  rcases h with ⟨before, after, hpool, hreceive⟩
  refine ⟨before, after ++ [p], ?_, hreceive⟩
  simp only [hpool, List.append_assoc, List.cons_append]

/-- An admission: threads that follow the shared chain still do. -/
theorem Following.announce {t : SyncThread} {p : PendingTxState} (h : Following known work s t)
    (hreceive : validateReceivedPending s.shared.chain p = .ok ()) :
    Following known work { s with
      shared := s.shared.withChain { s.shared.chain with
        mempool := s.shared.chain.mempool ++ [p] }
      accepted := s.accepted ++ [p] } t := by
  refine ⟨?_, h.grounded, h.measured, ?_, h.candidate⟩
  · simp only [List.length_append]
    exact h.mark.trans (Nat.le_add_right _ _)
  · rcases h.current with hless | ⟨hsame, hadmitted⟩
    · exact Or.inl hless
    · right
      constructor
      · simp only [NodeState.withChain]
        rw [hsame]
      · intro x hx
        simp only [List.drop_append_of_le_length h.mark, List.mem_append,
          List.mem_singleton] at hx
        rcases hx with hold | rfl
        · exact admittedOnto_append (hadmitted x hold)
        · exact ⟨s.shared.chain.mempool, [], rfl, hreceive⟩

/-! ## Commits -/

/-- A step that puts another chain in the place of the shared one. -/
structure Replaces (known : Set TransactionV1) (s : SyncNode) (shared : NodeState) : Prop where
  grounded : Grounded known shared.chain
  work : chainwork s.shared.chain < chainwork shared.chain

/-- A committed candidate has more work than the state it replaces, and keeps what was
admitted since the clone. -/
theorem commit_replaces (hknown : CollisionFree known) {t : SyncThread} {candidate shared : NodeState}
    (hs : SyncInvariant known work s) (hmeasured : Measured known work s)
    (ht : Following known work s t) (hphase : t.phase = .prepared candidate)
    (htip : s.shared.chain.tipHash = t.base.chain.tipHash)
    (h : committedState .mainnet candidate s.shared = .ok shared) :
    Replaces known s shared ∧ ∀ x ∈ s.accepted.drop t.mark,
      validatePendingCandidate { shared.chain with mempool := [] } x false = .ok () →
      x ∈ shared.chain.mempool := by
  rcases ht.current_of_tip hmeasured htip with ⟨hsame, hadmitted⟩
  rcases ht.candidate candidate hphase with ⟨hgrounded, hwork⟩
  simp only [committedState, ok_rules] at h
  rcases h with ⟨chain, hrefresh, rfl⟩
  have hframe := refreshPendingAfterRuntimeCommit_frame hrefresh
  refine ⟨⟨?_, ?_⟩, ?_⟩
  · apply hgrounded.of_frame <;> simp only [NodeState.withChain] <;> rw [hframe]
  · have hold : chainwork s.shared.chain = chainwork t.base.chain := by
      rw [hsame]
      rfl
    have hnew : chainwork (candidate.withChain chain).chain = chainwork candidate.chain := by
      simp only [NodeState.withChain]
      rw [hframe]
      rfl
    rw [hold, hnew]
    exact hwork
  · intro x hx halone
    rcases hs.grounded with ⟨done, hdone, hledger⟩
    have hall : ∀ tx ∈ done ++ s.shared.chain.mempool.map
        (·.toTransactionForNetwork s.shared.chain.networkId), tx ∈ known := by
      intro tx htx
      rcases List.mem_append.mp htx with hold | hnew
      · exact hdone tx hold
      · rcases List.mem_map.mp hnew with ⟨p, hp, rfl⟩
        exact hmeasured.pool p hp
    exact refresh_keeps_admitted (hadmitted x hx) hledger.outputs
      (fun a ha b hb => hknown a (hall a ha) b (hall b hb)) hrefresh halone

theorem announcedBlock_of_ok (hknown : CollisionFree known) (hwitness : SoundWitness witness)
    {s s' : DevnetState} {header : HeaderV1} {txs : List TransactionV1}
    {operations : List ProtocolOperationV1} (hs : Grounded known s) (htxs : ∀ tx ∈ txs, tx ∈ known)
    (h : validateAndApplyAnnouncedBlock .mainnet witness s header txs operations = .ok s') :
    MainnetBlock known s s' := by
  simp only [validateAndApplyAnnouncedBlock, bind_eq_ok] at h
  rcases h with ⟨_, -, _, -, h⟩
  exact mainnetBlock_of_ok hknown hwitness hs htxs h

/-- The threads go on from where they were: none is new and none has a new candidate. -/
def Continues (old new : Nat → Option SyncThread) : Prop :=
  ∀ c t', new c = some t' → ∃ t, old c = some t ∧ t'.base = t.base ∧ t'.mark = t.mark ∧
    ∀ candidate, t'.phase = .prepared candidate → t.phase = .prepared candidate

omit [Crypto] in
theorem Continues.refl (threads : Nat → Option SyncThread) : Continues threads threads :=
  fun _ t ht => ⟨t, ht, rfl, rfl, fun _ h => h⟩

omit [Crypto] in
/-- A thread may finish. -/
theorem Continues.finish {s : SyncNode} {c : Nat} {t : SyncThread} (ht : s.threads c = some t) :
    Continues s.threads (s.set c { t with phase := .finished true }).threads := by
  intro d t' hd
  rcases SyncNode.threads_set hd with ⟨rfl, rfl⟩ | ⟨-, hd⟩
  · exact ⟨t, ht, rfl, rfl, fun _ h => by cases h⟩
  · exact Continues.refl _ d t' hd

namespace SyncInvariant

variable {s s' : SyncNode}

/-- The shared chain is replaced; a thread may go on at the same time. -/
theorem replace (hs : SyncInvariant known work s) {shared : NodeState}
    (hreplaces : Replaces known s shared) (hshared : s'.shared = shared)
    (haccepted : s'.accepted = s.accepted) (hthreads : Continues s.threads s'.threads) :
    SyncInvariant known work s' := by
  constructor
  · rw [hshared]
    exact hreplaces.grounded
  · intro c t' ht'
    rcases hthreads c t' ht' with ⟨t, ht, hbase, hmark, hphase⟩
    have hwork : chainwork s.shared.chain < chainwork s'.shared.chain := by
      rw [hshared]
      exact hreplaces.work
    have hgrown := (hs.threads c t ht).grow haccepted hwork
    refine ⟨hmark ▸ hgrown.mark, hbase ▸ hgrown.grounded, hbase ▸ hgrown.measured, ?_, ?_⟩
    · left
      rw [hbase]
      exact (hs.threads c t ht).work_le.trans_lt hwork
    · intro candidate hprepared
      rw [hbase]
      exact hgrown.candidate candidate (hphase candidate hprepared)

/-- A thread goes on without a change of the shared state. -/
theorem set (hs : SyncInvariant known work s) {c : Nat} {t : SyncThread}
    (ht : Following known work s t) : SyncInvariant known work (s.set c t) := by
  refine ⟨hs.grounded, ?_⟩
  intro d t' hd
  have hsame : ∀ u, Following known work s u → Following known work (s.set c t) u :=
    fun u hu => ⟨hu.mark, hu.grounded, hu.measured, hu.current, hu.candidate⟩
  rcases SyncNode.threads_set hd with ⟨-, rfl⟩ | ⟨-, hd⟩
  · exact hsame _ ht
  · exact hsame _ (hs.threads d t' hd)

end SyncInvariant

/-! ## Runs -/

/-- Every action of the Mainnet keeps the invariant. -/
theorem SyncInvariant.step (hknown : CollisionFree known) (hwitness : SoundWitness witness)
    {s' : SyncNode} {a : SyncAction} (hs : SyncInvariant known work s)
    (hmeasured : Measured known work s) (ha : a.Within known)
    (h : s.step .mainnet witness a = some s') : SyncInvariant known work s' := by
  cases SyncNode.move_of_step h with
  | refused => exact hs
  | admitted hpooled =>
    simp only [admitAnnounced, ok_rules] at hpooled
    rcases hpooled with ⟨_, -, _, hreceived, rfl⟩
    exact ⟨hs.grounded.of_frame rfl rfl rfl, fun c t ht => (hs.threads c t ht).announce hreceived⟩
  | cloned c =>
    refine hs.set ⟨le_rfl, hs.grounded, hmeasured.tip, Or.inr ⟨rfl, ?_⟩, fun _ h => by cases h⟩
    intro x hx
    simp at hx
  | synced peer hthread =>
    have ht := hs.threads _ _ hthread
    refine hs.set (ht.set rfl rfl ?_)
    intro candidate hprepared
    unfold SyncPhase.ofSync at hprepared
    split at hprepared
    · cases hprepared
    next prepared report hsync =>
      split at hprepared
      next hchanged =>
        cases hprepared
        exact sync_prepares hknown hwitness ha ht.grounded hsync hchanged
      · cases hprepared
  | stopped _ hthread => exact hs.set ((hs.threads _ _ hthread).set rfl rfl fun _ h => by cases h)
  | committed hthread hphase htip hshared =>
    have hreplaces := (commit_replaces hknown hs hmeasured (hs.threads _ _ hthread) hphase htip
      hshared).1
    exact hs.replace hreplaces rfl rfl (.finish hthread)
  | applied hthread _ happly =>
    have hblock := announcedBlock_of_ok hknown hwitness hs.grounded ha happly
    exact hs.replace ⟨hblock.grounded, hblock.work⟩ rfl rfl (.finish hthread)
  | extended happly =>
    have hblock := announcedBlock_of_ok hknown hwitness hs.grounded ha happly
    exact hs.replace ⟨hblock.grounded, hblock.work⟩ rfl rfl (.refl _)

/-- A schedule of the Mainnet whose transactions have no colliding identifiers, and on which
the hash of a tip tells the work of its chain. -/
structure MainnetRun (known : Set TransactionV1) (work : Bytes32 → Nat)
    (witness : Option (ApplyBlock RuntimeBlockApplyError)) (start : NodeState)
    (schedule : List SyncAction) (s : SyncNode) : Prop where
  collisions : CollisionFree known
  witnessed : SoundWitness witness
  grounded : Grounded known start.chain
  within : ∀ a ∈ schedule, a.Within known
  measured : ∀ before after n, schedule = before ++ after →
    Machine.run (SyncNode.step .mainnet witness) (.start start) before = some n →
    Measured known work n
  run : Machine.run (SyncNode.step .mainnet witness) (.start start) schedule = some s

theorem MainnetRun.invariant {start : NodeState} {schedule : List SyncAction}
    (h : MainnetRun known work witness start schedule s) : SyncInvariant known work s := by
  rcases h with ⟨hknown, hwitness, hstart, hwithin, hmeasured, hrun⟩
  induction schedule using List.reverseRecOn generalizing s with
  | nil =>
    cases hrun
    exact ⟨hstart, fun c t ht => by cases ht⟩
  | append_singleton done a ih =>
    rcases Machine.run_concat_eq_some.mp hrun with ⟨s₁, hdone, hlast⟩
    have hbefore := ih (fun b hb => hwithin b (List.mem_append_left _ hb))
      (fun before after n heq => hmeasured before (after ++ [a]) n (by rw [heq]; simp)) hdone
    exact hbefore.step hknown hwitness (hmeasured done [a] s₁ rfl hdone)
      (hwithin a (List.mem_append_right _ (List.mem_singleton_self a))) hlast

/-- A step that finishes an open thread as committed commits its candidate, or applies an
announced block to the shared chain; the tip is the one the thread cloned. -/
theorem committed_cases {s' : SyncNode} {a : SyncAction} {c : Nat} {t : SyncThread}
    (hstep : s.step .mainnet witness a = some s') (hthread : s.threads c = some t)
    (hopen : t.phase ≠ .finished true)
    (hcommitted : s'.threads c = some { t with phase := .finished true }) :
    s'.accepted = s.accepted ∧ s.shared.chain.tipHash = t.base.chain.tipHash ∧
      ((∃ candidate, t.phase = .prepared candidate ∧
          committedState .mainnet candidate s.shared = .ok s'.shared) ∨
        ∃ header txs operations, a = .apply c header txs operations ∧
          validateAndApplyAnnouncedBlock .mainnet witness s.shared.chain header txs operations =
            .ok s'.shared.chain) := by
  -- every other step leaves the thread open
  have hunchanged : s'.threads ≠ s.threads := by
    intro hsame
    rw [hsame, hthread, Option.some.injEq] at hcommitted
    exact hopen (congrArg SyncThread.phase hcommitted)
  have hother : ∀ {d : Nat} {u : SyncThread}, u.phase ≠ .finished true → s.set d u ≠ s' := by
    intro d u hu heq
    rw [← heq] at hcommitted
    rcases SyncNode.threads_set hcommitted with ⟨-, rfl⟩ | ⟨-, hold⟩
    · exact hu rfl
    · rw [hthread, Option.some.injEq] at hold
      exact hopen (congrArg SyncThread.phase hold)
  have hsame : ∀ {d : Nat} {u : SyncThread} {shared : NodeState}, s.threads d = some u →
      { s.set d { u with phase := .finished true } with shared := shared } = s' →
      d = c ∧ u = t := by
    intro d u shared hd heq
    rw [← heq] at hcommitted
    rcases @SyncNode.threads_set s d c _ _ hcommitted with ⟨rfl, -⟩ | ⟨-, hold⟩
    · rw [hthread, Option.some.injEq] at hd
      exact ⟨rfl, hd.symm⟩
    · rw [hthread, Option.some.injEq] at hold
      exact absurd (congrArg SyncThread.phase hold) hopen
  cases SyncNode.move_of_step hstep with
  | refused => exact absurd rfl hunchanged
  | admitted => exact absurd rfl hunchanged
  | extended => exact absurd rfl hunchanged
  | cloned => exact absurd rfl (hother fun h => by cases h)
  | synced =>
    refine absurd rfl (hother ?_)
    dsimp only
    unfold SyncPhase.ofSync
    split
    · exact fun h => by cases h
    · split <;> exact fun h => by cases h
  | stopped => exact absurd rfl (hother fun h => by cases h)
  | committed hd hphase htip hshared =>
    rcases hsame hd rfl with ⟨rfl, rfl⟩
    exact ⟨rfl, htip, Or.inl ⟨_, hphase, hshared⟩⟩
  | applied hd htip happly =>
    rcases hsame hd rfl with ⟨rfl, rfl⟩
    exact ⟨rfl, htip, Or.inr ⟨_, _, _, rfl, happly⟩⟩

/-- Over every schedule of the Mainnet: a transaction that was admitted between the clone and
the commit of a thread, is not confirmed by the committed chain and is valid alone on it, is
in the shared pool after the commit.  Where the thread applies an announced block directly,
no queued operation may wait for the transaction. -/
theorem sync_keeps_admitted {start : NodeState} {schedule : List SyncAction} {s s' : SyncNode}
    {a : SyncAction} {c : Nat} {t : SyncThread} {x : PendingTxState}
    (hrun : MainnetRun known work witness start schedule s) (ha : a.Within known)
    (hstep : s.step .mainnet witness a = some s') (hthread : s.threads c = some t)
    (hopen : t.phase ≠ .finished true)
    (hcommitted : s'.threads c = some { t with phase := .finished true })
    (hx : x ∈ s'.accepted.drop t.mark)
    (hfree : ∀ header txs operations, a = .apply c header txs operations →
      x.txid ∉ requiredTxids s.shared.chain.pendingProtocolOperations)
    (hunconfirmed : ∀ r ∈ s'.shared.chain.confirmedTransactions, r.tx.txid ≠ x.txid)
    (halone : validatePendingCandidate { s'.shared.chain with mempool := [] } x false = .ok ()) :
    x ∈ s'.shared.chain.mempool := by
  have hs := hrun.invariant
  have hmeasured := hrun.measured schedule [] s (by simp) hrun.run
  have ht := hs.threads c t hthread
  rcases committed_cases hstep hthread hopen hcommitted with ⟨haccepted, htip, hcase⟩
  rw [haccepted] at hx
  rcases hcase with ⟨candidate, hphase, hshared⟩ | ⟨header, txs, operations, rfl, happly⟩
  · exact (commit_replaces hrun.collisions hs hmeasured ht hphase htip hshared).2 x hx halone
  · have hblock := announcedBlock_of_ok hrun.collisions hrun.witnessed hs.grounded ha happly
    rcases (ht.current_of_tip hmeasured htip).2 x hx with ⟨before, after, hpool, -⟩
    have hpooled : x ∈ s.shared.chain.mempool := by
      rw [hpool]
      exact List.mem_append_right _ List.mem_cons_self
    exact hblock.keeps x ⟨hpooled, hfree header txs operations rfl⟩ hunconfirmed

end Invariant

/-! ## Examples of runs -/

section Samples

variable [Crypto]

/-- Clones, synchronisations and the admission of known transactions. -/
def SyncAction.Quiet (known : Set TransactionV1) : SyncAction → Prop
  | .announce tx => tx ∈ known
  | .clone _ => True
  | .sync _ _ => True
  | _ => False

variable {witness : Option (ApplyBlock RuntimeBlockApplyError)} {known : Set TransactionV1}

/-- Quiet actions change nothing of the shared state but its pool. -/
theorem quiet_step {runtime : RuntimeNetwork} {s s' : SyncNode} {a : SyncAction}
    (ha : a.Quiet known) (hpool : ∀ p ∈ s.shared.chain.mempool,
      p.toTransactionForNetwork s.shared.chain.networkId ∈ known)
    (h : s.step runtime witness a = some s') :
    s'.shared.chain = { s.shared.chain with mempool := s'.shared.chain.mempool } ∧
      ∀ p ∈ s'.shared.chain.mempool,
        p.toTransactionForNetwork s.shared.chain.networkId ∈ known := by
  cases SyncNode.move_of_step h with
  | refused => exact ⟨rfl, hpool⟩
  | admitted hpooled =>
    simp only [admitAnnounced, ok_rules] at hpooled
    rcases hpooled with ⟨_, hpending, _, -, rfl⟩
    refine ⟨rfl, ?_⟩
    intro p hp
    rcases List.mem_append.mp hp with hold | hnew
    · exact hpool p hold
    · rw [List.mem_singleton.mp hnew, toTransaction_pendingFromTransaction hpending]
      exact ha
  | cloned => exact ⟨rfl, hpool⟩
  | synced => exact ⟨rfl, hpool⟩
  | stopped => exact ⟨rfl, hpool⟩
  | committed => exact ha.elim
  | applied => exact ha.elim
  | extended => exact ha.elim

theorem quiet_run {runtime : RuntimeNetwork} {s s' : SyncNode} {schedule : List SyncAction}
    (hquiet : ∀ a ∈ schedule, a.Quiet known) (hpool : ∀ p ∈ s.shared.chain.mempool,
      p.toTransactionForNetwork s.shared.chain.networkId ∈ known)
    (h : Machine.run (SyncNode.step runtime witness) s schedule = some s') :
    s'.shared.chain = { s.shared.chain with mempool := s'.shared.chain.mempool } ∧
      ∀ p ∈ s'.shared.chain.mempool,
        p.toTransactionForNetwork s.shared.chain.networkId ∈ known := by
  induction schedule generalizing s with
  | nil =>
    cases h
    exact ⟨rfl, hpool⟩
  | cons a schedule ih =>
    rw [List.forall_mem_cons] at hquiet
    rcases Machine.run_cons_eq_some.mp h with ⟨s₁, hfirst, hrest⟩
    rcases quiet_step hquiet.1 hpool hfirst with ⟨hframe, hpool₁⟩
    have hnetwork : s₁.shared.chain.networkId = s.shared.chain.networkId := by
      rw [hframe]
    rcases ih hquiet.2 (hnetwork ▸ hpool₁) hrest with ⟨hframe', hpool'⟩
    refine ⟨?_, hnetwork ▸ hpool'⟩
    rw [hframe', hframe]

/-- A commit finishes a thread that was open. -/
theorem thread_of_commit {runtime : RuntimeNetwork} {s s' : SyncNode} {c : Nat}
    (h : s.step runtime witness (.commit c) = some s') :
    ∃ (t : SyncThread) (committed : Bool), s.threads c = some t ∧ t.phase ≠ .finished true ∧
      s'.threads c = some { t with phase := .finished committed } := by
  cases SyncNode.move_of_step h with
  | refused ha => exact absurd rfl (ha c)
  | stopped ha hthread hopen =>
    cases ha c rfl
    exact ⟨_, false, hthread, hopen, by simp [SyncNode.set]⟩
  | committed hthread hphase =>
    exact ⟨_, true, hthread, by simp [hphase], by simp [SyncNode.set]⟩

/-- A transaction that sends half of an output back to its owner. -/
def halfBack (networkId : UInt32) (l : LicenseState) (u : UtxoState) : TransactionV1 where
  core :=
    { version := 1
      networkId := networkId
      validFromEpoch := 0
      expiryEpoch := 0
      inputs := [.outpoint u.outpoint]
      outputs := [
        { amountStrikes := u.amountStrikes / 2
          outputType := outputPubkeyHash
          payload := Bytes.b32 l.paymentAddressId }] }
  witnesses := [.pubkeyHash l.ownerPublicKey 0]

/-- A block as a peer sends it. -/
def servedBlock (b : BlockState) :
    Except String (HeaderV1 × List TransactionV1 × List ProtocolOperationV1) := do
  let payload ← encodeBlockPayload b
  decodeBlockPayload payload

/-- A peer that has mined one block more. -/
def peerAhead (s : DevnetState) (signer : Option (Nat × MiningAuthority)) :
    Except String Peer := do
  let mined ← mineEpochWithSigner s (nextMineableEpoch s) signer
  let blocks ← mined.blocks.mapM servedBlock
  let last ← okOr blocks.getLast? "no block was mined"
  if h : (blocks.map (·.1)).length < 2 ^ 64 then
    .ok ⟨blocks.map (·.1), h, fun _ => .ok last⟩
  else .error "too many blocks"

/-- What was admitted between the clone and the commit of a thread that committed. -/
def SyncNode.admittedDuring (s : SyncNode) (c : Nat) : List PendingTxState :=
  match s.threads c with
  | some ⟨_, mark, .finished true⟩ => s.accepted.drop mark
  | _ => []

omit [Crypto] in
theorem SyncNode.committed_of_mem {s : SyncNode} {c : Nat} {x : PendingTxState}
    (h : x ∈ s.admittedDuring c) :
    ∃ t : SyncThread, s.threads c = some { t with phase := .finished true } ∧
      x ∈ s.accepted.drop t.mark := by
  unfold SyncNode.admittedDuring at h
  split at h
  next base mark hthread => exact ⟨⟨base, mark, .finished true⟩, hthread, h⟩
  · exact absurd h List.not_mem_nil

/-- A transaction that a commit should have kept and did not. -/
def SyncNode.Lost (s : SyncNode) (x : PendingTxState) : Prop :=
  (∀ r ∈ s.shared.chain.confirmedTransactions, r.tx.txid ≠ x.txid) ∧
    validatePendingCandidate { s.shared.chain with mempool := [] } x false = .ok () ∧
    x ∉ s.shared.chain.mempool

instance (s : SyncNode) (x : PendingTxState) : Decidable (s.Lost x) :=
  inferInstanceAs (Decidable (_ ∧ _ ∧ _))

/-- A Devnet node on a chain on which a coinbase output may be spent: it clones, admits a
transaction, and commits the block of a peer. -/
def devnetSync : Except String (DevnetState × TransactionV1 × Peer × SyncNode) := do
  let (_, s) ← devnetBootstrapped
  let s ← receiveEmpty 16 s
  let l ← okOr s.licenses.head? "no licence"
  let u ← okOr s.utxos.head? "no output"
  let peer ← peerAhead s none
  let tx := halfBack s.networkId l u
  let node ← okOr (Machine.run (SyncNode.step .devnet none) (.start ⟨s, []⟩)
    [.clone 0, .announce tx, .sync 0 peer, .commit 0]) "no such run"
  .ok (s, tx, peer, node)

/-- A transaction on record that left one output. -/
def foundingTx (l : LicenseState) : TransactionV1 where
  core :=
    { version := 1
      networkId := mainnetNetworkId
      validFromEpoch := 0
      expiryEpoch := 0
      inputs := []
      outputs := [
        { amountStrikes := 1000000
          outputType := outputPubkeyHash
          payload := Bytes.b32 l.paymentAddressId }] }
  witnesses := []

def foundingHeader (l : LicenseState) : HeaderV1 where
  core :=
    { version := 1
      networkId := mainnetNetworkId
      epoch := 70
      parentHash := mainnetGenesisId
      transactionRoot := 0
      stateRoot := block1StateRoot
      target := 0
      licenseId := l.licenseId
      ticketIndex := 0
      argon2Proof := 0 }
  signature := 0

/-- A Mainnet state at its first block, with one output. -/
def mainnetWallet (l : LicenseState) : DevnetState :=
  { emptyState 10 mainnetNetworkId devnetFixedGenesisTimeMs mainnetGenesisId [l] with
    height := 1
    tipHash := blockHash (foundingHeader l)
    tipEpoch := 70
    anchorEpoch := 70
    totalIssuedStrikes := 1000000
    currentStateRoot := block1StateRoot
    utxos := createdUtxos (foundingTx l) 70 1 false
    blocks := [blockRecord 1 (foundingHeader l) [foundingTx l] [] 0 0 0 0 (foundingTx l) []] }

theorem grounded_mainnetWallet {l : LicenseState} (h : foundingTx l ∈ known) :
    Grounded known (mainnetWallet l) := by
  have hnone : liveOutpoints [] = ∅ := by
    ext o
    simp [liveOutpoints]
  have hempty : OutputsSound [] [] := ⟨hnone ▸ .nil, List.nodup_nil⟩
  have houtputs : OutputsSound ([] ++ [foundingTx l]) ([] ++ createdUtxos (foundingTx l) 70 1 false) :=
    hempty.append_created [] 70 1 false List.not_mem_nil (by simp [foundingTx])
      (fun o ho => absurd ho List.not_mem_nil) (List.Sublist.refl _)
      (fun o ho => absurd ho List.not_mem_nil)
  refine ⟨[foundingTx l], by simpa using h, ⟨houtputs, ?_, ?_, ?_⟩⟩
  · intro tx htx c hc
    rw [List.mem_singleton.mp htx] at hc
    exact absurd hc List.not_mem_nil
  · intro hzero
    exact absurd hzero (by decide : (1 : UInt64) ≠ 0)
  · exact (by decide : (1 : UInt64).toNat ≤ (70 : UInt64).toNat)

/-- The transactions a peer sends when it is asked for the block of any one hash. -/
def Peer.sent (peer : Peer) : List TransactionV1 :=
  okOrNil (peer.block 0)
where
  okOrNil : Except String (HeaderV1 × List TransactionV1 × List ProtocolOperationV1) →
      List TransactionV1
    | .ok (_, txs, _) => txs
    | .error _ => []

theorem within_of_peerAhead {s : DevnetState} {signer : Option (Nat × MiningAuthority)}
    {peer : Peer} (h : peerAhead s signer = .ok peer) (hsent : ∀ tx ∈ peer.sent, tx ∈ known) :
    peer.Within known := by
  simp only [peerAhead, bind_eq_ok] at h
  rcases h with ⟨_, -, blocks, -, last, -, h⟩
  split at h
  · cases h
    intro hash header txs operations hblock tx htx
    cases hblock
    exact hsent tx htx
  · cases h

theorem collisionFree_of_nodup {txs : List TransactionV1}
    (h : (txs.map TransactionV1.txid).Nodup) : CollisionFree {tx | tx ∈ txs} :=
  fun _ ha _ hb heq => congrArg _ (List.inj_on_of_nodup_map h ha hb heq)

/-- A durable signer that has signed nothing yet. -/
def durableSigner (secret : Bytes32) : MiningAuthority where
  secret := secret
  check _ _ := .ok ()
  authorize _ _ _ := .ok ()

/-- A Mainnet node that clones, admits a transaction and prepares the block of a peer; and
the node after the commit. -/
def mainnetSync : Except String (LicenseState × TransactionV1 × Peer × SyncNode × SyncNode) := do
  let l ← okOr bootstrapLicenseStates.head? "no licence"
  let s := mainnetWallet l
  let u ← okOr s.utxos.head? "no output"
  let key ← okOr (devSigningKeyForLicense l) "no key"
  let peer ← peerAhead s (some (0, durableSigner key.secret))
  let tx := halfBack s.networkId l u
  let node ← okOr (Machine.run (SyncNode.step .mainnet none) (.start ⟨s, []⟩)
    [.clone 0, .announce tx, .sync 0 peer]) "no such run"
  let committed ← okOr (node.step .mainnet none (.commit 0)) "no commit"
  .ok (l, tx, peer, node, committed)

/-- The run up to the commit brings no transaction but the one on record, the announced one
and those of the peer. -/
theorem mainnetRun_of_sample {l : LicenseState} {tx : TransactionV1} {peer : Peer}
    {signer : Option (Nat × MiningAuthority)} {s : SyncNode}
    (hknown : CollisionFree {a | a ∈ foundingTx l :: tx :: peer.sent})
    (hpeer : peerAhead (mainnetWallet l) signer = .ok peer)
    (hrun : Machine.run (SyncNode.step .mainnet none) (.start ⟨mainnetWallet l, []⟩)
      [.clone 0, .announce tx, .sync 0 peer] = some s) :
    MainnetRun {a | a ∈ foundingTx l :: tx :: peer.sent} (fun _ => chainwork (mainnetWallet l)) none
      ⟨mainnetWallet l, []⟩ [.clone 0, .announce tx, .sync 0 peer] s := by
  have hwithin : peer.Within {a | a ∈ foundingTx l :: tx :: peer.sent} :=
    within_of_peerAhead hpeer fun a ha => List.mem_cons_of_mem _ (List.mem_cons_of_mem _ ha)
  refine ⟨hknown, fun _ h => (by cases h), grounded_mainnetWallet List.mem_cons_self, ?_, ?_, hrun⟩
  · simp only [List.forall_mem_cons]
    exact ⟨trivial, trivial, hwithin, fun _ h => absurd h List.not_mem_nil⟩
  · intro before after n hschedule hbefore
    have hquiet : ∀ a ∈ before, a.Quiet {a | a ∈ foundingTx l :: tx :: peer.sent} := by
      intro a ha
      have hmem : a ∈ [.clone 0, .announce tx, .sync 0 peer] := by
        rw [hschedule]
        exact List.mem_append_left after ha
      simp only [List.mem_cons, List.not_mem_nil, or_false] at hmem
      rcases hmem with rfl | rfl | rfl
      · trivial
      · exact List.mem_cons_of_mem _ List.mem_cons_self
      · trivial
    rcases quiet_run hquiet (fun p hp => absurd hp List.not_mem_nil) hbefore with ⟨hframe, hpool⟩
    constructor
    · rw [hframe]
      exact hpool
    · rw [hframe]
      rfl

end Samples

section Evaluation

attribute [local instance] devnetCrypto

/-- The run of a Mainnet node that admits a transaction and commits the block of a peer: the
transaction is in its pool afterwards. -/
theorem sync_keeps_admitted_beside_block :
    ∃ (start : NodeState) (tx : TransactionV1) (peer : Peer) (s s' : SyncNode) (t : SyncThread)
      (x : PendingTxState),
      Machine.run (SyncNode.step .mainnet none) (.start start)
        [.clone 0, .announce tx, .sync 0 peer] = some s ∧
      s.step .mainnet none (.commit 0) = some s' ∧
      s'.threads 0 = some { t with phase := .finished true } ∧ x ∈ s'.accepted.drop t.mark ∧
      x ∈ s'.shared.chain.mempool := by
  have hcheck : okAnd mainnetSync (fun r =>
      decide (((foundingTx r.1 :: r.2.1 :: r.2.2.1.sent).map TransactionV1.txid).Nodup) &&
        (r.2.2.2.2.admittedDuring 0).any fun x =>
          decide ((∀ q ∈ r.2.2.2.2.shared.chain.confirmedTransactions, q.tx.txid ≠ x.txid) ∧
            validatePendingCandidate { r.2.2.2.2.shared.chain with mempool := [] } x false =
              .ok ())) = true := by
    decide +kernel
  rcases exists_of_okAnd hcheck with ⟨⟨l, tx, peer, s, s'⟩, hsample, htest⟩
  rw [Bool.and_eq_true, List.any_eq_true] at htest
  rcases htest with ⟨hdistinct, x, hx, hvalid⟩
  rcases SyncNode.committed_of_mem hx with ⟨u, hfinished, hadmitted⟩
  rcases of_decide_eq_true hvalid with ⟨hunconfirmed, halone⟩
  have hknown := collisionFree_of_nodup (of_decide_eq_true hdistinct)
  simp only [mainnetSync, ok_rules, Prod.mk.injEq] at hsample
  rcases hsample with ⟨_, -, output, -, key, -, _, hpeer, _, hrun, _, hcommit, rfl, rfl, rfl, rfl,
    rfl⟩
  rcases thread_of_commit hcommit with ⟨t, committed, hthread, hopen, hafter⟩
  -- the thread that the commit finished is the one that was open before
  have hsame : u.mark = t.mark ∧ committed = true := by
    rw [hafter, Option.some.injEq] at hfinished
    have hphase := congrArg SyncThread.phase hfinished
    have hmark := congrArg SyncThread.mark hfinished
    cases hphase
    exact ⟨hmark.symm, rfl⟩
  rcases hsame with ⟨hmark, rfl⟩
  rw [hmark] at hadmitted
  have hmainnet := mainnetRun_of_sample hknown hpeer hrun
  have hkept := sync_keeps_admitted (a := .commit 0) hmainnet trivial hcommit hthread hopen hafter
    hadmitted (fun _ _ _ h => by cases h) hunconfirmed halone
  exact ⟨_, _, _, _, _, t, x, hrun, hcommit, hafter, hadmitted, hkept⟩

/-- On a chain that blocks build from the Devnet genesis: a transaction is admitted between
the clone and the commit of a thread, is not confirmed by the committed chain and is valid
alone on it, and is not in the pool after the commit. -/
theorem devnet_sync_loses_admitted :
    ∃ (genesis start : DevnetState) (visited : List DevnetState) (ops : List ProtocolOperationV1)
      (tx : TransactionV1) (peer : Peer) (s : SyncNode) (t : SyncThread) (x : PendingTxState),
      ChainTrace genesis visited ops start ∧
      Machine.run (SyncNode.step .devnet none) (.start ⟨start, []⟩)
        [.clone 0, .announce tx, .sync 0 peer, .commit 0] = some s ∧
      s.threads 0 = some { t with phase := .finished true } ∧ x ∈ s.accepted.drop t.mark ∧
      s.Lost x := by
  have hcheck : okAnd devnetSync (fun r =>
      (r.2.2.2.admittedDuring 0).any fun x => decide (r.2.2.2.Lost x)) = true := by
    decide +kernel
  rcases exists_of_okAnd hcheck with ⟨⟨start, tx, peer, s⟩, hsample, htest⟩
  rcases List.any_eq_true.mp htest with ⟨x, hx, hlost⟩
  rcases SyncNode.committed_of_mem hx with ⟨t, hthread, hadmitted⟩
  simp only [devnetSync, ok_rules, Prod.mk.injEq] at hsample
  rcases hsample with ⟨⟨genesis, s₁⟩, hboot, s₂, hempty, l, -, u, -, _, -, _, hrun, rfl, rfl, rfl,
    rfl⟩
  rcases ChainTrace.of_devnetBootstrapped hboot with ⟨visited₁, ops₁, trace₁, -⟩
  rcases trace₁.receiveEmpty hempty with ⟨visited₂, ops₂, trace₂⟩
  exact ⟨genesis, _, visited₂, ops₂, _, _, _, t, x, trace₂, hrun, hthread, hadmitted,
    of_decide_eq_true hlost⟩

end Evaluation

end Mutiny
