import Mutiny.Node.OperationSteps
import Mutiny.Node.Scheduled
import Mutiny.Node.PoolRestore

/-!
# What a synchronisation prepares

A synchronisation of the Mainnet either changes nothing or prepares a chain with more work
than the one it started from, whose unspent outputs come from transactions on record.
-/

namespace Mutiny

open Result

/-! ## Work -/

theorem blockWork_pos (target : Bytes32) : 0 < blockWork target := by
  have hbound := target.isLt
  exact Nat.div_pos (by omega) (Nat.succ_pos _)

theorem chainwork_append {s s' : DevnetState} {block : BlockState}
    (h : s'.blocks = s.blocks ++ [block]) : chainwork s < chainwork s' := by
  have hpos := blockWork_pos block.target
  simp only [chainwork, h, List.map_append, List.sum_append, List.map_cons, List.map_nil,
    List.sum_cons, List.sum_nil]
  omega

/-! ## Blocks -/

section Blocks

variable [Crypto]

/-- Operations change neither the pool nor the queue nor the chain of blocks. -/
structure KeepsPool (s s' : DevnetState) : Prop where
  mempool : s'.mempool = s.mempool
  queue : s'.pendingProtocolOperations = s.pendingProtocolOperations
  blocks : s'.blocks = s.blocks

variable {s s' : DevnetState} {epoch : UInt64} {txs : List TransactionV1}

theorem OperationStep.keepsPool {op : ProtocolOperationV1} (h : OperationStep txs epoch s op s') :
    KeepsPool s s' := by
  cases h with
  | headers htype h =>
    rcases licenses_headers h with ⟨headers, best, rfl⟩
    exact ⟨rfl, rfl, rfl⟩
  | purchase htype h =>
    rcases h.result with ⟨issued, native, bitcoin, -, -, -, rfl⟩
    exact ⟨rfl, rfl, rfl⟩
  | transfer t old new h =>
    rw [h.result]
    exact ⟨rfl, rfl, rfl⟩
  | rotation r old new h =>
    rw [h.result]
    exact ⟨rfl, rfl, rfl⟩
  | evidence e old event record h =>
    rw [h.result]
    exact ⟨rfl, rfl, rfl⟩
  | claim c license account reserved h =>
    rw [h.result]
    exact ⟨rfl, rfl, rfl⟩
  | presence htype h =>
    rcases presence_eq_ok h with ⟨presences, rfl⟩
    exact ⟨rfl, rfl, rfl⟩

theorem OperationSteps.keepsPool {ops : List ProtocolOperationV1}
    (h : OperationSteps txs epoch s ops s') :
    KeepsPool s s' := by
  induction h with
  | nil s => exact ⟨rfl, rfl, rfl⟩
  | cons head _ ih =>
    have hhead := head.keepsPool
    exact ⟨ih.mempool.trans hhead.mempool, ih.queue.trans hhead.queue,
      ih.blocks.trans hhead.blocks⟩

/-- A transaction of the pool that no queued operation waits for. -/
structure Waiting (x : PendingTxState) (s : DevnetState) : Prop where
  pooled : x ∈ s.mempool
  free : x.txid ∉ requiredTxids s.pendingProtocolOperations

variable {x : PendingTxState}

omit [Crypto] in
theorem Waiting.dropStaleClaims (h : Waiting x s) (epoch : UInt64) :
    Waiting x (Dividends.dropStaleClaims s epoch) := by
  have hsub : ∀ (keep : PendingProtocolOperationState → Bool) (id : Bytes32),
      id ∈ (s.pendingProtocolOperations.filter keep).filterMap (·.requiredTxid) →
      id ∈ requiredTxids s.pendingProtocolOperations := by
    intro keep id hid
    rw [List.mem_filterMap] at hid
    rcases hid with ⟨p, hp, hreq⟩
    exact List.mem_filterMap.mpr ⟨p, (List.mem_filter.mp hp).1, hreq⟩
  constructor
  · simp only [Dividends.dropStaleClaims, List.mem_filter]
    refine ⟨h.pooled, ?_⟩
    rw [Bool.not_eq_true', List.contains_eq_mem, decide_eq_false_iff_not]
    exact fun hmem => h.free (hsub _ _ hmem)
  · exact fun hmem => h.free (hsub _ _ hmem)

omit [Crypto] in
theorem Waiting.of_same (h : Waiting x s) (hpool : s'.mempool = s.mempool)
    (hqueue : s'.pendingProtocolOperations = s.pendingProtocolOperations) : Waiting x s' :=
  ⟨hpool ▸ h.pooled, hqueue ▸ h.free⟩

omit [Crypto] in
theorem Waiting.processEpoch (hx : Waiting x s) (h : Dividends.processEpoch s epoch = .ok s') :
    Waiting x s' := by
  simp only [Dividends.processEpoch, bind_eq_ok] at h
  rcases h with ⟨⟨returned, s₁⟩, hexpire, h⟩
  have hx₁ : Waiting x s₁ := by
    simp only [Dividends.expireAccounts, ok_rules, Prod.mk.injEq] at hexpire
    rcases hexpire with ⟨_, -, _, -, -, rfl⟩
    exact hx.of_same rfl rfl
  have hstale := hx₁.dropStaleClaims epoch
  split at h
  · have hframe := Dividends.awardDividends_frame h
    exact hstale.of_same (by rw [hframe]) (by rw [hframe])
  · cases h
    exact hstale

omit [Crypto] in
theorem Waiting.scheduled (hx : Waiting x s) (h : applyScheduledLicenseTransitions s epoch = .ok s')
    : Waiting x s' := by
  simp only [applyScheduledLicenseTransitions, bind_eq_ok] at h
  rcases h with ⟨s₁, hexpire, hprocess⟩
  have hframe := Punishment.expireEvents_frame hexpire
  have hx₁ : Waiting x s₁ := hx.of_same (by rw [hframe]) (by rw [hframe])
  refine Waiting.processEpoch ?_ hprocess
  exact hx₁.of_same rfl rfl

variable {next : DevnetState}

theorem Waiting.advanceToBlock (hx : Waiting x s) (h : advanceToBlock s epoch = .ok next) :
    Waiting x next := by
  rcases advanceToBlock_parts h with ⟨_, s₁, hbefore, -, hscheduled⟩
  refine Waiting.scheduled ?_ hscheduled
  refine (advanceEmptyEpochs_invariant (P := Waiting x) ?_ (fun _ _ ht => ⟨ht.1, ht.2⟩) hx
    hbefore).1
  intro t t' ht _ hepoch
  rcases emptyEpoch_scheduled hepoch with ⟨t₂, hscheduled, ht'⟩
  rw [ht']
  exact (ht.scheduled hscheduled).of_same rfl rfl

/-- A block leaves in the pool what it does not confirm and no queued operation waits for,
and is the last one of the chain. -/
theorem AcceptedBlock.keeps {header : HeaderV1} {coinbase : TransactionV1}
    {ordinary : List TransactionV1} {operations : List ProtocolOperationV1} {license : LicenseState}
    {b : BodyValues} (h : AcceptedBlock s header coinbase ordinary operations next license b) :
    (∃ block, (b.result next header coinbase ordinary operations).blocks = s.blocks ++ [block]) ∧
      ∀ x, Waiting x s →
        (∀ r ∈ (b.result next header coinbase ordinary operations).confirmedTransactions,
          r.tx.txid ≠ x.txid) →
        x ∈ (b.result next header coinbase ordinary operations).mempool := by
  rcases applyProtocolOperations_steps h.body.applied with ⟨-, s₁, hsteps, hpost⟩
  have hkeeps := hsteps.keepsPool
  have hadvanced := advanceToBlock_frame h.advanced
  constructor
  · have hblocks : b.post.blocks = s.blocks := by
      have hsame : s₁.blocks = next.blocks := hkeeps.blocks
      have hbefore : next.blocks = s.blocks := by
        rw [hadvanced]
        rfl
      rw [hpost]
      exact hsame.trans hbefore
    refine ⟨blockRecord (next.height + 1) header (coinbase :: ordinary) operations
      (subsidy header.core.epoch) b.totalFees b.treasuryShare b.blockWeight coinbase
      (b.validated.map (·.pending.txid)), ?_⟩
    simp only [BodyValues.result, dropConfirmed, DevnetState.commitBlock, hblocks]
  · intro x hx hunconfirmed
    have hpool : b.post.mempool = next.mempool := by
      rw [hpost]
      exact hkeeps.mempool
    simp only [BodyValues.result, dropConfirmed, DevnetState.commitBlock, List.mem_filter, hpool]
    refine ⟨(hx.advanceToBlock h.advanced).pooled, ?_⟩
    rw [Bool.not_eq_true', List.contains_eq_mem, decide_eq_false_iff_not]
    intro hconfirmed
    rcases List.mem_map.mp hconfirmed with ⟨v, hv, heq⟩
    refine hunconfirmed
      { tx := v.recorded
        blockHeight := next.height + 1
        blockEpoch := header.core.epoch
        blockHash := blockHash header } ?_ heq
    exact List.mem_append_right _ (List.mem_map.mpr ⟨v, hv, rfl⟩)

end Blocks

/-! ## Ledgers -/

section Ledgers

variable [Crypto]

/-- The unspent outputs of a state come from a record of known transactions. -/
def Grounded (known : Set TransactionV1) (s : DevnetState) : Prop :=
  ∃ done, (∀ tx ∈ done, tx ∈ known) ∧ LedgerSound done s

/-- What the route of block 1 of the Mainnet does to the parts of a state that matter here:
it appends one block, moves to height 1, and leaves the outputs and the pool alone. -/
structure BootstrapRoute (route : ApplyBlock RuntimeBlockApplyError) : Prop where
  step : ∀ {s s' : DevnetState} {header : HeaderV1} {txs : List TransactionV1}
    {operations : List ProtocolOperationV1}, route s header txs operations = .ok s' →
    (∃ block, s'.blocks = s.blocks ++ [block]) ∧ s'.utxos = s.utxos ∧ s'.mempool = s.mempool ∧
      s'.height = 1 ∧ 1 ≤ s'.tipEpoch

/-- A route for block 1, if there is one, is a bootstrap route. -/
def SoundWitness (witness : Option (ApplyBlock RuntimeBlockApplyError)) : Prop :=
  ∀ route, witness = some route → BootstrapRoute route

variable {known : Set TransactionV1} {witness : Option (ApplyBlock RuntimeBlockApplyError)}
  {s s' : DevnetState}

theorem Grounded.of_frame (h : Grounded known s) (hutxos : s'.utxos = s.utxos)
    (hheight : s'.height = s.height) (htip : s'.tipEpoch = s.tipEpoch) : Grounded known s' := by
  rcases h with ⟨done, hdone, hs⟩
  exact ⟨done, hdone, hs.of_frame hutxos hheight (htip ▸ UInt64.le_refl _)⟩

/-- A block of the Mainnet: the ledger stays sound, the work grows, and the pool keeps what
waits. -/
structure MainnetBlock (known : Set TransactionV1) (s s' : DevnetState) : Prop where
  grounded : Grounded known s'
  work : chainwork s < chainwork s'
  keeps : ∀ x, Waiting x s → (∀ r ∈ s'.confirmedTransactions, r.tx.txid ≠ x.txid) →
    x ∈ s'.mempool

variable {header : HeaderV1}

theorem mainnetBlock_of_ok (hknown : CollisionFree known) (hwitness : SoundWitness witness)
    {txs : List TransactionV1} {operations : List ProtocolOperationV1} (hs : Grounded known s)
    (htxs : ∀ tx ∈ txs, tx ∈ known)
    (h : validateAndApplyBlockForRuntime .mainnet witness s header txs operations = .ok s') :
    MainnetBlock known s s' := by
  simp only [validateAndApplyBlockForRuntime, bind_eq_ok] at h
  rcases h with ⟨_, -, _, -, h⟩
  rcases hs with ⟨done, hdone, hs⟩
  by_cases hheight : s.height = 0
  · rw [if_neg (not_not.mpr hheight), bind_eq_ok] at h
    rcases h with ⟨route, hroute, h⟩
    rcases (hwitness route (okOr_eq_ok.mp hroute)).step h with
      ⟨⟨block, hblocks⟩, hutxos, hpool, hone, htip⟩
    have hempty : done = [] := hs.empty hheight
    subst hempty
    refine ⟨⟨[], hdone, ⟨hutxos ▸ hs.outputs, ?_, fun _ => rfl, ?_⟩⟩, chainwork_append hblocks, ?_⟩
    · exact fun tx htx => absurd htx List.not_mem_nil
    · rw [hone]
      exact UInt64.le_iff_toNat_le.mp htip
    · intro x hx _
      rw [hpool]
      exact hx.pooled
  · rw [if_pos hheight, mapError_eq_ok] at h
    rcases validateAndApplyBlock_cases h with
      ⟨hboot, -⟩ | ⟨hboot, coinbase, ordinary, next, license, b, rfl, hb, rfl⟩
    · have hzero : s.height = 0 := by
        simp only [isBootstrapBlock, Bool.and_eq_true, beq_iff_eq] at hboot
        exact hboot.1
      exact absurd hzero hheight
    · have hall : ∀ tx ∈ done ++ (coinbase :: ordinary), tx ∈ known := by
        intro tx htx
        rcases List.mem_append.mp htx with hold | hnew
        · exact hdone tx hold
        · exact htxs tx hnew
      have hledger := (hs.acceptedBlock hb fun a ha b hb => hknown a (hall a ha) b (hall b hb)).1
      rcases hb.keeps with ⟨⟨block, hblocks⟩, hkeeps⟩
      exact ⟨⟨_, hall, hledger⟩, chainwork_append hblocks, hkeeps⟩

/-- A peer that sends known transactions only. -/
def Peer.Within (known : Set TransactionV1) (peer : Peer) : Prop :=
  ∀ hash header txs operations, peer.block hash = .ok (header, txs, operations) →
    ∀ tx ∈ txs, tx ∈ known

variable {peer : Peer}

theorem mainnetBlock_of_applyNext (hknown : CollisionFree known) (hwitness : SoundWitness witness)
    (hpeer : peer.Within known) (hs : Grounded known s)
    (h : peer.applyNext .consensusTransition headerDiffers
      (validateAndApplyBlockForRuntime .mainnet witness) s header = .ok s') :
    MainnetBlock known s s' := by
  simp only [Peer.applyNext, Peer.requestBlock, ok_rules] at h
  rcases h with ⟨_, ⟨⟨wireHeader, txs, operations⟩, hblock, _, -, _, -, rfl⟩, happly⟩
  exact mainnetBlock_of_ok hknown hwitness hs (hpeer _ _ _ _ hblock) happly

/-- The blocks of a peer, one after the other. -/
theorem grounded_of_applyAll (hknown : CollisionFree known) (hwitness : SoundWitness witness)
    (hpeer : peer.Within known) {headers : List HeaderV1} (hs : Grounded known s)
    (h : headers.foldlM (peer.applyNext .consensusTransition headerDiffers
      (validateAndApplyBlockForRuntime .mainnet witness)) s = .ok s') :
    Grounded known s' ∧ chainwork s ≤ chainwork s' ∧ (headers ≠ [] → chainwork s < chainwork s') := by
  induction headers generalizing s with
  | nil =>
    rw [List.foldlM_nil, pure_eq_ok] at h
    subst h
    exact ⟨hs, le_rfl, fun hne => absurd rfl hne⟩
  | cons header headers ih =>
    rw [List.foldlM_cons, bind_eq_ok] at h
    rcases h with ⟨s₁, hfirst, hrest⟩
    have hblock := mainnetBlock_of_applyNext hknown hwitness hpeer hs hfirst
    rcases ih hblock.grounded hrest with ⟨hgrounded, hle, -⟩
    have hlt := hblock.work.trans_le hle
    exact ⟨hgrounded, hlt.le, fun _ => hlt⟩

theorem grounded_resetForReplay (h : resetForReplay s = .ok s') :
    Grounded known s' := by
  have hroot := (refreshCurrentStateRoot_eq_ok.mp h).2
  have hnone : liveOutpoints [] = ∅ := by
    ext o
    simp [liveOutpoints]
  refine ⟨[], fun tx htx => absurd htx List.not_mem_nil, ⟨⟨?_, ?_⟩, ?_, fun _ => rfl, ?_⟩⟩
  · rw [hroot, hnone]
    exact .nil
  · rw [hroot]
    exact List.nodup_nil
  · exact fun tx htx => absurd htx List.not_mem_nil
  · rw [hroot]

variable {report : SyncReport}

/-- A reconciliation that adopts the other chain: it has more work, and only its pool and
queue are new. -/
theorem reconcile_adopts {s s' : NodeState} {remote : DevnetState} {downloaded : Nat}
    (hremote : Grounded known remote)
    (h : reconcileValidatedRemote s remote downloaded = .ok (s', report))
    (hchanged : 0 < report.appliedBlocks ∨ report.reorg = true) :
    Grounded known s'.chain ∧ chainwork s.chain < chainwork s'.chain := by
  simp only [reconcileValidatedRemote] at h
  split at h
  · simp only [ok_rules, Prod.mk.injEq] at h
    rcases h with ⟨_, -, -, rfl⟩
    simp at hchanged
  next hmore =>
    simp only [ok_rules, Prod.mk.injEq] at h
    rcases h with ⟨adopted, harchive, ⟨chain, restored⟩, hrestore, rfl, -⟩
    have hchain : adopted.chain = remote := by
      simp only [archiveBranch] at harchive
      split at harchive
      · cases harchive
        rfl
      · simp only [bind_eq_ok] at harchive
        rcases harchive with ⟨_, -, harchive⟩
        split at harchive <;> cases harchive <;> rfl
    rw [hchain] at hrestore
    rcases restoreReorgMempool_eq_ok hrestore with ⟨bound, disconnected, taken, htaken, hframe, -⟩
    rw [restoreTxs_frame] at htaken
    have hresult : chain = { remote with
        mempool := chain.mempool
        pendingProtocolOperations := chain.pendingProtocolOperations } := by
      rw [hframe, htaken]
    constructor
    · apply hremote.of_frame <;> rw [hresult]
    · have hwork : chainwork chain = chainwork remote := by
        rw [hresult]
        rfl
      exact hwork ▸ Nat.lt_of_not_le hmore

/-- A synchronisation of the Mainnet that changes something prepares a chain with more work
and a sound ledger. -/
theorem sync_prepares (hknown : CollisionFree known) (hwitness : SoundWitness witness)
    (hpeer : peer.Within known) {s s' : NodeState} (hs : Grounded known s.chain)
    (h : syncStateFromPeerDuplexForRuntime .mainnet witness peer s = .ok (s', report))
    (hchanged : 0 < report.appliedBlocks ∨ report.reorg = true) :
    Grounded known s'.chain ∧ chainwork s.chain < chainwork s'.chain := by
  have hsame : ∀ {height : UInt64} {decision : String},
      ¬ (0 < (SyncReport.noChange height decision).appliedBlocks ∨
        (SyncReport.noChange height decision).reorg = true) := by
    intro height decision
    simp [SyncReport.noChange]
  simp only [syncStateFromPeerDuplexForRuntime, bind_eq_ok] at h
  rcases h with ⟨_, -, _, -, h⟩
  split at h
  · cases h
    exact absurd hchanged hsame
  split at h
  · cases h
    exact absurd hchanged hsame
  split at h
  · cases h
    exact absurd hchanged hsame
  simp only [bind_eq_ok] at h
  rcases h with ⟨_, -, base, hbase, candidate, hfold, _, -, h⟩
  by_cases hext : peer.extends s.chain = true
  · simp only [Peer.mainnetBase, Peer.missing, if_pos hext, Except.ok.injEq] at hbase hfold h
    subst hbase
    cases h
    -- the peer is higher, so there is a block to apply
    have hsome : peer.headers.drop s.chain.height.toNat ≠ [] := by
      have hlt := UInt64.lt_iff_toNat_lt.mp (of_decide_eq_true hext).2
      rw [Peer.height, UInt64.toNat_ofNat_of_lt' peer.fits] at hlt
      intro hnil
      rw [List.drop_eq_nil_iff] at hnil
      omega
    rcases grounded_of_applyAll hknown hwitness hpeer hs hfold with ⟨hgrounded, -, hlt⟩
    exact ⟨hgrounded, hlt hsome⟩
  · simp only [Peer.mainnetBase, if_neg hext, mapError_eq_ok] at hbase
    simp only [if_neg hext, ok_rules, Prod.mk.injEq] at h
    rcases h with ⟨⟨reconciled, report'⟩, hreconcile, _, -, rfl, rfl⟩
    rcases grounded_of_applyAll hknown hwitness hpeer (grounded_resetForReplay hbase) hfold with
      ⟨hgrounded, -⟩
    exact reconcile_adopts hgrounded hreconcile hchanged

end Ledgers

end Mutiny
