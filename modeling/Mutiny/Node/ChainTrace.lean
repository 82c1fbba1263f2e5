import Mutiny.Node.OperationSteps
import Mutiny.Node.CheckedEpochs
import Mutiny.Node.BlockSteps

/-!
# The states a chain goes through

A block changes keys and records evidence one operation at a time, so a key may be in
force only between two operations of one block.  A trace therefore lists every state a
chain goes through: after each run of empty epochs, at the start of each block, after
each of its operations and at its end.
-/

namespace Mutiny

open Result Lists

/-! ## Traces -/

section Traces

variable [Crypto]

/-- What a block starts to apply its operations with. -/
def OperationRun.start (s : DevnetState) : OperationRun where
  state := s
  seenPayments := s.consumedNativePayments
  knownLicenses := s.licenses.map (·.licenseId)
  referencedPayments := []
  usedFeeTickets := []
  authorityTargets := []

/-- The states after each operation of a block. -/
def operationStates (txs : List TransactionV1) (epoch : UInt64) (run : OperationRun) :
    List ProtocolOperationV1 → List DevnetState
  | [] => []
  | op :: ops =>
    match applyProtocolOperation txs epoch run op with
    | .error _ => []
    | .ok run' => run'.state :: operationStates txs epoch run' ops

/-- The states inside a block: its parent advanced to its epoch, and the state after each
operation.  The bootstrap block applies no operation of its own. -/
def blockStates (s : DevnetState) (header : HeaderV1) (txs : List TransactionV1)
    (operations : List ProtocolOperationV1) : List DevnetState :=
  if isBootstrapBlock s operations then []
  else
    match advanceToBlock s header.core.epoch with
    | .error _ => []
    | .ok next =>
      let parent := { next with tipEpoch := header.core.epoch }
      parent :: operationStates txs header.core.epoch (.start parent) operations

/-- A run of accepted blocks and empty epochs from a state: the states it goes through
and the operations it applies, the first first, and the state it ends in. -/
inductive ChainTrace (s₀ : DevnetState) :
    List DevnetState → List ProtocolOperationV1 → DevnetState → Prop
  | start : ChainTrace s₀ [s₀] [] s₀
  | empty {visited : List DevnetState} {ops : List ProtocolOperationV1} {s s' : DevnetState}
      {throughEpoch : UInt64} (trace : ChainTrace s₀ visited ops s)
      (h : advanceEmptyEpochs s throughEpoch = .ok s') :
      ChainTrace s₀ (visited ++ [s']) ops s'
  | block {visited : List DevnetState} {ops operations : List ProtocolOperationV1}
      {s s' : DevnetState} {header : HeaderV1} {txs : List TransactionV1}
      (trace : ChainTrace s₀ visited ops s)
      (h : validateAndApplyBlock s header txs operations = .ok s') :
      ChainTrace s₀ (visited ++ blockStates s header txs operations ++ [s'])
        (ops ++ operations) s'

end Traces

/-! ## Keys in force -/

/-- The keys of a licence in a state. -/
def DevnetState.keysInForce (s : DevnetState) (id : Bytes32) : Option HistoricalLicenseKeysV1 :=
  (s.findLicense id).map (·.record.historicalKeys)

variable {s : DevnetState}

theorem keysInForce_of_find {id : Bytes32} {l : LicenseState} (h : s.findLicense id = some l) :
    s.keysInForce id = some l.record.historicalKeys := by
  rw [DevnetState.keysInForce, h, Option.map_some]

/-- The keys of every licence stay in force, and a new licence starts with its key
sequences at zero. -/
structure KeepsKeys (s s' : DevnetState) : Prop where
  inForce : ∀ id, s'.keysInForce id = s.keysInForce id ∨
    s.keysInForce id = none ∧ ∃ k, s'.keysInForce id = some k ∧
      k.ownerKeySequence = 0 ∧ k.miningKeySequence = 0
  history : s'.historicalLicenseKeys = s.historicalLicenseKeys

/-- The keys of one licence are replaced, and the old ones recorded. -/
structure ChangesKeys [Crypto] (s : DevnetState) (op : ProtocolOperationV1) (id : Bytes32)
    (old new : HistoricalLicenseKeysV1) (s' : DevnetState) : Prop where
  found : s.keysInForce id = some old
  changed : s'.keysInForce id = some new
  others : ∀ id', id' ≠ id → s'.keysInForce id' = s.keysInForce id'
  mining : new.miningKeySequence.toNat = old.miningKeySequence.toNat + 1
  owner : old.ownerKeySequence.toNat ≤ new.ownerKeySequence.toNat
  history : s'.historicalLicenseKeys.Perm (s.historicalLicenseKeys ++
    [{ operationId := op.operationId
       licenseIdText := .encode id
       ownerPublicKey := old.ownerPublicKey
       ownerKeySequence := old.ownerKeySequence
       miningPublicKey := old.miningPublicKey
       miningKeySequence := old.miningKeySequence }])

/-- The registry as far as keys go. -/
def DevnetState.keyTable (s : DevnetState) : List (HexText × HistoricalLicenseKeysV1) :=
  s.licenses.map fun l => (l.licenseIdText, l.record.historicalKeys)

theorem keysInForce_eq_find (s : DevnetState) (id : Bytes32) :
    s.keysInForce id = (s.keyTable.find? fun k => k.1 == .encode id).map (·.2) := by
  rw [DevnetState.keysInForce, DevnetState.findLicense, DevnetState.keyTable, List.find?_map,
    Option.map_map]
  rfl

variable {s' : DevnetState}

theorem KeepsKeys.of_same (htable : s'.keyTable = s.keyTable)
    (hhistory : s'.historicalLicenseKeys = s.historicalLicenseKeys) : KeepsKeys s s' := by
  refine ⟨fun id => Or.inl ?_, hhistory⟩
  rw [keysInForce_eq_find, keysInForce_eq_find, htable]

/-- New licences at sequence zero, registered after the others. -/
theorem KeepsKeys.of_append {issued : List LicenseState}
    (hlicenses : s'.licenses = s.licenses ++ issued)
    (hissued : ∀ l ∈ issued, l.ownerKeySequence = 0 ∧ l.miningKeySequence = 0)
    (hhistory : s'.historicalLicenseKeys = s.historicalLicenseKeys) : KeepsKeys s s' := by
  refine ⟨fun id => ?_, hhistory⟩
  unfold DevnetState.keysInForce DevnetState.findLicense
  rw [hlicenses, List.find?_append]
  cases hold : s.licenses.find? fun l => l.licenseIdText == .encode id with
  | some l => exact Or.inl rfl
  | none =>
    cases hnew : issued.find? fun l => l.licenseIdText == .encode id with
    | none => exact Or.inl rfl
    | some l => exact Or.inr ⟨rfl, _, rfl, hissued l (List.mem_of_find?_eq_some hnew)⟩

/-! ## Steps between operations -/

theorem keyTable_scheduled {epoch : UInt64} (h : applyScheduledLicenseTransitions s epoch = .ok s')
    : s'.keyTable = s.keyTable := by
  rcases applyScheduledLicenseTransitions_parts h with ⟨weights, reserved, -, hlicenses, -⟩
  rw [DevnetState.keyTable, DevnetState.keyTable, hlicenses, List.map_map]
  apply List.map_congr_left
  intro l _
  rw [Function.comp_apply, Punishment.scheduledLicense_frame]
  rfl

section Blocks

variable [Crypto] {s s' : DevnetState}

theorem keyTable_advanceEmptyEpochs {throughEpoch : UInt64}
    (h : advanceEmptyEpochs s throughEpoch = .ok s') : s'.keyTable = s.keyTable := by
  refine (advanceEmptyEpochs_invariant (P := fun t => t.keyTable = s.keyTable) ?_
    (fun _ _ ht => ht) rfl h).1
  intro t t' ht _ hepoch
  rcases emptyEpoch_scheduled hepoch with ⟨t₂, hscheduled, ht'⟩
  rw [← ht, ← keyTable_scheduled hscheduled, ht']
  rfl

variable {epoch : UInt64} {next : DevnetState}

theorem keyTable_advanceToBlock (h : advanceToBlock s epoch = .ok next) :
    next.keyTable = s.keyTable := by
  rcases advanceToBlock_parts h with ⟨_, s₁, hbefore, -, hscheduled⟩
  rw [keyTable_scheduled hscheduled, keyTable_advanceEmptyEpochs hbefore]

/-- SHA-256 gives the licences of the bootstrap different identifiers. -/
def BootstrapIdsDistinct : Prop :=
  ∀ s fixture, createFixture s = .ok fixture → fixture.licenseIds.Nodup

variable {fixture : DevnetBootstrapFixtureV1}

/-- The identifiers of the fixture do not depend on the state. -/
theorem licenseIds_createFixture {fixture' : DevnetBootstrapFixtureV1}
    (h : createFixture s = .ok fixture) (h' : createFixture s' = .ok fixture') :
    fixture.licenseIds = fixture'.licenseIds := by
  simp only [createFixture, ok_rules] at h h'
  rcases h with ⟨manifest, hmanifest, hash, hhash, anchor, hanchor, rawTx, hraw, proof, hproof,
    validated, hvalidated, _, -, _, -, _, -, _, -, _, -, _, -, _, -, rfl⟩
  rcases h' with ⟨manifest', hmanifest', hash', hhash', anchor', hanchor', rawTx', hraw', proof',
    hproof', validated', hvalidated', _, -, _, -, _, -, _, -, _, -, _, -, _, -, rfl⟩
  rw [hmanifest, Except.ok.injEq] at hmanifest'
  subst hmanifest'
  rw [hhash, Except.ok.injEq] at hhash'
  subst hhash'
  rw [hanchor, Except.ok.injEq] at hanchor'
  subst hanchor'
  rw [hraw, Except.ok.injEq] at hraw'
  subst hraw'
  rw [hproof, Except.ok.injEq] at hproof'
  subst hproof'
  rw [hvalidated, Except.ok.injEq] at hvalidated'
  subst hvalidated'
  rfl

variable {txs : List TransactionV1} {header : HeaderV1}

theorem nodup_bootstrapLicenses (h : fixture.licenseIds.Nodup) :
    ((bootstrapLicenses fixture).map (·.licenseId)).Nodup := by
  have hids : (bootstrapLicenses fixture).map (·.licenseId) =
      (fixture.licenseIds.zip fixture.manifest.licenses).map Prod.fst := by
    rw [← List.zip_swap fixture.manifest.licenses, List.map_map,
      ← List.zipIdx_map_fst 0 (fixture.manifest.licenses.zip fixture.licenseIds), List.map_map,
      bootstrapLicenses, List.map_map]
    rfl
  rw [hids]
  exact h.sublist (map_fst_zip_sublist _ _)

theorem length_bootstrapLicenses (h : createFixture s = .ok fixture) :
    (bootstrapLicenses fixture).length ≤ bootstrapLicenseCount := by
  simp only [createFixture, ok_rules] at h
  rcases h with ⟨manifest, hmanifest, _, -, _, -, _, -, _, -, _, -, _, -, _, -, _, -, _, -, _, -, _,
    -, _, -, rfl⟩
  simp only [bootstrapManifest, ok_rules] at hmanifest
  rcases hmanifest with ⟨_, -, rfl⟩
  rw [bootstrapLicenses, List.length_map, List.length_zipIdx, List.length_zip, List.length_map,
    List.length_range]
  exact min_le_left _ _

/-- The bootstrap block registers the first licences of a chain, at sequence zero. -/
theorem BootstrapStep.keepsKeys {header : HeaderV1} (h : BootstrapStep s header fixture s') :
    KeepsKeys s s' := by
  have hlicenses : s'.licenses = s.licenses ++ bootstrapLicenses fixture := by
    rw [h.licenses', h.licenses, List.nil_append]
  refine .of_append hlicenses ?_ h.history
  intro l hl
  rcases List.mem_map.mp hl with ⟨entry, -, rfl⟩
  exact ⟨rfl, rfl⟩

/-! ## Operations -/

variable {op : ProtocolOperationV1}

theorem KeyChange.changesKeys {id : Bytes32} {old new : LicenseState}
    (h : KeyChange s op id old new s')
    (howner : old.ownerKeySequence.toNat ≤ new.ownerKeySequence.toNat) :
    ChangesKeys s op id old.record.historicalKeys new.record.historicalKeys s' := by
  have hfind : ∀ id', s'.findLicense id' =
      if id' = id then (s.findLicense id).map (·.withKeys new) else s.findLicense id' := by
    intro id'
    rw [h.result]
    have hupdate := find?_updateFirst LicenseState.licenseIdText (f := (·.withKeys new))
      (fun _ => rfl) (.encode id) (.encode id') s.licenses
    simp only [HexText.encode_inj] at hupdate
    exact hupdate
  constructor
  · rw [DevnetState.keysInForce, h.found]
    rfl
  · rw [DevnetState.keysInForce, hfind, if_pos rfl, h.found, Option.map_some, ← h.others]
    rfl
  · intro id' hid
    rw [DevnetState.keysInForce, hfind, if_neg hid]
    rfl
  · exact h.mining
  · exact howner
  · rw [h.result]
    exact sortByKey_perm _ _

/-- An operation of a block keeps all keys, or is a transfer or a rotation. -/
inductive KeyEffect (s : DevnetState) (op : ProtocolOperationV1) (s' : DevnetState) : Prop
  | keeps (h : KeepsKeys s s')
  | transfer (t : LicenseTransferV1) (old new : HistoricalLicenseKeysV1) (hop : op = t.operation)
      (hexpected : t.expectedOwnerSequence = old.ownerKeySequence ∧
        t.expectedMiningSequence = old.miningKeySequence)
      (h : ChangesKeys s op t.licenseId old new s')
  | rotation (r : MiningKeyRotateV1) (old new : HistoricalLicenseKeysV1) (hop : op = r.operation)
      (hexpected : r.expectedOwnerSequence = old.ownerKeySequence ∧
        r.expectedMiningSequence = old.miningKeySequence)
      (h : ChangesKeys s op r.licenseId old new s')

theorem OperationStep.keyEffect (h : OperationStep txs epoch s op s') :
    KeyEffect s op s' := by
  cases h with
  | headers htype h =>
    rcases licenses_headers h with ⟨headers, best, rfl⟩
    exact .keeps (.of_same rfl rfl)
  | purchase htype h =>
    rcases h.result with ⟨issued, native, bitcoin, hissued, -, -, rfl⟩
    exact .keeps (.of_append rfl
      (fun l hl => ⟨(hissued l hl).ownerSequence, (hissued l hl).miningSequence⟩) rfl)
  | transfer t old new h =>
    have howner := h.owner
    exact .transfer t _ _ h.operation h.expected (h.toKeyChange.changesKeys (by omega))
  | rotation r old new h =>
    have howner := congrArg UInt32.toNat h.owner.1
    exact .rotation r _ _ h.operation h.expected (h.toKeyChange.changesKeys (by omega))
  | evidence e old event record h =>
    refine .keeps (.of_same ?_ (by rw [h.result]))
    rw [h.result]
    exact map_key_updateFirst (f := Punishment.setOffenseFields record) (fun _ => rfl) s.licenses
  | claim c license account reserved h =>
    rw [h.result]
    exact .keeps (.of_same rfl rfl)
  | presence htype h =>
    rcases presence_eq_ok h with ⟨presences, rfl⟩
    exact .keeps (.of_same rfl rfl)

/-! ## Runs of single operations -/

/-- A run as far as keys and evidence go: single operations, and between them steps that
touch neither.  Only the bootstrap block applies operations in such a step. -/
inductive RegistryRun (s₀ : DevnetState) :
    List DevnetState → List ProtocolOperationV1 → DevnetState → Prop
  | start : RegistryRun s₀ [s₀] [] s₀
  | quiet {visited : List DevnetState} {ops founding : List ProtocolOperationV1}
      {s s' : DevnetState} (run : RegistryRun s₀ visited ops s) (hkeys : KeepsKeys s s')
      (hevidence : s'.consumedEvidence = s.consumedEvidence)
      (hfounding : ∀ op ∈ founding, op.opType = opBootstrapCommitment) :
      RegistryRun s₀ (visited ++ [s']) (ops ++ founding) s'
  | operation {visited : List DevnetState} {ops : List ProtocolOperationV1}
      {txs : List TransactionV1} {epoch : UInt64} {op : ProtocolOperationV1} {s s' : DevnetState}
      (run : RegistryRun s₀ visited ops s) (hstep : OperationStep txs epoch s op s') :
      RegistryRun s₀ (visited ++ [s']) (ops ++ [op]) s'

variable {s₀ : DevnetState} {visited : List DevnetState} {ops : List ProtocolOperationV1}

theorem RegistryRun.silent (run : RegistryRun s₀ visited ops s) (hkeys : KeepsKeys s s')
    (hevidence : s'.consumedEvidence = s.consumedEvidence) :
    RegistryRun s₀ (visited ++ [s']) ops s' := by
  have h : RegistryRun s₀ (visited ++ [s']) (ops ++ []) s' :=
    run.quiet hkeys hevidence fun _ hop => absurd hop List.not_mem_nil
  rwa [List.append_nil] at h

/-- The operations of a block, one after the other. -/
theorem RegistryRun.operations {operations : List ProtocolOperationV1} {run run' : OperationRun}
    (h : operations.foldlM (applyProtocolOperation txs epoch) run = .ok run')
    (hknown : run.KnowsLicenses) (hrun : RegistryRun s₀ visited ops run.state) :
    RegistryRun s₀ (visited ++ operationStates txs epoch run operations) (ops ++ operations)
      run'.state := by
  induction operations generalizing run visited ops with
  | nil =>
    rw [List.foldlM_nil, pure_eq_ok] at h
    rw [operationStates, List.append_nil, List.append_nil, ← h]
    exact hrun
  | cons op operations ih =>
    rw [List.foldlM_cons, bind_eq_ok] at h
    rcases h with ⟨run₁, hhead, htail⟩
    rcases operationStep_of_ok hknown hhead with ⟨hstep, hknown₁⟩
    have hrest := ih htail hknown₁ (hrun.operation hstep)
    rw [List.append_assoc, List.append_assoc, List.singleton_append,
      List.singleton_append] at hrest
    simpa only [operationStates, hhead] using hrest

omit [Crypto] in
theorem operations_of_isBootstrapBlock {operations : List ProtocolOperationV1}
    (h : isBootstrapBlock s operations = true) :
    ∀ op ∈ operations, op.opType = opBootstrapCommitment := by
  unfold isBootstrapBlock at h
  split at h
  · simp only [Bool.and_eq_true, beq_iff_eq] at h
    simpa using h.2.1
  · simp at h

/-- A block that is not the bootstrap block: its parent is advanced, its operations
follow, and the commit changes neither keys nor evidence. -/
theorem RegistryRun.acceptedBlock {operations : List ProtocolOperationV1} {coinbase : TransactionV1}
    {ordinary : List TransactionV1} {license : LicenseState} {b : BodyValues}
    (run : RegistryRun s₀ visited ops s) (hboot : isBootstrapBlock s operations = false)
    (hb : AcceptedBlock s header coinbase ordinary operations next license b) :
    RegistryRun s₀
      (visited ++ blockStates s header (coinbase :: ordinary) operations ++
        [b.result next header coinbase ordinary operations])
      (ops ++ operations) (b.result next header coinbase ordinary operations) := by
  have htable : next.keyTable = s.keyTable := keyTable_advanceToBlock hb.advanced
  have hhistory : next.historicalLicenseKeys = s.historicalLicenseKeys := by
    rw [advanceToBlock_frame hb.advanced]
    rfl
  have hevidence : next.consumedEvidence = s.consumedEvidence := by
    rw [advanceToBlock_frame hb.advanced]
    rfl
  have happlied := hb.body.applied
  simp only [applyProtocolOperations, ok_rules] at happlied
  rcases happlied with ⟨_, -, applied, happlied, _, -, hpost⟩
  let parent := { next with tipEpoch := header.core.epoch }
  have hparent : RegistryRun s₀ (visited ++ [parent]) ops parent :=
    run.silent (.of_same htable hhistory) hevidence
  have hstarted : operations.foldlM (applyProtocolOperation (coinbase :: ordinary)
      header.core.epoch) (.start parent) = .ok applied := happlied
  have hops := RegistryRun.operations hstarted (fun l hl => List.mem_map_of_mem hl) hparent
  have hkeys : KeepsKeys applied.state (b.result next header coinbase ordinary operations) :=
    .of_same (by rw [BodyValues.result, ← hpost]; rfl) (by rw [BodyValues.result, ← hpost]; rfl)
  have hall := hops.silent hkeys (by rw [BodyValues.result, ← hpost]; rfl)
  rw [blockStates, hboot, if_neg Bool.false_ne_true, hb.advanced]
  simpa only [List.append_assoc, List.singleton_append] using hall

/-- On keys and evidence a chain is a run of single operations. -/
theorem ChainTrace.registryRun (h : ChainTrace s₀ visited ops s) :
    RegistryRun s₀ visited ops s := by
  induction h with
  | start => exact .start
  | @empty _ _ s s' _ _ hadvance ih =>
    have hframe := (advanceEmptyEpochs_frame hadvance).1
    have hhistory : s'.historicalLicenseKeys = s.historicalLicenseKeys := by
      rw [hframe]
      rfl
    have hevidence : s'.consumedEvidence = s.consumedEvidence := by
      rw [hframe]
      rfl
    exact ih.silent (.of_same (keyTable_advanceEmptyEpochs hadvance) hhistory) hevidence
  | block _ hblock ih =>
    rcases validateAndApplyBlock_cases hblock with
      ⟨hboot, hfirst⟩ | ⟨hboot, coinbase, ordinary, next, license, b, rfl, hb, rfl⟩
    · rcases bootstrapStep_of_ok hfirst with ⟨fixture, hstep⟩
      rw [blockStates, if_pos hboot, List.append_nil]
      exact ih.quiet hstep.keepsKeys hstep.evidence (operations_of_isBootstrapBlock hboot)
    · exact ih.acceptedBlock hboot hb

/-! ## Chains of mined blocks -/

/-- The Devnet genesis and the state after its bootstrap block. -/
def devnetBootstrapped : Except String (DevnetState × DevnetState) := do
  let genesis ← initBuild54GenesisDevnet
  let transition ← buildDevnetBootstrapTransition genesis
  let s ← validateAndApplyBlock genesis transition.header transition.txs transition.operations
  .ok (genesis, s)

/-- A node that has these transactions and operations waiting mines the next block, and
another one in the same state receives it: the operations of the block and the state the
receiver reaches. -/
def receiveMined (s : DevnetState) (pool : List PendingTxState)
    (queue : List ProtocolOperationV1) :
    Except String (List ProtocolOperationV1 × DevnetState) := do
  let miner := { s with
    mempool := pool
    pendingProtocolOperations := queue.map fun op => ⟨op.encode, none⟩ }
  let mined ← mineEpochWithSigner miner (nextMineableEpoch miner) none
  let block ← okOr mined.blocks.getLast? "no block was mined"
  let payload ← encodeBlockPayload block
  let (header, txs, operations) ← decodeBlockPayload payload
  let s' ← validateAndApplyBlock s header txs operations
  .ok (operations, s')

/-- Receive mined blocks that carry nothing. -/
def receiveEmpty : Nat → DevnetState → Except String DevnetState
  | 0, s => .ok s
  | n + 1, s => do
    let (_, s') ← receiveMined s [] []
    receiveEmpty n s'

/-- The one operation of the bootstrap block commits to the bootstrap. -/
theorem operations_of_transition {transition : BootstrapTransition}
    (h : buildDevnetBootstrapTransition s = .ok transition) :
    ∀ op ∈ transition.operations, op.opType = opBootstrapCommitment := by
  simp only [buildDevnetBootstrapTransition, ok_rules] at h
  rcases h with ⟨_, -, fixture, hfixture, _, -, _, -, _, -, _, -, _, -, _, -, _, -, _, -, _, -, _,
    -, rfl⟩
  simp only [createFixture, ok_rules] at hfixture
  rcases hfixture with ⟨_, -, _, -, _, -, _, -, _, -, _, -, _, -, _, -, _, -, _, -, _, -, _, -, _,
    -, rfl⟩
  exact fun op hop => List.mem_singleton.mp hop ▸ rfl

theorem ChainTrace.of_devnetBootstrapped {genesis : DevnetState}
    (h : devnetBootstrapped = .ok (genesis, s)) :
    ∃ visited ops, ChainTrace genesis visited ops s ∧
      ∀ op ∈ ops, op.opType = opBootstrapCommitment := by
  simp only [devnetBootstrapped, ok_rules, Prod.mk.injEq] at h
  rcases h with ⟨_, -, transition, htransition, _, hblock, rfl, rfl⟩
  exact ⟨_, _, .block .start hblock, operations_of_transition htransition⟩

theorem ChainTrace.receiveMined {operations : List ProtocolOperationV1} {pool : List PendingTxState}
    {queue : List ProtocolOperationV1} (trace : ChainTrace s₀ visited ops s)
    (h : receiveMined s pool queue = .ok (operations, s')) :
    ∃ visited', ChainTrace s₀ visited' (ops ++ operations) s' := by
  simp only [Mutiny.receiveMined, ok_rules, Prod.mk.injEq] at h
  rcases h with ⟨_, -, _, -, _, -, ⟨header, txs, _⟩, -, _, hblock, rfl, rfl⟩
  exact ⟨_, trace.block hblock⟩

theorem ChainTrace.receiveEmpty {n : Nat} (trace : ChainTrace s₀ visited ops s)
    (h : receiveEmpty n s = .ok s') : ∃ visited' ops', ChainTrace s₀ visited' ops' s' := by
  induction n generalizing s visited ops with
  | zero =>
    cases h
    exact ⟨visited, ops, trace⟩
  | succ n ih =>
    simp only [Mutiny.receiveEmpty, bind_eq_ok] at h
    rcases h with ⟨⟨operations, s₁⟩, hfirst, hrest⟩
    rcases trace.receiveMined hfirst with ⟨visited', trace'⟩
    exact ih trace' hrest

end Blocks

section Evaluation

attribute [local instance] devnetCrypto

theorem bootstrapIdsDistinct_devnetCrypto : BootstrapIdsDistinct := by
  have hcheck : okAnd (createFixture (emptyState 10 devnetNetworkId 0 0 []))
      (fun fixture => fixture.licenseIds.Nodup) = true := by
    decide +kernel
  rcases exists_of_okAnd hcheck with ⟨sample, hsample, hnodup⟩
  intro s fixture hfixture
  rw [licenseIds_createFixture hfixture hsample]
  exact of_decide_eq_true hnodup

end Evaluation

end Mutiny
