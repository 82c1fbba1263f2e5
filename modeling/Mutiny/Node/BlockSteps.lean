import Mutiny.Node.BlockSync
import Mutiny.Node.EpochRuns
import Mutiny.Node.Spending

/-!
# What an accepted block does

The validation of a block taken apart once: the values it goes through, the checks
between them, and the state it leaves.
-/

namespace Mutiny

open Result

/-- The values the validation of a body computes one after the other. -/
structure BodyValues where
  blockWeight : UInt64
  pending : List PendingTxState
  validated : List ValidatedTx
  spentUtxos : List UtxoState
  totalFees : UInt64
  treasuryShare : UInt64
  minerAmount : UInt64
  utxos : List UtxoState
  totalIssued : UInt64
  difficulty : DifficultyHistory
  baseFee : UInt64
  post : DevnetState

variable [Crypto]

/-- The checks of a body, on the state advanced to the epoch of the block. -/
structure BodyValues.Valid (b : BodyValues) (next : DevnetState) (license : LicenseState)
    (header : HeaderV1) (coinbase : TransactionV1) (ordinary : List TransactionV1)
    (operations : List ProtocolOperationV1) : Prop where
  txRoot : merkleRoot ((coinbase :: ordinary).map (·.leaf)) = some header.core.transactionRoot
  weight : blockBodyWeight (coinbase :: ordinary) operations = .ok b.blockWeight
  weightMax : b.blockWeight ≤ blockWeightMax
  records : ordinary.mapM (pendingFromTransaction next) = .ok b.pending
  spends : validateAndApplyMempool { next with mempool := b.pending } next.utxos header.core.epoch
    (next.height + 1) operations = .ok (b.validated, b.spentUtxos)
  fees : splitFees b.validated = .ok (b.totalFees, b.treasuryShare)
  amount : minerCoinbaseAmount (subsidy header.core.epoch) b.totalFees b.treasuryShare =
    .ok b.minerAmount
  minted : checkCoinbase next header.core (next.height + 1) license operations b.minerAmount
    b.treasuryShare coinbase = .ok ()
  created : addOutputsAsUtxos b.spentUtxos coinbase header.core.epoch (next.height + 1) true =
    .ok b.utxos
  issued : next.totalIssuedStrikes.checkedAdd (subsidy header.core.epoch) = some b.totalIssued
  history : historyAfterBlock next = .ok b.difficulty
  rate : adjustedBaseFeeRate next.baseFeeRateQ32 b.blockWeight = .ok b.baseFee
  applied : applyProtocolOperations { next with tipEpoch := header.core.epoch }
    (coinbase :: ordinary) operations header.core.epoch = .ok b.post
  stateRoot : computeStateRoot b.post
    { utxos := b.utxos
      height := next.height + 1
      totalIssued := b.totalIssued
      difficulty := b.difficulty
      baseFeeRate := b.baseFee } = .ok header.core.stateRoot

/-- The state a body leaves. -/
def BodyValues.result (b : BodyValues) (next : DevnetState) (header : HeaderV1)
    (coinbase : TransactionV1) (ordinary : List TransactionV1)
    (operations : List ProtocolOperationV1) : DevnetState :=
  let height := next.height + 1
  let confirmedIds := b.validated.map (·.pending.txid)
  let committed := dropConfirmed (b.post.commitBlock
    { height := height
      header := header
      totalIssued := b.totalIssued
      difficulty := b.difficulty
      baseFee := b.baseFee
      stateRoot := header.core.stateRoot
      utxos := b.utxos }) confirmedIds operations
  { committed with
    confirmedTransactions := committed.confirmedTransactions ++ b.validated.map fun v =>
      { tx := v.recorded
        blockHeight := height
        blockEpoch := header.core.epoch
        blockHash := blockHash header }
    blocks := committed.blocks ++ [blockRecord height header (coinbase :: ordinary) operations
      (subsidy header.core.epoch) b.totalFees b.treasuryShare b.blockWeight coinbase
      confirmedIds] }

variable {operations : List ProtocolOperationV1} {next s' : DevnetState} {header : HeaderV1}
  {license : LicenseState} {coinbase : TransactionV1}

/-- A body is accepted exactly when its values pass the checks. -/
theorem applyBlockBody_eq_ok {ordinary : List TransactionV1} :
    applyBlockBody next license header coinbase ordinary operations = .ok s' ↔
      ∃ b : BodyValues, b.Valid next license header coinbase ordinary operations ∧
        s' = b.result next header coinbase ordinary operations := by
  simp only [applyBlockBody, ok_rules, not_not, UInt64.not_lt]
  constructor
  · rintro ⟨_, htx, _, rfl, weight, hweight, _, hmax, pending, hpending, ⟨validated, spentUtxos⟩,
      hspends, ⟨totalFees, treasuryShare⟩, hfees, minerAmount, hamount, _, hcoinbase, utxos,
      hcreated, totalIssued, hissued, difficulty, hhistory, baseFee, hrate, post, hoperations,
      _, hroot, _, rfl, rfl⟩
    exact ⟨⟨weight, pending, validated, spentUtxos, totalFees, treasuryShare, minerAmount, utxos,
      totalIssued, difficulty, baseFee, post⟩, ⟨htx, hweight, hmax, hpending, hspends, hfees,
      hamount, hcoinbase, hcreated, hissued, hhistory, hrate, hoperations, hroot⟩, rfl⟩
  · rintro ⟨b, hb, rfl⟩
    exact ⟨_, hb.txRoot, (), rfl, _, hb.weight, (), hb.weightMax, _, hb.records, _, hb.spends, _,
      hb.fees, _, hb.amount, (), hb.minted, _, hb.created, _, hb.issued, _, hb.history, _,
      hb.rate, _, hb.applied, _, hb.stateRoot, (), rfl, rfl⟩

/-- An accepted block that is not the bootstrap block. -/
structure AcceptedBlock (s : DevnetState) (header : HeaderV1) (coinbase : TransactionV1)
    (ordinary : List TransactionV1) (operations : List ProtocolOperationV1) (next : DevnetState)
    (license : LicenseState) (b : BodyValues) : Prop where
  place : checkHeaderPlace s header.core = .ok ()
  advanced : advanceToBlock s header.core.epoch = .ok next
  work : checkWork next header operations = .ok license
  body : b.Valid next license header coinbase ordinary operations

variable {s : DevnetState} {txs : List TransactionV1}

/-- An accepted block is the bootstrap block, or a body on the state advanced to its epoch. -/
theorem validateAndApplyBlock_cases (h : validateAndApplyBlock s header txs operations = .ok s') :
    (isBootstrapBlock s operations = true ∧
        validateAndApplyDevnetBlock1 s header txs operations = .ok s') ∨
      (isBootstrapBlock s operations = false ∧
        ∃ coinbase ordinary next license b, txs = coinbase :: ordinary ∧
          AcceptedBlock s header coinbase ordinary operations next license b ∧
          s' = b.result next header coinbase ordinary operations) := by
  simp only [validateAndApplyBlock, ok_rules] at h
  rcases h with ⟨runtime, -, _, -, h⟩
  split at h
  next hboot => exact Or.inl ⟨hboot, h⟩
  next hboot =>
    rw [Bool.not_eq_true] at hboot
    simp only [bind_eq_ok] at h
    rcases h with ⟨_, hplace, next, hadvanced, license, hwork, h⟩
    cases txs with
    | nil => cases h
    | cons coinbase ordinary =>
      rcases applyBlockBody_eq_ok.mp h with ⟨b, hb, rfl⟩
      exact Or.inr ⟨hboot, coinbase, ordinary, next, license, b, rfl,
        ⟨hplace, hadvanced, hwork, hb⟩, rfl⟩

/-! ## The parts of an accepted block -/

/-- Advancing to a block is a run of empty epochs up to the one before and the scheduled
transitions of its own. -/
theorem advanceToBlock_parts {epoch : UInt64} (h : advanceToBlock s epoch = .ok next) :
    ∃ throughEpoch s₁, advanceEmptyEpochs s throughEpoch = .ok s₁ ∧
      throughEpoch.toNat = epoch.toNat - 1 ∧
      applyScheduledLicenseTransitions s₁ epoch = .ok next := by
  simp only [advanceToBlock, advanceBeforeBlock, bind_eq_ok] at h
  rcases h with ⟨s₁, hbefore, hscheduled⟩
  by_cases hpos : 0 < epoch
  · rw [if_pos hpos] at hbefore
    refine ⟨epoch - 1, s₁, hbefore, ?_, hscheduled⟩
    have hone : (1 : UInt64) ≤ epoch := by
      rw [UInt64.le_iff_toNat_le]
      exact UInt64.lt_iff_toNat_lt.mp hpos
    rw [UInt64.toNat_sub_of_le _ _ hone, UInt64.toNat_one]
  · have hzero : epoch = 0 := UInt64.le_zero_iff.mp (UInt64.not_lt.mp hpos)
    rw [if_neg hpos] at hbefore
    refine ⟨0, s₁, ?_, by rw [hzero]; rfl, hscheduled⟩
    rw [advanceEmptyEpochs, if_pos UInt64.zero_le]
    exact hbefore

/-- Advancing to a block changes what empty epochs change. -/
theorem advanceToBlock_frame {epoch : UInt64} (h : advanceToBlock s epoch = .ok next) :
    next = { s.withEpochs next with currentStateRoot := next.currentStateRoot } := by
  rcases advanceToBlock_parts h with ⟨_, s₁, hbefore, -, hscheduled⟩
  rw [applyScheduledLicenseTransitions_frame hscheduled, (advanceEmptyEpochs_frame hbefore).1]
  rfl

omit [Crypto] in
/-- The epoch of a header in its place: after the tip, or, before the first block, after the
activation delay. -/
theorem epoch_of_checkHeaderPlace {core : HeaderCoreV1} (h : checkHeaderPlace s core = .ok ()) :
    (s.height ≠ 0 → s.tipEpoch.toNat < core.epoch.toNat) ∧ (s.height = 0 → 64 ≤ core.epoch.toNat) := by
  simp only [checkHeaderPlace, ok_rules, not_and, UInt64.not_lt] at h
  rcases h with ⟨_, -, _, hascends, _, hactivated, -⟩
  constructor
  · intro hheight
    rw [← UInt64.lt_iff_toNat_lt, ← UInt64.not_le]
    exact fun hle => hheight (UInt64.le_zero_iff.mp (hascends hle))
  · intro hheight
    exact UInt64.le_iff_toNat_le.mp (hactivated hheight)

/-- A block that is not above the tip epoch of a chain raises its height by one. -/
theorem AcceptedBlock.height_succ {ordinary : List TransactionV1} {b : BodyValues}
    (hb : AcceptedBlock s header coinbase ordinary operations next license b)
    (hheight : s.height.toNat ≤ s.tipEpoch.toNat) :
    (next.height + 1).toNat = s.height.toNat + 1 ∧
      s.height.toNat + 1 ≤ header.core.epoch.toNat ∧ next.height + 1 ≠ 0 := by
  have hnext : next.height = s.height := by
    rw [advanceToBlock_frame hb.advanced]
    rfl
  have hbound := header.core.epoch.toNat_lt
  have hle : s.height.toNat + 1 ≤ header.core.epoch.toNat := by
    rcases epoch_of_checkHeaderPlace hb.place with ⟨hascends, hactivated⟩
    by_cases hfirst : s.height = 0
    · have hactivated := hactivated hfirst
      rw [hfirst, UInt64.toNat_zero]
      omega
    · have hascends := hascends hfirst
      omega
  have hsucc : (next.height + 1).toNat = s.height.toNat + 1 := by
    rw [hnext, UInt64.toNat_add, UInt64.toNat_one, Nat.mod_eq_of_lt (by omega)]
  refine ⟨hsucc, hle, fun hwrapped => ?_⟩
  rw [hwrapped, UInt64.toNat_zero] at hsucc
  omega

/-- The coinbase of an accepted block pays the miner and the treasury. -/
theorem outputs_of_checkCoinbase {core : HeaderCoreV1} {height : UInt64}
    {minerAmount treasuryShare : UInt64}
    (h : checkCoinbase next core height license operations minerAmount treasuryShare coinbase =
      .ok ()) :
    coinbase.core.outputs =
      coinbaseOutputs next.networkId minerAmount treasuryShare license.paymentAddressId := by
  simp only [checkCoinbase, bind_eq_ok] at h
  rcases h with ⟨_, -, h⟩
  split at h
  · simp only [ok_rules, not_not] at h
    rcases h with ⟨_, -, _, -, houtputs⟩
    exact houtputs
  · cases h

/-! ## The bootstrap block -/

/-- The block that the bootstrap makes on a state. -/
structure MadeByBootstrap (s : DevnetState) (header : HeaderV1) (txs : List TransactionV1)
    (operations : List ProtocolOperationV1) (made : BootstrapTransition) : Prop where
  built : buildDevnetBootstrapTransition s = .ok made
  header : header = made.header
  body : txs.map (·.encodeFull) = made.txs.map (·.encodeFull)
  operations : operations.map (·.encode) = made.operations.map (·.encode)

/-- On its route a node accepts the block of the bootstrap and no other. -/
theorem validateAndApplyDevnetBlock1_eq_ok :
    validateAndApplyDevnetBlock1 s header txs operations = .ok s' ↔
      ∃ made, MadeByBootstrap s header txs operations made ∧ s' = made.next := by
  simp only [validateAndApplyDevnetBlock1, ok_rules, not_not]
  constructor
  · rintro ⟨made, hbuilt, _, hheader, _, hbody, _, hoperations, rfl⟩
    exact ⟨made, ⟨hbuilt, hheader, hbody, hoperations⟩, rfl⟩
  · rintro ⟨made, ⟨hbuilt, hheader, hbody, hoperations⟩, rfl⟩
    exact ⟨made, hbuilt, (), hheader, (), hbody, (), hoperations, rfl⟩

/-- What the bootstrap block starts from, what it leaves, and what it leaves alone. -/
structure BootstrapStep (s : DevnetState) (header : HeaderV1)
    (fixture : DevnetBootstrapFixtureV1) (s' : DevnetState) : Prop where
  height : s.height = 0
  tipEpoch : s.tipEpoch = 0
  licenses : s.licenses = []
  utxos : s.utxos = []
  built : createFixture s = .ok fixture
  epoch : header.core.epoch = fixture.issuedEpoch
  height' : s'.height = 1
  tipEpoch' : s'.tipEpoch = fixture.issuedEpoch
  licenses' : s'.licenses = bootstrapLicenses fixture
  utxos' : s'.utxos = []
  totalIssued' : s'.totalIssuedStrikes = 0
  genesisTime : s'.genesisTimeMs = s.genesisTimeMs
  history : s'.historicalLicenseKeys = s.historicalLicenseKeys
  evidence : s'.consumedEvidence = s.consumedEvidence
  offenses : s'.offenseEvents = s.offenseEvents
  accounts : s'.dividendAccounts = s.dividendAccounts
  reserve : s'.treasuryReservedDividendStrikes = s.treasuryReservedDividendStrikes

theorem bootstrapStep_of_ok (h : validateAndApplyDevnetBlock1 s header txs operations = .ok s') :
    ∃ fixture, BootstrapStep s header fixture s' := by
  rcases validateAndApplyDevnetBlock1_eq_ok.mp h with ⟨made, hmade, rfl⟩
  have hbuild := hmade.built
  simp only [buildDevnetBootstrapTransition, checkPristine, ok_rules, not_or, not_not] at hbuild
  rcases hbuild with ⟨_, ⟨_, -, _, hempty, hpristine⟩, fixture, hfixture, _, -, _, -, _, -, _, -, _,
    -, _, -, _, -, _, -, _, -, _, -, rfl⟩
  have hepoch : header.core.epoch = fixture.issuedEpoch := by rw [hmade.header]
  exact ⟨fixture, hempty.1, hempty.2.1, hempty.2.2.2, hpristine.2.1, hfixture, hepoch, rfl, rfl,
    rfl, hpristine.2.1, rfl, rfl, rfl, rfl, rfl, rfl, rfl⟩

/-- The bootstrap block is of a fixed epoch. -/
theorem BootstrapStep.tipEpoch_eq {fixture : DevnetBootstrapFixtureV1}
    (h : BootstrapStep s header fixture s') : s'.tipEpoch = 10 := by
  rw [h.tipEpoch', issuedEpoch_createFixture h.built]

end Mutiny
