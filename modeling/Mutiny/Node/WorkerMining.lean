import Mutiny.Node.StateCheck
import Mutiny.Node.Bootstrap

/-!
# Tickets for remote workers

A node that lets workers search for tickets first prepares the ticket: it moves
its state to the candidate epoch, applies the transitions that are due there, and
fixes everything the search depends on.

Main results:

- Theorem {lit}`prepareCanonicalTicket_repeatable`: preparing twice is preparing once,
  unless the epoch makes an award.
- Theorem {lit}`prepareCanonicalTicket_award_twice`: after an award it cannot be prepared
  again.
-/

namespace Mutiny

open Result

/-- What a worker needs to know about a ticket. -/
structure PreparedTicketAuthorityV1 where
  parentBlockHash : Bytes32
  parentHeight : UInt64
  targetEpoch : UInt64
  licenseId : Bytes32
  ticketIndex : UInt16
  workUnitsForEpoch : UInt16
  eligibleLicenseCount : UInt64
  difficultyCQ32 : UInt64
  anchorEntropy : Bytes32
  target : Bytes32
deriving DecidableEq, Repr

/-- A ticket ready for a worker. -/
structure CanonicalTicketPlanV1 where
  authority : PreparedTicketAuthorityV1
  licenseIndex : Nat
  operationFingerprint : List (UInt16 × Bytes32)
deriving DecidableEq, Repr

section Tickets

variable [Crypto]

/-- Type and identifier of each operation. -/
def operationFingerprint (operations : List ProtocolOperationV1) : List (UInt16 × Bytes32) :=
  operations.map fun op => (op.opType, op.operationId)

/-- The plan of a ticket. -/
def derivePlanFromPreparedState (s : DevnetState) (epoch : UInt64) (licenseIndex : Nat)
    (ticketIndex : UInt16) (miningSigner : Bytes32) :
    Except String (CanonicalTicketPlanV1 × List ProtocolOperationV1) := do
  checkCandidateEpoch s epoch
  let license ← okOr s.licenses[licenseIndex]? "license number out of range"
  reject (license.isEligible epoch = false)
    "selected encrypted-custody Mining License is not base-eligible in the candidate epoch"
  reject (Crypto.publicKey miningSigner ≠ license.miningPublicKey)
    "provided signing key does not match the current on-chain mining authority"
  let operations ← candidateProtocolOperations s epoch licenseIndex
    (MiningAuthority.raw miningSigner)
  let candidateEligible ← Presence.candidateEligibleCount s epoch license.licenseId operations
  reject (candidateEligible = 0) "candidate participation-eligible count is zero"
  let w := workUnits candidateEligible
  reject (w ≤ ticketIndex) "ticket index is outside the frozen Pack-A work budget"
  let target ← deriveTarget (authorizedCapacity candidateEligible) s.difficultyCorrectionQ32
  .ok ({ authority :=
          { parentBlockHash := s.tipHash
            parentHeight := s.height
            targetEpoch := epoch
            licenseId := license.licenseId
            ticketIndex := ticketIndex
            workUnitsForEpoch := w
            eligibleLicenseCount := candidateEligible
            difficultyCQ32 := s.difficultyCorrectionQ32
            anchorEntropy := ticketAnchor s
            target := target }
         licenseIndex := licenseIndex
         operationFingerprint := operationFingerprint operations }, operations)

/-- Empty epochs up to the one before the candidate, with a refreshed root after
each of them. -/
def skipToCandidate (s : DevnetState) (epoch : UInt64) : Except String DevnetState :=
  if 0 < s.height then skipEpochs (epoch.toNat - 1 - s.tipEpoch.toNat) s else .ok s

/-- Prepare one ticket.  The result is the plan and the state the node keeps. -/
def prepareCanonicalTicket (s : DevnetState) (epoch : UInt64) (licenseIndex : Nat)
    (ticketIndex : UInt16) (miningSigner : Bytes32) :
    Except String (CanonicalTicketPlanV1 × DevnetState) := do
  checkCandidateEpoch s epoch
  let prepared ← skipToCandidate s epoch
  let prepared ← applyScheduledLicenseTransitions prepared epoch
  let (plan, _) ← derivePlanFromPreparedState prepared epoch licenseIndex ticketIndex miningSigner
  .ok (plan, prepared)

/-! ## Preparing again -/

variable {s s' : DevnetState} {epoch : UInt64} {licenseIndex : Nat} {ticketIndex : UInt16}
  {miningSigner : Bytes32} {plan : CanonicalTicketPlanV1}

/-- The parts of a successful preparation: {lit}`parent` is the state at the epoch
before the candidate. -/
theorem prepareCanonicalTicket_eq_ok :
    prepareCanonicalTicket s epoch licenseIndex ticketIndex miningSigner = .ok (plan, s') ↔
      checkCandidateEpoch s epoch = .ok () ∧
        ∃ parent, skipToCandidate s epoch = .ok parent ∧
          applyScheduledLicenseTransitions parent epoch = .ok s' ∧
          ∃ operations, derivePlanFromPreparedState s' epoch licenseIndex ticketIndex
            miningSigner = .ok (plan, operations) := by
  simp only [prepareCanonicalTicket, ok_rules, Prod.mk.injEq]
  constructor
  · rintro ⟨_, hcandidate, parent, hparent, _, hscheduled, ⟨_, operations⟩, hplan, rfl, rfl⟩
    exact ⟨hcandidate, parent, hparent, hscheduled, operations, hplan⟩
  · rintro ⟨hcandidate, parent, hparent, hscheduled, operations, hplan⟩
    exact ⟨(), hcandidate, parent, hparent, s', hscheduled, ⟨plan, operations⟩, hplan, rfl, rfl⟩

/-- Two runs leave the same consensus state, or neither leaves one. -/
def SameOutcome (x y : Except String DevnetState) : Prop :=
  ∀ c, (∃ t, x = .ok t ∧ t.consensus = c) ↔ ∃ t, y = .ok t ∧ t.consensus = c

/-- Preparing a ticket left no trace: it can be prepared again, with the same plan
and the same state, and empty epochs lead to where they led before. -/
def Repeatable (s : DevnetState) (epoch : UInt64) (licenseIndex : Nat) (ticketIndex : UInt16)
    (miningSigner : Bytes32) (plan : CanonicalTicketPlanV1) (s' : DevnetState) : Prop :=
  prepareCanonicalTicket s' epoch licenseIndex ticketIndex miningSigner = .ok (plan, s') ∧
    ∀ later, epoch ≤ later →
      SameOutcome (advanceEmptyEpochs s' later) (advanceEmptyEpochs s later)

variable {parent : DevnetState}

/-- The state before the candidate epoch: the state itself on a chain without a
block, and otherwise the state after the empty epochs below the candidate. -/
theorem skipToCandidate_cases (hcandidate : checkCandidateEpoch s epoch = .ok ())
    (h : skipToCandidate s epoch = .ok parent) :
    (s.height = 0 ∧ parent = s) ∨
      (0 < s.height ∧ s.tipEpoch < epoch ∧
        emptyEpochs (epoch.toNat - 1 - s.tipEpoch.toNat) s.bare = .ok parent.bare ∧
        parent.tipEpoch + 1 = epoch) := by
  rw [skipToCandidate] at h
  split at h
  next hheight =>
    have hlater : s.tipEpoch < epoch := by
      simp only [checkCandidateEpoch, ok_rules] at hcandidate
      rcases hcandidate with ⟨_, -, _, hlater, -⟩
      exact UInt64.not_le.mp fun hle => hlater ⟨hle, hheight⟩
    have hrun := emptyEpochs_of_skipEpochs h
    refine Or.inr ⟨hheight, hlater, hrun, ?_⟩
    have hlt := UInt64.lt_iff_toNat_lt.mp hlater
    have hbound := epoch.toNat_lt
    have hroom : s.bare.tipEpoch.toNat + (epoch.toNat - 1 - s.tipEpoch.toNat) < 2 ^ 64 := by
      change s.tipEpoch.toNat + _ < _
      omega
    have htip : parent.tipEpoch.toNat = s.tipEpoch.toNat + (epoch.toNat - 1 - s.tipEpoch.toNat) :=
      (emptyEpochs_invariant (P := fun _ => True) (fun _ _ _ _ _ => trivial) trivial hroom hrun).2
    apply UInt64.toNat_inj.mp
    rw [UInt64.toNat_add, UInt64.toNat_one]
    omega
  next hheight =>
    cases h
    refine Or.inl ⟨?_, rfl⟩
    apply UInt64.toNat_inj.mp
    have hle := UInt64.le_iff_toNat_le.mp (UInt64.not_lt.mp hheight)
    exact Nat.le_zero.mp hle

omit [Crypto] in
/-- The transitions of an epoch that awards nothing do not change what the empty
epoch makes of the state. -/
theorem emptyEpoch_of_scheduled (htip : s.tipEpoch + 1 = epoch)
    (h : applyScheduledLicenseTransitions s epoch = .ok s') (hnone : ¬ AwardsAt s epoch) :
    emptyEpoch s'.bare = emptyEpoch s.bare := by
  have htip' : s'.tipEpoch + 1 = epoch := by
    rw [applyScheduledLicenseTransitions_frame h]
    exact htip
  have hmoved := (blind_setTip epoch).applyScheduledLicenseTransitions
  rw [blindEpoch_bare.emptyEpoch, blindEpoch_bare.emptyEpoch, emptyEpoch, emptyEpoch, htip, htip',
    hmoved, hmoved, h, applyScheduledLicenseTransitions_again h hnone]

/-- Advancing from a prepared state is advancing from the state it was prepared
from. -/
theorem advance_of_scheduled {later : UInt64} (hlater : s.tipEpoch < epoch)
    (hrun : emptyEpochs (epoch.toNat - 1 - s.tipEpoch.toNat) s.bare = .ok parent.bare)
    (htip : parent.tipEpoch + 1 = epoch)
    (hscheduled : applyScheduledLicenseTransitions parent epoch = .ok s')
    (hnone : ¬ AwardsAt parent epoch) (hle : epoch ≤ later) :
    SameOutcome (advanceEmptyEpochs s' later) (advanceEmptyEpochs s later) := by
  have hlt := UInt64.lt_iff_toNat_lt.mp hlater
  have hle := UInt64.le_iff_toNat_le.mp hle
  have htipEq : s'.tipEpoch = parent.tipEpoch := by
    rw [applyScheduledLicenseTransitions_frame hscheduled]
    rfl
  have htipNat : s'.tipEpoch.toNat + 1 = epoch.toNat := by
    have hbound := parent.tipEpoch.toNat_lt
    have hsucc := congrArg UInt64.toNat htip
    rw [UInt64.toNat_add, UInt64.toNat_one] at hsucc
    rw [htipEq]
    omega
  intro c
  rw [advanceEmptyEpochs_consensus (UInt64.lt_iff_toNat_lt.mpr (by omega)),
    advanceEmptyEpochs_consensus (UInt64.lt_iff_toNat_lt.mpr (by omega))]
  have hfirst : later.toNat - s'.tipEpoch.toNat = (later.toNat - epoch.toNat) + 1 := by omega
  have hsplit : later.toNat - s.tipEpoch.toNat =
      (epoch.toNat - 1 - s.tipEpoch.toNat) + ((later.toNat - epoch.toNat) + 1) := by omega
  have hsame : emptyEpochs (later.toNat - s'.tipEpoch.toNat) s'.bare =
      emptyEpochs (later.toNat - s.tipEpoch.toNat) s.bare := by
    calc emptyEpochs (later.toNat - s'.tipEpoch.toNat) s'.bare
        = emptyEpochs ((later.toNat - epoch.toNat) + 1) parent.bare := by
          rw [hfirst, emptyEpochs, emptyEpochs, emptyEpoch_of_scheduled htip hscheduled hnone]
      _ = emptyEpochs (later.toNat - s.tipEpoch.toNat) s.bare := by
          rw [hsplit, emptyEpochs_add (epoch.toNat - 1 - s.tipEpoch.toNat), hrun, ok_bind]
  rw [hsame]

/-- In a quiet epoch nothing happens to the consensus state, so no empty epoch is
missed. -/
theorem advance_of_quiet (hscheduled : applyScheduledLicenseTransitions s epoch = .ok s')
    (hquiet : QuietEpoch s epoch) (hweighed : Weighed s) (later : UInt64) :
    SameOutcome (advanceEmptyEpochs s' later) (advanceEmptyEpochs s later) := by
  have hsame := applyScheduledLicenseTransitions_quiet hscheduled hquiet hweighed
  have htip : s'.tipEpoch = s.tipEpoch := by
    rw [hsame]
    rfl
  intro c
  by_cases hle : later ≤ s.tipEpoch
  · have hcons : s'.consensus = s.consensus := by
      rw [hsame]
      rfl
    have hle' : later ≤ s'.tipEpoch := htip ▸ hle
    rw [advanceEmptyEpochs, advanceEmptyEpochs, if_pos hle, if_pos hle']
    constructor
    · rintro ⟨_, ⟨⟩, rfl⟩
      exact ⟨s, rfl, hcons.symm⟩
    · rintro ⟨_, ⟨⟩, rfl⟩
      exact ⟨s', rfl, hcons⟩
  · have hlt := UInt64.not_le.mp hle
    have hbare : s'.bare = s.bare := by
      rw [hsame]
      rfl
    rw [advanceEmptyEpochs_consensus hlt, advanceEmptyEpochs_consensus (htip ▸ hlt), hbare, htip]

/-- A prepared state is prepared again in one step: no epoch is skipped. -/
theorem prepare_of_scheduled_again {operations : List ProtocolOperationV1}
    (hplan : derivePlanFromPreparedState s' epoch licenseIndex ticketIndex miningSigner =
      .ok (plan, operations)) (hskip : skipToCandidate s' epoch = .ok s')
    (hagain : applyScheduledLicenseTransitions s' epoch = .ok s') :
    prepareCanonicalTicket s' epoch licenseIndex ticketIndex miningSigner = .ok (plan, s') := by
  have hcandidate : checkCandidateEpoch s' epoch = .ok () := by
    simp only [derivePlanFromPreparedState, bind_eq_ok] at hplan
    rcases hplan with ⟨_, hcandidate, -⟩
    exact hcandidate
  exact prepareCanonicalTicket_eq_ok.mpr ⟨hcandidate, s', hskip, hagain, operations, hplan⟩

/-- Preparing a ticket leaves no trace exactly when the candidate epoch makes no
award.  A chain without a block skips no epochs, so there the epoch must be quiet
as well. -/
theorem prepareCanonicalTicket_repeatable {s parent s' : DevnetState} {epoch : UInt64}
    {licenseIndex : Nat} {ticketIndex : UInt16} {miningSigner : Bytes32}
    {plan : CanonicalTicketPlanV1} (hchecked : checkState s = .ok ())
    (hprepared : prepareCanonicalTicket s epoch licenseIndex ticketIndex miningSigner =
      .ok (plan, s'))
    (hparent : skipToCandidate s epoch = .ok parent) :
    (Repeatable s epoch licenseIndex ticketIndex miningSigner plan s' → ¬ AwardsAt parent epoch) ∧
      (¬ AwardsAt parent epoch → (s.height = 0 → QuietEpoch s epoch) →
        Repeatable s epoch licenseIndex ticketIndex miningSigner plan s') := by
  rcases prepareCanonicalTicket_eq_ok.mp hprepared with
    ⟨hcandidate, _, hparent', hscheduled, operations, hplan⟩
  cases hparent.symm.trans hparent'
  have hcases := skipToCandidate_cases hcandidate hparent
  have hskip : skipToCandidate s' epoch = .ok s' := by
    have hframe := applyScheduledLicenseTransitions_frame hscheduled
    have hheight' : s'.height = parent.height := by
      rw [hframe]
      rfl
    rcases hcases with ⟨hheight, rfl⟩ | ⟨-, -, -, htip⟩
    · rw [skipToCandidate, if_neg]
      rw [hheight', hheight]
      decide
    · have htip' : s'.tipEpoch = parent.tipEpoch := by
        rw [hframe]
        rfl
      have hnone : epoch.toNat - 1 - s'.tipEpoch.toNat = 0 := by
        have hbound := parent.tipEpoch.toNat_lt
        rw [← htip, htip', UInt64.toNat_add, UInt64.toNat_one]
        omega
      rw [skipToCandidate, hnone]
      split <;> rfl
  constructor
  · rintro ⟨hagain, -⟩ hawards
    rcases prepareCanonicalTicket_eq_ok.mp hagain with ⟨-, _, hskip', hsecond, -⟩
    cases hskip.symm.trans hskip'
    exact applyScheduledLicenseTransitions_award hscheduled hawards _ hsecond
  · intro hnone hquiet
    have hagain := applyScheduledLicenseTransitions_again hscheduled hnone
    refine ⟨prepare_of_scheduled_again hplan hskip hagain, ?_⟩
    intro later hle
    rcases hcases with ⟨hheight, rfl⟩ | ⟨-, hlater, hrun, htip⟩
    · exact advance_of_quiet hscheduled (hquiet hheight)
        (checkState_eq_ok.mp hchecked).weighed later
    · exact advance_of_scheduled hlater hrun htip hscheduled hnone hle

end Tickets

/-! ## A chain at an award epoch -/

section Evaluation

attribute [local instance] devnetCrypto

/-- The licence of a miner whose secret is seven. -/
def sampleLicense : LicenseState where
  index := 0
  licenseIdText := .encode 1
  purchaseId := 2
  ownerPublicKey := 7
  miningPublicKey := 7
  paymentAddressId := addressId 7
  status := licenseStatusActive
  purchaseMethod := purchaseMethodBtc
  ownerKeySequence := 0
  miningKeySequence := 0
  issuedEpoch := 10
  activationEpoch := 74
  strikeWeight := 0
  suspendedUntilEpoch := 0
  revocationEpoch := 0

/-- The only block of a short chain. -/
def sampleBlock (epoch : UInt64) : BlockState where
  height := 1
  epoch := epoch
  header := []
  transactions := []
  protocolOperations := []
  blockHash := 3
  parentHash := devnetGenesisId
  minerLicenseId := 1
  ticketIndex := 0
  argon2Proof := 0
  target := 0
  rewardStrikes := 1000
  totalFeesStrikes := 0
  treasuryFeeShareStrikes := 0
  blockWeight := 0
  transactionRoot := 0
  stateRoot := 0
  coinbaseTxid := 5
  transactionIds := []

/-- A Devnet chain of one block at an epoch, with a thousand units in the treasury. -/
def sampleChain (epoch : UInt64) : Except String DevnetState :=
  refreshCurrentStateRoot
    { emptyState 10 devnetNetworkId 0 devnetGenesisId [sampleLicense] with
      height := 1
      tipHash := 3
      tipEpoch := epoch
      totalIssuedStrikes := 1000
      utxos :=
        [{ txid := .encode 5
           outputIndex := 0
           amountStrikes := 1000
           outputType := outputTreasury
           payload := []
           creationEpoch := epoch
           creationHeight := 1
           coinbase := false }]
      blocks := [sampleBlock epoch] }

theorem prepareCanonicalTicket_repeatable_ordinary :
    ∃ (s s' : DevnetState) (plan : CanonicalTicketPlanV1),
      checkState s = .ok () ∧ prepareCanonicalTicket s 130002 0 0 7 = .ok (plan, s') ∧
        Repeatable s 130002 0 0 7 plan s' := by
  have hcheck : okAnd (do
      let s ← sampleChain 130000
      checkState s
      let (plan, s') ← prepareCanonicalTicket s 130002 0 0 7
      let parent ← skipToCandidate s 130002
      .ok (s, plan, s', parent)) (fun (s, _, _, parent) =>
        s.height != 0 && !decide (AwardsAt parent 130002)) = true := by decide +kernel
  rcases exists_of_okAnd hcheck with ⟨⟨s, plan, s', parent⟩, hrun, htest⟩
  simp only [ok_rules, Prod.mk.injEq, Prod.exists] at hrun
  rcases hrun with ⟨_, -, _, hchecked, _, _, hprepared, _, hparent, rfl, rfl, rfl, rfl⟩
  simp only [Bool.and_eq_true, bne_iff_ne, Bool.not_eq_true', decide_eq_false_iff_not] at htest
  exact ⟨_, _, _, hchecked, hprepared,
    (prepareCanonicalTicket_repeatable hchecked hprepared hparent).2 htest.2
      fun hheight => absurd hheight htest.1⟩

/-- At the first award epoch a ticket is prepared once.  The prepared state cannot be
prepared again, and empty epochs lead nowhere from it although they did before. -/
theorem prepareCanonicalTicket_award_twice :
    ∃ (s s' : DevnetState) (plan : CanonicalTicketPlanV1),
      checkState s = .ok () ∧ prepareCanonicalTicket s 131072 0 0 7 = .ok (plan, s') ∧
        (∀ r, prepareCanonicalTicket s' 131072 0 0 7 ≠ .ok r) ∧
        (∃ t, advanceEmptyEpochs s 131072 = .ok t) ∧
        ∀ t, advanceEmptyEpochs s' 131072 ≠ .ok t := by
  have hcheck : okAnd (do
      let s ← sampleChain 131071
      checkState s
      let (plan, s') ← prepareCanonicalTicket s 131072 0 0 7
      let t ← advanceEmptyEpochs s 131072
      .ok (s, plan, s', t)) (fun (_, _, s', _) =>
        !okAnd (prepareCanonicalTicket s' 131072 0 0 7) (fun _ => true) &&
          !okAnd (advanceEmptyEpochs s' 131072) (fun _ => true)) = true := by decide +kernel
  rcases exists_of_okAnd hcheck with ⟨⟨s, plan, s', t⟩, hrun, htest⟩
  simp only [ok_rules, Prod.mk.injEq, Prod.exists] at hrun
  rcases hrun with ⟨_, -, _, hchecked, _, _, hprepared, _, hadvanced, rfl, rfl, rfl, rfl⟩
  simp only [Bool.and_eq_true, Bool.not_eq_true'] at htest
  refine ⟨_, _, _, hchecked, hprepared, ?_, ⟨_, hadvanced⟩, ?_⟩
  · intro r hr
    rw [hr] at htest
    exact absurd htest.1 (by simp [okAnd])
  · intro r hr
    rw [hr] at htest
    exact absurd htest.2 (by simp [okAnd])

end Evaluation

end Mutiny
