import Mutiny.Lib.Counted
import Mutiny.Node.DividendRuns
import Mutiny.Node.Controllers
import Mutiny.Node.WorkerMining

/-!
# The cost of rejecting a block

Validation advances the state to the epoch of the header before it looks at the licence,
the proof and the signature.  Here the iterations of that loop are counted.

Main result:

- Theorem {lit}`rejection_cost`: how many iterations it takes to reject a block that
  nobody signed.
-/

namespace Mutiny

open Result

/-! ## Counted validation -/

/-- The loop over empty epochs; every iteration is a step. -/
def countedEmptyEpochs : Nat → DevnetState → Counted String DevnetState
  | 0, s => pure s
  | n + 1, s => do
    let s ← Counted.step (emptyEpoch s)
    countedEmptyEpochs n s

section Validation

variable [Crypto]

/-- The counted run of empty epochs. -/
def countedAdvanceEmptyEpochs (s : DevnetState) (throughEpoch : UInt64) :
    Counted String DevnetState :=
  if throughEpoch ≤ s.tipEpoch then pure s
  else do
    let s ← countedEmptyEpochs (throughEpoch.toNat - s.tipEpoch.toNat) s
    .free (refreshCurrentStateRoot s)

/-- Up to the epoch before a block. -/
def countedAdvanceBeforeBlock (s : DevnetState) (epoch : UInt64) : Counted String DevnetState :=
  if 0 < epoch then countedAdvanceEmptyEpochs s (epoch - 1) else pure s

/-- Up to the epoch of a block. -/
def countedAdvanceToBlock (s : DevnetState) (epoch : UInt64) : Counted String DevnetState := do
  let s ← countedAdvanceBeforeBlock s epoch
  .free (applyScheduledLicenseTransitions s epoch)

/-- What validation does once the state is at the epoch of the header. -/
def finishBlock (next : DevnetState) (header : HeaderV1) (txs : List TransactionV1)
    (operations : List ProtocolOperationV1) : Except String DevnetState := do
  let license ← checkWork next header operations
  match txs with
  | [] => .error "block has no coinbase transaction"
  | coinbase :: ordinary => applyBlockBody next license header coinbase ordinary operations

/-- Validation with the iterations of its loop counted. -/
def countedValidate (s : DevnetState) (header : HeaderV1) (txs : List TransactionV1)
    (operations : List ProtocolOperationV1) : Counted String DevnetState := do
  let runtime ← .free (runtimeForState s)
  Counted.free (reject (runtime = .mainnet ∧ s.height = 0)
    "Mainnet Genesis -> Block1 requires the authenticated runtime bootstrap route")
  if isBootstrapBlock s operations then
    .free (validateAndApplyDevnetBlock1 s header txs operations)
  else
    Counted.free (checkHeaderPlace s header.core)
    let next ← countedAdvanceToBlock s header.core.epoch
    .free (finishBlock next header txs operations)

omit [Crypto] in
theorem result_countedEmptyEpochs (n : Nat) (s : DevnetState) :
    (countedEmptyEpochs n s).result = emptyEpochs n s := by
  induction n generalizing s with
  | zero => rfl
  | succ n ih =>
    rw [countedEmptyEpochs, Counted.result_bind]
    simp only [ih]
    rfl

theorem result_countedAdvanceEmptyEpochs (s : DevnetState) (throughEpoch : UInt64) :
    (countedAdvanceEmptyEpochs s throughEpoch).result = advanceEmptyEpochs s throughEpoch := by
  unfold countedAdvanceEmptyEpochs advanceEmptyEpochs
  by_cases hreached : throughEpoch ≤ s.tipEpoch
  · rw [if_pos hreached, if_pos hreached]
    rfl
  · rw [if_neg hreached, if_neg hreached, Counted.result_bind, result_countedEmptyEpochs]
    rfl

theorem result_countedAdvanceToBlock (s : DevnetState) (epoch : UInt64) :
    (countedAdvanceToBlock s epoch).result = advanceToBlock s epoch := by
  have hbefore : (countedAdvanceBeforeBlock s epoch).result = advanceBeforeBlock s epoch := by
    unfold countedAdvanceBeforeBlock advanceBeforeBlock
    by_cases hepoch : 0 < epoch
    · rw [if_pos hepoch, if_pos hepoch, result_countedAdvanceEmptyEpochs]
    · rw [if_neg hepoch, if_neg hepoch]
      rfl
  rw [countedAdvanceToBlock, Counted.result_bind, hbefore]
  rfl

/-- Without the count, counted validation is validation. -/
theorem result_countedValidate (s : DevnetState) (header : HeaderV1) (txs : List TransactionV1)
    (operations : List ProtocolOperationV1) :
    (countedValidate s header txs operations).result =
      validateAndApplyBlock s header txs operations := by
  unfold countedValidate validateAndApplyBlock
  rw [Counted.result_bind]
  refine bind_congr fun runtime => ?_
  rw [Counted.result_bind]
  refine bind_congr fun _ => ?_
  by_cases hboot : isBootstrapBlock s operations = true
  · rw [if_pos hboot, if_pos hboot]
    rfl
  · rw [if_neg hboot, if_neg hboot, Counted.result_bind]
    refine bind_congr fun _ => ?_
    rw [Counted.result_bind, result_countedAdvanceToBlock]
    rfl

/-! ## Counting -/

omit [Crypto] in
theorem steps_countedEmptyEpochs_le (n : Nat) (s : DevnetState) :
    (countedEmptyEpochs n s).steps ≤ n := by
  induction n generalizing s with
  | zero => exact le_rfl
  | succ n ih =>
    rw [countedEmptyEpochs, Nat.add_comm n 1]
    exact Counted.steps_bind_le le_rfl fun s' _ => ih s'

variable {s : DevnetState}

omit [Crypto] in
/-- A loop that does not fail runs to its end. -/
theorem steps_countedEmptyEpochs {n : Nat} {s' : DevnetState} (h : emptyEpochs n s = .ok s') :
    (countedEmptyEpochs n s).steps = n := by
  induction n generalizing s with
  | zero => rfl
  | succ n ih =>
    rw [emptyEpochs, bind_eq_ok] at h
    rcases h with ⟨s₁, hfirst, hrest⟩
    rw [countedEmptyEpochs, Counted.steps_bind_of_ok (x := .step (emptyEpoch s)) hfirst, ih hrest]
    exact Nat.add_comm 1 n

/-- The iterations before the state is at the epoch of a header. -/
theorem steps_countedAdvanceToBlock (s : DevnetState) (epoch : UInt64) :
    (countedAdvanceToBlock s epoch).steps =
      (countedEmptyEpochs (epoch.toNat - 1 - s.tipEpoch.toNat) s).steps := by
  rw [countedAdvanceToBlock, Counted.steps_bind_free, countedAdvanceBeforeBlock]
  by_cases hepoch : 0 < epoch
  · have hpos := UInt64.lt_iff_toNat_lt.mp hepoch
    have hbefore : (epoch - 1).toNat = epoch.toNat - 1 := by
      have hone : (1 : UInt64) ≤ epoch := by
        rw [UInt64.le_iff_toNat_le]
        exact hpos
      rw [UInt64.toNat_sub_of_le _ _ hone]
      rfl
    rw [if_pos hepoch, countedAdvanceEmptyEpochs]
    by_cases hreached : epoch - 1 ≤ s.tipEpoch
    · have hle := UInt64.le_iff_toNat_le.mp hreached
      rw [hbefore] at hle
      rw [if_pos hreached, Nat.sub_eq_zero_of_le hle]
      rfl
    · rw [if_neg hreached, Counted.steps_bind_free, hbefore]
  · have hzero : epoch.toNat = 0 := by
      rw [UInt64.not_lt] at hepoch
      exact Nat.le_zero.mp (UInt64.le_iff_toNat_le.mp hepoch)
    have hnone : 0 - 1 - s.tipEpoch.toNat = 0 := by omega
    rw [if_neg hepoch, hzero, hnone]
    rfl

/-- A block reaches the loop: it passes the checks that validation makes before. -/
def ReachesLoop (s : DevnetState) (header : HeaderV1) (operations : List ProtocolOperationV1) :
    Prop :=
  (∃ runtime, runtimeForState s = .ok runtime ∧ ¬ (runtime = .mainnet ∧ s.height = 0)) ∧
    isBootstrapBlock s operations = false ∧ checkHeaderPlace s header.core = .ok ()

variable {operations : List ProtocolOperationV1} {header : HeaderV1}

theorem steps_countedValidate (txs : List TransactionV1) (h : ReachesLoop s header operations) :
    (countedValidate s header txs operations).steps =
      (countedEmptyEpochs (header.core.epoch.toNat - 1 - s.tipEpoch.toNat) s).steps := by
  rcases h with ⟨⟨runtime, hruntime, hstarted⟩, hboot, hplace⟩
  rw [countedValidate, Counted.steps_free_bind_of_ok hruntime,
    Counted.steps_free_bind_of_ok (reject_of_not hstarted), if_neg (by simp [hboot]),
    Counted.steps_free_bind_of_ok hplace, Counted.steps_bind_free, steps_countedAdvanceToBlock]

theorem steps_countedValidate_of_not (txs : List TransactionV1)
    (h : ¬ ReachesLoop s header operations) :
    (countedValidate s header txs operations).steps = 0 := by
  rw [countedValidate]
  cases hruntime : runtimeForState s with
  | error e => exact Counted.steps_free_bind_of_error rfl _
  | ok runtime =>
    rw [Counted.steps_free_bind_of_ok rfl]
    by_cases hstarted : runtime = .mainnet ∧ s.height = 0
    · exact Counted.steps_free_bind_of_error (reject_of hstarted) _
    rw [Counted.steps_free_bind_of_ok (reject_of_not hstarted)]
    by_cases hboot : isBootstrapBlock s operations = true
    · rw [if_pos hboot]
      rfl
    rw [if_neg hboot]
    cases hplace : checkHeaderPlace s header.core with
    | error e => exact Counted.steps_free_bind_of_error rfl _
    | ok _ =>
      rw [Bool.not_eq_true] at hboot
      exact absurd ⟨⟨runtime, hruntime, hstarted⟩, hboot, hplace⟩ h

end Validation

/-! ## States of a chain -/

/-- What keeps scheduled transitions from failing. -/
structure Steady (s : DevnetState) : Prop where
  punishment : PunishmentSound s
  dividends : DividendSound s
  difficulty : s.difficultyCorrectionQ32 ≤ difficultyCMaxQ32

/-- The difficulty correction stays in its range. -/
theorem exists_appendHistoryValues {h : DifficultyHistory} (success : Bool)
    (hcorrection : h.correction ≤ difficultyCMaxQ32) :
    ∃ h', appendHistoryValues h success = .ok h' ∧ h'.correction ≤ difficultyCMaxQ32 := by
  have hbound := UInt64.le_iff_toNat_le.mp hcorrection
  have hmax : difficultyCMaxQ32.toNat = 2 ^ 48 := rfl
  have hharder : difficultyHarderStepQ32.toNat = 4248701965 := rfl
  have hsmall : difficultyEasierStepQ32.toNat ≤ 2 ^ 33 ∧ difficultyHarderStepQ32.toNat ≤ 2 ^ 33 := by
    decide
  rcases exists_correctionStep (hmax ▸ hbound) hsmall.1 with ⟨easier, heasierStep, -⟩
  rcases exists_correctionStep (hmax ▸ hbound) hsmall.2 with ⟨harder, hharderStep, hvalue⟩
  have hlower : harder ≤ difficultyCMaxQ32 := by
    rw [UInt64.le_iff_toNat_le, hvalue, hmax, hharder]
    omega
  simp only [appendHistoryValues, heasierStep, hharderStep, ok_bind]
  generalize (if h.count < 64 then _ else _ : UInt8 × UInt64) = pair
  by_cases heasy : 64 * countOnes pair.2 < 40 * pair.1.toNat
  · rw [if_pos heasy]
    exact ⟨_, rfl, Std.min_le_right⟩
  rw [if_neg heasy]
  by_cases hhard : 41 * pair.1.toNat < 64 * countOnes pair.2
  · rw [if_pos hhard]
    refine ⟨_, rfl, ?_⟩
    change (if harder ≤ difficultyCMinQ32 then difficultyCMinQ32 else harder) ≤ difficultyCMaxQ32
    by_cases hmin : harder ≤ difficultyCMinQ32
    · rw [if_pos hmin]
      decide
    · rw [if_neg hmin]
      exact hlower
  · rw [if_neg hhard]
    exact ⟨_, rfl, hcorrection⟩

namespace Steady

variable {s : DevnetState}

/-- Scheduled transitions at a later epoch do not fail. -/
theorem scheduled (hs : Steady s) {epoch : UInt64} (hlater : s.tipEpoch < epoch) :
    ∃ s', applyScheduledLicenseTransitions s epoch = .ok s' := by
  rcases hs.punishment.expireEvents epoch with ⟨s₁, hexpire⟩
  rw [applyScheduledLicenseTransitions, hexpire, ok_bind, Punishment.expireEvents_frame hexpire]
  exact hs.dividends.processEpoch (Or.inl hlater) _ _

/-- An epoch without a block does not fail. -/
theorem emptyEpoch (hs : Steady s) (hroom : s.tipEpoch.toNat + 1 < 2 ^ 64) :
    ∃ s', Mutiny.emptyEpoch s = .ok s' ∧ Steady s' := by
  have hlater := UInt64.lt_add_one_of_lt hroom
  rcases hs.scheduled hlater with ⟨s₂, hscheduled⟩
  have hmoved := (blind_setTip (s.tipEpoch + 1)).applyScheduledLicenseTransitions s (s.tipEpoch + 1)
  rw [hscheduled] at hmoved
  have hhistory : s₂.difficultyCorrectionQ32 = s.difficultyCorrectionQ32 := by
    rw [applyScheduledLicenseTransitions_frame hscheduled]
    rfl
  have hcorrection : s₂.difficultyCorrectionQ32 ≤ difficultyCMaxQ32 := by
    rw [hhistory]
    exact hs.difficulty
  have hresult : ∃ s', Mutiny.emptyEpoch s = .ok s' ∧
      s'.difficultyCorrectionQ32 ≤ difficultyCMaxQ32 := by
    rw [Mutiny.emptyEpoch, hmoved, Except.map, ok_bind]
    by_cases henabled : difficultyObservationEnabled { s₂ with tipEpoch := s.tipEpoch + 1 }
        (s.tipEpoch + 1) = true
    · rw [if_pos henabled]
      rcases exists_appendHistoryValues (h := { s₂ with tipEpoch := s.tipEpoch + 1 }.difficultyHistory)
        false hcorrection with ⟨history, happend, hrange⟩
      rw [appendDifficultyResult, happend]
      exact ⟨_, rfl, hrange⟩
    · rw [if_neg henabled]
      exact ⟨_, rfl, hcorrection⟩
  rcases hresult with ⟨s', hepoch, hrange⟩
  exact ⟨s', hepoch, (hs.punishment.emptyEpoch hepoch).sound, hs.dividends.emptyEpoch hepoch hroom,
    hrange⟩

/-- The loop over empty epochs runs to its end. -/
theorem emptyEpochs (hs : Steady s) {n : Nat} (hroom : s.tipEpoch.toNat + n < 2 ^ 64) :
    ∃ s', Mutiny.emptyEpochs n s = .ok s' := by
  induction n generalizing s with
  | zero => exact ⟨s, rfl⟩
  | succ n ih =>
    rcases hs.emptyEpoch (by omega) with ⟨s₁, hfirst, hs₁⟩
    have htip : s₁.tipEpoch.toNat = s.tipEpoch.toNat + 1 := by
      rw [(emptyEpoch_frame hfirst).2, UInt64.toNat_add_one (by omega)]
    rcases ih hs₁ (by omega) with ⟨s', hrest⟩
    exact ⟨s', by rw [Mutiny.emptyEpochs, hfirst, ok_bind, hrest]⟩

end Steady

/-! ## Blocks that nobody signed -/

section Rejection

variable [Crypto]

/-- No registered licence signed the header with its mining key. -/
def Unauthenticated (s : DevnetState) (header : HeaderV1) : Prop :=
  ∀ l ∈ s.licenses, Crypto.verifyStrict l.miningPublicKey
    (Bytes.b32 (blockSigningDigest header.core)) header.signature = false

variable {operations : List ProtocolOperationV1} {header : HeaderV1}

/-- The work of a block is signed by a licence of the registry. -/
theorem checkWork_signed {next : DevnetState} {license : LicenseState}
    (h : checkWork next header operations = .ok license) :
    license ∈ next.licenses ∧ Crypto.verifyStrict license.miningPublicKey
      (Bytes.b32 (blockSigningDigest header.core)) header.signature = true := by
  simp only [checkWork, ok_rules, Bool.not_eq_false] at h
  rcases h with ⟨_, hfind, _, -, _, -, _, -, _, -, _, -, _, -, _, -, _, -, _, -, _, hsigned, rfl⟩
  exact ⟨List.mem_of_find?_eq_some hfind, hsigned⟩

/-- A block that nobody signed is rejected, unless it is the one of the bootstrap. -/
theorem Unauthenticated.rejected {s : DevnetState} {txs : List TransactionV1}
    (h : Unauthenticated s header) (hnot : ∀ made, ¬ MadeByBootstrap s header txs operations made) :
    ∃ e, validateAndApplyBlock s header txs operations = .error e := by
  cases hresult : validateAndApplyBlock s header txs operations with
  | error e => exact ⟨e, rfl⟩
  | ok s' =>
    rcases validateAndApplyBlock_cases hresult with
      ⟨-, hfirst⟩ | ⟨-, _, _, next, license, _, -, hblock, -⟩
    · rcases validateAndApplyDevnetBlock1_eq_ok.mp hfirst with ⟨made, hmade, -⟩
      exact absurd hmade (hnot made)
    · rcases checkWork_signed hblock.work with ⟨hmem, hsigned⟩
      -- advancing to the epoch of the header keeps the mining keys
      have hkeys := keyTable_advanceToBlock hblock.advanced
      have hlisted : (license.licenseIdText, license.record.historicalKeys) ∈ next.keyTable :=
        List.mem_map_of_mem hmem
      rw [hkeys] at hlisted
      rcases List.mem_map.mp hlisted with ⟨l, hl, heq⟩
      have hkey : l.miningPublicKey = license.miningPublicKey :=
        congrArg (fun k => k.2.miningPublicKey) heq
      have hunsigned := h l hl
      rw [hkey, hsigned] at hunsigned
      cases hunsigned

/-- How many iterations it takes to reject a block that nobody signed.  At most the given
bound if the block fails an earlier check or takes the route of the bootstrap, or if its
epoch is no more than that far ahead; on a steady state only then. -/
theorem rejection_cost (s : DevnetState) (header : HeaderV1) (txs : List TransactionV1)
    (operations : List ProtocolOperationV1) (hheader : Unauthenticated s header) :
    (countedValidate s header txs operations).result =
        validateAndApplyBlock s header txs operations ∧
      ((∀ made, ¬ MadeByBootstrap s header txs operations made) →
        ∃ e, validateAndApplyBlock s header txs operations = .error e) ∧
      ∀ bound : Nat,
        (¬ ReachesLoop s header operations ∨ header.core.epoch.toNat ≤ s.tipEpoch.toNat + 1 + bound →
            (countedValidate s header txs operations).steps ≤ bound) ∧
          (Steady s →
            ((countedValidate s header txs operations).steps ≤ bound ↔
              ¬ ReachesLoop s header operations ∨
                header.core.epoch.toNat ≤ s.tipEpoch.toNat + 1 + bound)) := by
  have hsufficient : ∀ bound : Nat,
      ¬ ReachesLoop s header operations ∨ header.core.epoch.toNat ≤ s.tipEpoch.toNat + 1 + bound →
        (countedValidate s header txs operations).steps ≤ bound := by
    intro bound hcondition
    by_cases hreaches : ReachesLoop s header operations
    · rcases hcondition with hnot | hepoch
      · exact absurd hreaches hnot
      · rw [steps_countedValidate txs hreaches]
        exact (steps_countedEmptyEpochs_le _ s).trans (by omega)
    · rw [steps_countedValidate_of_not txs hreaches]
      exact Nat.zero_le bound
  refine ⟨result_countedValidate s header txs operations, hheader.rejected,
    fun bound => ⟨hsufficient bound, fun hs => ⟨fun hsteps => ?_, hsufficient bound⟩⟩⟩
  by_cases hreaches : ReachesLoop s header operations
  · right
    have hlt := header.core.epoch.toNat_lt
    have htip := s.tipEpoch.toNat_lt
    rcases hs.emptyEpochs (n := header.core.epoch.toNat - 1 - s.tipEpoch.toNat) (by omega) with
      ⟨s', hepochs⟩
    rw [steps_countedValidate txs hreaches, steps_countedEmptyEpochs hepochs] at hsteps
    omega
  · exact Or.inl hreaches

end Rejection

section Evaluation

attribute [local instance] sampleCrypto

/-- A Devnet node before its first block, with one licence in its registry. -/
def unstartedState : DevnetState :=
  emptyState 10 devnetNetworkId devnetFixedGenesisTimeMs devnetGenesisId [sampleLicense]

/-- A header at a given epoch over the genesis that names the licence, with a signature
that is not the licence's. -/
def forgedHeader (epoch : UInt64) : HeaderV1 where
  core :=
    { version := 1, networkId := devnetNetworkId, epoch := epoch, parentHash := devnetGenesisId
      transactionRoot := 0, stateRoot := 0, target := 0, licenseId := sampleLicense.licenseId
      ticketIndex := 0, argon2Proof := 0 }
  signature := 1

theorem steady_unstartedState : Steady unstartedState where
  punishment := PunishmentSound.start (by decide +kernel) rfl (by decide)
  dividends :=
    { reserve := by decide, distinct := by decide, valid := by simp [unstartedState, emptyState],
      past := by simp [unstartedState, emptyState], registry := by decide, size := by decide,
      fits := by decide, backed := by decide, fresh := fun _ => ⟨rfl, rfl⟩ }
  difficulty := by decide

theorem unauthenticated_forgedHeader (epoch : UInt64) :
    Unauthenticated unstartedState (forgedHeader epoch) := by
  intro l hl
  rw [List.mem_singleton.mp hl]
  exact beq_false_of_ne (by simp : (1 : Bytes64) ≠ 0)

/-- The bootstrap starts from an empty registry, so it makes no block on this state. -/
theorem forgedHeader_not_made (epoch : UInt64) (made : BootstrapTransition) :
    ¬ MadeByBootstrap unstartedState (forgedHeader epoch) [] [] made := by
  intro hmade
  rcases bootstrapStep_of_ok (validateAndApplyDevnetBlock1_eq_ok.mpr ⟨made, hmade, rfl⟩) with
    ⟨fixture, hstep⟩
  exact absurd hstep.licenses (List.cons_ne_nil _ _)

theorem reachesLoop_forgedHeader {epoch : UInt64}
    (hplace : checkHeaderPlace unstartedState (forgedHeader epoch).core = .ok ()) :
    ReachesLoop unstartedState (forgedHeader epoch) [] :=
  ⟨⟨.devnet, by decide, by decide⟩, rfl, hplace⟩

/-- A header a thousand epochs ahead costs 999 iterations and no fewer. -/
theorem rejection_cost_near :
    (∃ e, validateAndApplyBlock unstartedState (forgedHeader 1000) [] [] = .error e) ∧
      (countedValidate unstartedState (forgedHeader 1000) [] []).steps ≤ 999 ∧
      ¬ (countedValidate unstartedState (forgedHeader 1000) [] []).steps ≤ 998 := by
  rcases rejection_cost unstartedState (forgedHeader 1000) [] []
    (unauthenticated_forgedHeader 1000) with ⟨-, hrejected, hcost⟩
  refine ⟨hrejected (forgedHeader_not_made 1000), (hcost 999).1 (Or.inr (by decide)), ?_⟩
  rw [(hcost 998).2 steady_unstartedState, not_or, not_not]
  exact ⟨reachesLoop_forgedHeader (by decide), by decide⟩

/-- The last epoch of 64 bits. -/
def lastEpoch : UInt64 := 18446744073709551615

/-- A header at the last epoch that the licence did not sign makes a node run its loop
through all epochs there are. -/
theorem last_epoch_runs_loop :
    Unauthenticated unstartedState (forgedHeader lastEpoch) ∧
      (∃ e, validateAndApplyBlock unstartedState (forgedHeader lastEpoch) [] [] = .error e) ∧
      (countedValidate unstartedState (forgedHeader lastEpoch) [] []).steps = 2 ^ 64 - 2 := by
  have hunsigned := unauthenticated_forgedHeader lastEpoch
  refine ⟨hunsigned, hunsigned.rejected (forgedHeader_not_made lastEpoch), ?_⟩
  have hcount : (forgedHeader lastEpoch).core.epoch.toNat - 1 - unstartedState.tipEpoch.toNat =
      2 ^ 64 - 2 := by decide
  have htip : unstartedState.tipEpoch.toNat = 0 := rfl
  rcases steady_unstartedState.emptyEpochs (n := 2 ^ 64 - 2) (by omega) with ⟨s', hepochs⟩
  rw [steps_countedValidate [] (reachesLoop_forgedHeader (by decide)), hcount,
    steps_countedEmptyEpochs hepochs]

end Evaluation

end Mutiny
