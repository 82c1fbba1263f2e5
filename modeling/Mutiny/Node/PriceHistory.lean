import Mutiny.Node.ChainTrace
import Mutiny.Node.Supply

/-!
# The price of a licence in bitcoin

The price at a payment epoch depends on how many licences were issued before that epoch.
Licences are only ever appended to the registry, at the epoch of the block that issues
them, and later blocks have later epochs; so once an epoch has passed its price is fixed,
and inside a block the price of every epoch up to the block's own stays the same.

Main result:

- Theorem {lit}`btc_price_fixed_once_passed`: the price of a past epoch does not change.
-/

namespace Mutiny

open Result Lists

open BitcoinPurchase

/-! ## What the price depends on -/

/-- The epochs the licences of a state were issued in, in the order of the registry. -/
def DevnetState.issuedEpochs (s : DevnetState) : List UInt64 :=
  s.licenses.map (·.issuedEpoch)

theorem historicalLicenseCount_eq (s : DevnetState) (paymentEpoch : UInt64) :
    historicalLicenseCount s paymentEpoch =
      UInt64.ofNat (s.issuedEpochs.countP fun e => decide (e < paymentEpoch)) := by
  rw [historicalLicenseCount, DevnetState.issuedEpochs, List.countP_map]
  rfl

variable {s s' : DevnetState}

theorem issuedEpochs_updateFirst {p : LicenseState → Bool} {f : LicenseState → LicenseState}
    (hlicenses : s'.licenses = updateFirst p f s.licenses)
    (hf : ∀ l, (f l).issuedEpoch = l.issuedEpoch) : s'.issuedEpochs = s.issuedEpochs := by
  rw [DevnetState.issuedEpochs, DevnetState.issuedEpochs, hlicenses]
  exact map_key_updateFirst hf s.licenses

/-- The price of a payment epoch is the same in two states, and so is the epoch a
payment counts for. -/
structure SamePrice (paymentEpoch : UInt64) (s s' : DevnetState) : Prop where
  count : historicalLicenseCount s' paymentEpoch = historicalLicenseCount s paymentEpoch
  required : ∀ n, requiredSats s' paymentEpoch n = requiredSats s paymentEpoch n
  counted : ∀ paymentMtp, paymentEpochFromMtp s' paymentMtp = paymentEpochFromMtp s paymentMtp

theorem SamePrice.of_count {paymentEpoch : UInt64}
    (hcount : historicalLicenseCount s' paymentEpoch = historicalLicenseCount s paymentEpoch)
    (hgenesis : s'.genesisTimeMs = s.genesisTimeMs) : SamePrice paymentEpoch s s' := by
  refine ⟨hcount, ?_, ?_⟩
  · intro n
    rw [requiredSats, requiredSats, hcount]
  · intro paymentMtp
    rw [paymentEpochFromMtp, paymentEpochFromMtp, hgenesis]

/-- Licences are appended to the registry, none of them issued before an epoch. -/
structure IssuesFrom (epoch : UInt64) (s s' : DevnetState) : Prop where
  appended : ∃ added, s'.issuedEpochs = s.issuedEpochs ++ added ∧ ∀ e ∈ added, epoch ≤ e
  genesis : s'.genesisTimeMs = s.genesisTimeMs

variable {epoch : UInt64}

theorem IssuesFrom.of_same (hissued : s'.issuedEpochs = s.issuedEpochs)
    (hgenesis : s'.genesisTimeMs = s.genesisTimeMs) :
    IssuesFrom epoch s s' :=
  ⟨⟨[], by rw [hissued, List.append_nil], by simp⟩, hgenesis⟩

theorem IssuesFrom.refl (epoch : UInt64) (s : DevnetState) : IssuesFrom epoch s s :=
  .of_same rfl rfl

theorem IssuesFrom.trans {s₁ : DevnetState} (h : IssuesFrom epoch s s₁)
    (h' : IssuesFrom epoch s₁ s') : IssuesFrom epoch s s' := by
  rcases h.appended with ⟨added, hadded, hfrom⟩
  rcases h'.appended with ⟨added', hadded', hfrom'⟩
  refine ⟨⟨added ++ added', by rw [hadded', hadded, List.append_assoc], ?_⟩,
    h'.genesis.trans h.genesis⟩
  intro e he
  rcases List.mem_append.mp he with he | he
  · exact hfrom e he
  · exact hfrom' e he

theorem IssuesFrom.mono {epoch' : UInt64} (hle : epoch ≤ epoch') (h : IssuesFrom epoch' s s') :
    IssuesFrom epoch s s' := by
  rcases h.appended with ⟨added, hadded, hfrom⟩
  exact ⟨⟨added, hadded, fun e he => UInt64.le_trans hle (hfrom e he)⟩, h.genesis⟩

/-- Licences issued from an epoch on leave the price of that epoch and of every earlier one as it
was. -/
theorem IssuesFrom.samePrice {paymentEpoch : UInt64} (h : IssuesFrom epoch s s')
    (hle : paymentEpoch ≤ epoch) : SamePrice paymentEpoch s s' := by
  rcases h.appended with ⟨added, hadded, hfrom⟩
  -- none of the new licences was issued before the payment epoch
  have hnone : added.countP (fun e => decide (e < paymentEpoch)) = 0 := by
    rw [List.countP_eq_zero]
    intro e he
    rw [decide_eq_true_eq, UInt64.not_lt]
    exact UInt64.le_trans hle (hfrom e he)
  refine .of_count ?_ h.genesis
  rw [historicalLicenseCount_eq, historicalLicenseCount_eq, hadded, List.countP_append, hnone,
    Nat.add_zero]

/-! ## Empty epochs -/

theorem issuedEpochs_scheduled (h : applyScheduledLicenseTransitions s epoch = .ok s') :
    s'.issuedEpochs = s.issuedEpochs := by
  rcases applyScheduledLicenseTransitions_parts h with ⟨weights, reserved, -, hlicenses, -⟩
  rw [DevnetState.issuedEpochs, DevnetState.issuedEpochs, hlicenses, List.map_map]
  apply List.map_congr_left
  intro l _
  rw [Function.comp_apply, Punishment.scheduledLicense_frame]

section Blocks

variable [Crypto] {s s' : DevnetState} {throughEpoch : UInt64}

theorem issuedEpochs_advanceEmptyEpochs (h : advanceEmptyEpochs s throughEpoch = .ok s') :
    s'.issuedEpochs = s.issuedEpochs := by
  refine (advanceEmptyEpochs_invariant (P := fun t => t.issuedEpochs = s.issuedEpochs) ?_
    (fun _ _ ht => ht) rfl h).1
  intro t t' ht _ hepoch
  rcases emptyEpoch_scheduled hepoch with ⟨t₂, hscheduled, ht'⟩
  rw [← ht, ← issuedEpochs_scheduled hscheduled, ht']
  rfl

variable {epoch : UInt64}

theorem issuedEpochs_advanceToBlock {next : DevnetState} (h : advanceToBlock s epoch = .ok next) :
    next.issuedEpochs = s.issuedEpochs := by
  rcases advanceToBlock_parts h with ⟨_, s₁, hbefore, -, hscheduled⟩
  rw [issuedEpochs_scheduled hscheduled, issuedEpochs_advanceEmptyEpochs hbefore]

/-! ## Blocks -/

variable {txs : List TransactionV1}

/-- Only a purchase issues licences, at the epoch of the block. -/
theorem OperationStep.issuesFrom {op : ProtocolOperationV1} (h : OperationStep txs epoch s op s') :
    IssuesFrom epoch s s' := by
  cases h with
  | headers htype h =>
    rcases licenses_headers h with ⟨headers, best, rfl⟩
    exact .of_same rfl rfl
  | purchase htype h =>
    rcases h.result with ⟨issued, native, bitcoin, hissued, -, -, rfl⟩
    refine ⟨⟨issued.map LicenseState.issuedEpoch, List.map_append, ?_⟩, rfl⟩
    intro e he
    rcases List.mem_map.mp he with ⟨l, hl, rfl⟩
    rw [(hissued l hl).issued]
    exact UInt64.le_refl epoch
  | transfer t old new h =>
    rw [h.result]
    exact .of_same (issuedEpochs_updateFirst (f := (·.withKeys new)) rfl fun _ => rfl) rfl
  | rotation r old new h =>
    rw [h.result]
    exact .of_same (issuedEpochs_updateFirst (f := (·.withKeys new)) rfl fun _ => rfl) rfl
  | evidence e old event record h =>
    rw [h.result]
    exact .of_same (issuedEpochs_updateFirst (f := Punishment.setOffenseFields record) rfl
      fun _ => rfl) rfl
  | claim c license account reserved h =>
    rw [h.result]
    exact .of_same rfl rfl
  | presence htype h =>
    rcases presence_eq_ok h with ⟨presences, rfl⟩
    exact .of_same rfl rfl

variable {operations : List ProtocolOperationV1}

/-- The state after every prefix of a block's operations. -/
theorem issuesFrom_of_operations {run run' : OperationRun}
    (h : operations.foldlM (applyProtocolOperation txs epoch) run = .ok run')
    (hknown : run.KnowsLicenses) :
    IssuesFrom epoch run.state run'.state ∧
      ∀ v ∈ operationStates txs epoch run operations, IssuesFrom epoch run.state v := by
  induction operations generalizing run with
  | nil =>
    rw [List.foldlM_nil, pure_eq_ok] at h
    rw [← h]
    exact ⟨.refl _ _, by simp [operationStates]⟩
  | cons op operations ih =>
    rw [List.foldlM_cons, bind_eq_ok] at h
    rcases h with ⟨run₁, hhead, htail⟩
    rcases operationStep_of_ok hknown hhead with ⟨hstep, hknown₁⟩
    rcases ih htail hknown₁ with ⟨hend, hinside⟩
    refine ⟨hstep.issuesFrom.trans hend, ?_⟩
    intro v hv
    simp only [operationStates, hhead, List.mem_cons] at hv
    rcases hv with rfl | hv
    · exact hstep.issuesFrom
    · exact hstep.issuesFrom.trans (hinside v hv)

variable {header : HeaderV1}

/-- The licences of the bootstrap block, the first ones of a chain, are issued at its
epoch. -/
theorem BootstrapStep.issuesFrom {fixture : DevnetBootstrapFixtureV1}
    (h : BootstrapStep s header fixture s') : IssuesFrom header.core.epoch s s' := by
  refine ⟨⟨(bootstrapLicenses fixture).map LicenseState.issuedEpoch, ?_, ?_⟩, h.genesisTime⟩
  · rw [DevnetState.issuedEpochs, DevnetState.issuedEpochs, h.licenses', h.licenses, List.map_nil,
      List.nil_append]
  · intro e he
    rcases List.mem_map.mp he with ⟨l, hl, rfl⟩
    rcases List.mem_map.mp hl with ⟨entry, -, rfl⟩
    rw [h.epoch]
    exact UInt64.le_refl fixture.issuedEpoch

/-- A block issues licences at its own epoch only, in every state it goes through. -/
theorem issuesFrom_of_block (h : validateAndApplyBlock s header txs operations = .ok s') :
    ∀ v ∈ blockStates s header txs operations ++ [s'], IssuesFrom header.core.epoch s v := by
  rcases validateAndApplyBlock_cases h with
    ⟨hboot, hfirst⟩ | ⟨hboot, coinbase, ordinary, next, license, b, rfl, hb, rfl⟩
  · rw [blockStates, if_pos hboot, List.nil_append]
    intro v hv
    rw [List.mem_singleton.mp hv]
    rcases bootstrapStep_of_ok hfirst with ⟨fixture, hstep⟩
    exact hstep.issuesFrom
  · let parent := { next with tipEpoch := header.core.epoch }
    have hissued : next.issuedEpochs = s.issuedEpochs := issuedEpochs_advanceToBlock hb.advanced
    have hgenesis : next.genesisTimeMs = s.genesisTimeMs := by
      rw [advanceToBlock_frame hb.advanced]
      rfl
    have hparent : IssuesFrom header.core.epoch s parent := .of_same hissued hgenesis
    have happlied := hb.body.applied
    simp only [applyProtocolOperations, ok_rules] at happlied
    rcases happlied with ⟨_, -, applied, happlied, _, -, hpost⟩
    have hstarted : operations.foldlM (applyProtocolOperation (coinbase :: ordinary)
        header.core.epoch) (.start parent) = .ok applied := happlied
    rcases issuesFrom_of_operations hstarted (fun l hl => List.mem_map_of_mem hl) with
      ⟨hend, hinside⟩
    rw [blockStates, hboot, if_neg Bool.false_ne_true, hb.advanced]
    intro v hv
    rcases List.mem_append.mp hv with hv | hv
    · rcases List.mem_cons.mp hv with rfl | hv
      · exact hparent
      · exact hparent.trans (hinside v hv)
    · rw [List.mem_singleton.mp hv]
      -- the commit of the block leaves the registry as the operations left it
      refine hparent.trans (hend.trans (.of_same ?_ ?_)) <;>
        · rw [BodyValues.result, ← hpost]
          rfl

/-! ## Runs -/

/-- A chain has at most one block an epoch, and before its first block no epoch has
passed. -/
structure Begun (s : DevnetState) : Prop where
  height : s.height.toNat ≤ s.tipEpoch.toNat
  first : s.height = 0 → s.tipEpoch = 0

/-- A run of a node's chain: accepted blocks and, once there is a block, empty epochs. -/
inductive NodeRun (s₀ : DevnetState) : DevnetState → Prop
  | start : NodeRun s₀ s₀
  | block {s s' : DevnetState} {header : HeaderV1} {txs : List TransactionV1}
      {operations : List ProtocolOperationV1} (run : NodeRun s₀ s)
      (h : validateAndApplyBlock s header txs operations = .ok s') : NodeRun s₀ s'
  | empty {s s' : DevnetState} {throughEpoch : UInt64} (run : NodeRun s₀ s)
      (hblock : s.height ≠ 0) (h : advanceEmptyEpochs s throughEpoch = .ok s') : NodeRun s₀ s'

/-- A block is above the tip and becomes the tip. -/
theorem Begun.block (hs : Begun s) (h : validateAndApplyBlock s header txs operations = .ok s') :
    Begun s' ∧ s'.height ≠ 0 ∧ s.tipEpoch ≤ header.core.epoch ∧
      s'.tipEpoch = header.core.epoch := by
  rcases validateAndApplyBlock_cases h with
    ⟨hboot, hfirst⟩ | ⟨hboot, coinbase, ordinary, next, license, b, rfl, hb, rfl⟩
  · rcases bootstrapStep_of_ok hfirst with ⟨fixture, hstep⟩
    have htip : s'.tipEpoch = header.core.epoch := hstep.tipEpoch'.trans hstep.epoch.symm
    have hblock : s'.height ≠ 0 := by
      rw [hstep.height']
      decide
    refine ⟨⟨?_, fun hzero => absurd hzero hblock⟩, hblock, ?_, htip⟩
    · rw [hstep.height', hstep.tipEpoch_eq]
      decide
    · rw [hstep.tipEpoch]
      exact UInt64.zero_le
  · rcases hb.height_succ hs.height with ⟨hsucc, hle, hblock⟩
    have htip : s.tipEpoch.toNat ≤ header.core.epoch.toNat := by
      by_cases hfirst : s.height = 0
      · rw [hs.first hfirst]
        exact Nat.zero_le _
      · exact ((epoch_of_checkHeaderPlace hb.place).1 hfirst).le
    exact ⟨⟨hsucc ▸ hle, fun hzero => absurd hzero hblock⟩, hblock,
      UInt64.le_iff_toNat_le.mpr htip, rfl⟩

theorem Begun.empty (hs : Begun s) (hblock : s.height ≠ 0)
    (h : advanceEmptyEpochs s throughEpoch = .ok s') :
    Begun s' ∧ s'.height ≠ 0 ∧ s.tipEpoch ≤ s'.tipEpoch := by
  rcases advanceEmptyEpochs_frame h with ⟨hframe, htip⟩
  have hheight : s'.height = s.height := by
    rw [hframe]
    rfl
  have hle : s.tipEpoch.toNat ≤ s'.tipEpoch.toNat := by omega
  have hblock' : s'.height ≠ 0 := by rwa [hheight]
  refine ⟨⟨?_, fun hzero => absurd hzero hblock'⟩, hblock', UInt64.le_iff_toNat_le.mpr hle⟩
  rw [hheight]
  exact hs.height.trans hle

theorem Begun.run (hs : Begun s) (hrun : NodeRun s s') : Begun s' := by
  induction hrun with
  | start => exact hs
  | block _ h ih => exact (ih.block h).1
  | empty _ hblock h ih => exact (ih.empty hblock h).1

theorem issuesFrom_of_empty (h : advanceEmptyEpochs s throughEpoch = .ok s') :
    IssuesFrom epoch s s' := by
  refine .of_same (issuedEpochs_advanceEmptyEpochs h) ?_
  rw [(advanceEmptyEpochs_frame h).1]
  rfl

/-- From a state that has a block, every later licence is issued above its tip. -/
theorem issuesFrom_of_begun (hs : Begun s) (hblock : s.height ≠ 0) (hrun : ChainRun s s') :
    Begun s' ∧ s'.height ≠ 0 ∧ s.tipEpoch ≤ s'.tipEpoch ∧ IssuesFrom s.tipEpoch s s' := by
  induction hrun with
  | refl => exact ⟨hs, hblock, UInt64.le_refl _, .refl _ _⟩
  | tail _ hstep ih =>
    rcases ih with ⟨hbegun, hblock, htip, hissues⟩
    cases hstep with
    | block h =>
      rcases hbegun.block h with ⟨hbegun', hblock', hle, htip'⟩
      have hepoch := UInt64.le_trans htip hle
      have hlast := issuesFrom_of_block h _ (List.mem_append_right _ (List.mem_singleton_self _))
      exact ⟨hbegun', hblock', htip' ▸ hepoch, hissues.trans (hlast.mono hepoch)⟩
    | empty h =>
      rcases hbegun.empty hblock h with ⟨hbegun', hblock', hle⟩
      exact ⟨hbegun', hblock', UInt64.le_trans htip hle, hissues.trans (issuesFrom_of_empty h)⟩

theorem issuesFrom_zero (hrun : ChainRun s s') : IssuesFrom 0 s s' := by
  induction hrun with
  | refl => exact .refl _ _
  | tail _ hstep ih =>
    refine ih.trans ?_
    cases hstep with
    | block h =>
      exact (issuesFrom_of_block h _ (List.mem_append_right _ (List.mem_singleton_self _))).mono
        UInt64.zero_le
    | empty h => exact issuesFrom_of_empty h

/-- From every state of a node's chain on, licences are issued at its tip or later. -/
theorem issuesFrom_of_run (hs : Begun s) (hrun : ChainRun s s') :
    IssuesFrom s.tipEpoch s s' := by
  by_cases hblock : s.height = 0
  · rw [hs.first hblock]
    exact issuesFrom_zero hrun
  · exact (issuesFrom_of_begun hs hblock hrun).2.2.2

/-- In every run of a node's chain, the price of a payment epoch that is not above the
tip is the same in every later state; and the price of a payment epoch that is not above
a block's own is the same in its parent, after every prefix of its operations and at its
end. -/
theorem btc_price_fixed_once_passed {genesis s : DevnetState} (hgenesis : Begun genesis)
    (hrun : NodeRun genesis s) :
    (∀ s', ChainRun s s' → ∀ paymentEpoch ≤ s.tipEpoch, SamePrice paymentEpoch s s') ∧
      ∀ header txs operations s', validateAndApplyBlock s header txs operations = .ok s' →
        ∀ v ∈ blockStates s header txs operations ++ [s'],
          ∀ paymentEpoch ≤ header.core.epoch, SamePrice paymentEpoch s v := by
  constructor
  · intro s' hlater paymentEpoch hpast
    exact (issuesFrom_of_run (hgenesis.run hrun) hlater).samePrice hpast
  · intro header txs operations s' hblock v hv paymentEpoch hpast
    exact (issuesFrom_of_block hblock v hv).samePrice hpast

end Blocks

section Evaluation

attribute [local instance] devnetCrypto

/-- The bootstrap block makes a chain whose epochs up to ten are priced for good. -/
theorem btc_price_fixed_after_bootstrap :
    ∃ genesis s : DevnetState, Begun genesis ∧ NodeRun genesis s ∧ s.tipEpoch = 10 ∧
      ∀ s', ChainRun s s' → ∀ paymentEpoch ≤ (10 : UInt64), SamePrice paymentEpoch s s' := by
  have hcheck : okAnd devnetBootstrapped (fun r =>
      r.1.height == 0 && r.1.tipEpoch == 0 && r.2.tipEpoch == 10) = true := by
    decide +kernel
  rcases exists_of_okAnd hcheck with ⟨⟨genesis, s⟩, hchain, hvalues⟩
  simp only [Bool.and_eq_true, beq_iff_eq] at hvalues
  rcases hvalues with ⟨⟨hheight, hstart⟩, htip⟩
  have hgenesis : Begun genesis := ⟨by rw [hheight, hstart], fun _ => hstart⟩
  simp only [devnetBootstrapped, ok_rules, Prod.mk.injEq] at hchain
  rcases hchain with ⟨_, -, transition, -, _, hblock, rfl, rfl⟩
  have hrun : NodeRun _ _ := .block .start hblock
  refine ⟨_, _, hgenesis, hrun, htip, ?_⟩
  rw [← htip]
  exact (btc_price_fixed_once_passed hgenesis hrun).1

end Evaluation

end Mutiny
