import Mutiny.Node.BlockSteps
import Mathlib.Algebra.BigOperators.Intervals
import Mathlib.Logic.Relation

/-!
# Supply over whole runs

The unspent outputs of a chain add up to what has been issued.  Ordinary
transactions and dividend payments move value and pay fees, the coinbase collects
the fees and the subsidy, and nothing else touches the outputs.  Because epochs
ascend, the issuance of a chain stays below the sum of all subsidies.

Main results:

- Theorem {lit}`supply_conserved`: the invariants of every run of blocks and empty
  epochs.
- Theorem {lit}`bootstrapBlock_issues_nothing`: the bootstrap block is the exception.
-/

namespace Mutiny

open Result

/-- One step of a chain: a block is accepted, or empty epochs pass. -/
inductive ChainStep [Crypto] : DevnetState → DevnetState → Prop
  | block {s s' : DevnetState} {header : HeaderV1} {txs : List TransactionV1}
      {operations : List ProtocolOperationV1}
      (h : validateAndApplyBlock s header txs operations = .ok s') : ChainStep s s'
  | empty {s s' : DevnetState} {throughEpoch : UInt64}
      (h : advanceEmptyEpochs s throughEpoch = .ok s') : ChainStep s s'

/-- A finite sequence of steps. -/
abbrev ChainRun [Crypto] : DevnetState → DevnetState → Prop := Relation.ReflTransGen ChainStep

/-! ## Fees and the coinbase -/

theorem totalFees_splitFees {validated : List ValidatedTx} {totalFees treasuryShare : UInt64}
    (h : splitFees validated = .ok (totalFees, treasuryShare)) :
    totalFees.toNat = feesValue validated := by
  have hloop : ∀ (vs : List ValidatedTx) (acc acc' : UInt64 × UInt64),
      vs.foldlM (fun fees v => do
        let totalFees ← addStrikes "fee overflow" fees.1 v.fee
        let treasuryShare ← addStrikes "treasury fee overflow" fees.2 (v.baseFee / 2)
        .ok (totalFees, treasuryShare)) acc = .ok acc' →
      acc'.1.toNat = acc.1.toNat + feesValue vs := by
    intro vs
    induction vs with
    | nil =>
      intro acc acc' hvs
      rw [List.foldlM_nil, pure_eq_ok] at hvs
      simp [hvs, feesValue]
    | cons v vs ih =>
      intro acc acc' hvs
      rw [List.foldlM_cons, bind_eq_ok] at hvs
      rcases hvs with ⟨acc₁, hhead, htail⟩
      simp only [ok_rules, addStrikes_eq_ok] at hhead
      rcases hhead with ⟨fees, hfees, share, -, rfl⟩
      have hrest := ih _ _ htail
      have hcons : feesValue (v :: vs) = v.fee.toNat + feesValue vs := by simp [feesValue]
      dsimp only at hrest
      omega
  have hsum := hloop validated (0, 0) (totalFees, treasuryShare) h
  simpa using hsum

/-! ## The sum of all subsidies -/

/-- The coins blocks of all epochs before {lit}`n` create together. -/
def issuedBefore (n : Nat) : Nat := ∑ e ∈ Finset.range n, (subsidy (UInt64.ofNat e)).toNat

/-- The coins the blocks of all epochs create together. -/
def totalSubsidy : Nat := issuedBefore (2 ^ 64)

theorem issuedBefore_succ (e : UInt64) :
    issuedBefore (e.toNat + 1) = issuedBefore e.toNat + (subsidy e).toNat := by
  rw [issuedBefore, Finset.sum_range_succ, UInt64.ofNat_toNat, issuedBefore]

theorem issuedBefore_mono {m n : Nat} (h : m ≤ n) : issuedBefore m ≤ issuedBefore n :=
  Finset.sum_le_sum_of_subset (Finset.range_subset_range.mpr h)

/-- The subsidy of an era. -/
def eraSubsidy (era : Nat) : Nat := if 64 ≤ era then 0 else 800000000 / 2 ^ era

theorem toNat_subsidy (e : UInt64) : (subsidy e).toNat = eraSubsidy (e.toNat / 2 ^ 21) := by
  have hera : (e / eraLength).toNat = e.toNat / 2 ^ 21 := by
    rw [UInt64.toNat_div]
    rfl
  unfold subsidy eraSubsidy
  simp only [UInt64.le_iff_toNat_le, hera, UInt64.reduceToNat]
  split
  · rfl
  · rw [UInt64.toNat_shiftRight, hera, Nat.shiftRight_eq_div_pow, Nat.mod_eq_of_lt (by omega)]
    rfl

/-- Every epoch of an era has the same subsidy. -/
theorem issuedBefore_eras (n : Nat) (h : n ≤ 2 ^ 43) :
    issuedBefore (n * 2 ^ 21) = 2 ^ 21 * ∑ era ∈ Finset.range n, eraSubsidy era := by
  induction n with
  | zero => simp [issuedBefore]
  | succ n ih =>
    have hera : ∀ i ∈ Finset.range (2 ^ 21),
        (subsidy (UInt64.ofNat (n * 2 ^ 21 + i))).toNat = eraSubsidy n := by
      intro i hi
      have hi := Finset.mem_range.mp hi
      have hfits : (UInt64.ofNat (n * 2 ^ 21 + i)).toNat = n * 2 ^ 21 + i := by
        rw [UInt64.toNat_ofNat', Nat.mod_eq_of_lt (by omega)]
      rw [toNat_subsidy, hfits]
      congr 1
      omega
    rw [issuedBefore, Nat.succ_mul, Finset.sum_range_add, ← issuedBefore, ih (by omega),
      Finset.sum_const_nat hera, Finset.card_range, Finset.sum_range_succ, Nat.mul_add]

/-- All subsidies together fit in 64 bits, with room to spare. -/
theorem totalSubsidy_lt : totalSubsidy < 2 ^ 52 := by
  have heras : ∑ era ∈ Finset.range (2 ^ 43), eraSubsidy era =
      ∑ era ∈ Finset.range 64, eraSubsidy era := by
    symm
    apply Finset.sum_subset (Finset.range_subset_range.mpr (by omega))
    intro era _ hera
    have hlate : 64 ≤ era := by simpa using hera
    simp [eraSubsidy, hlate]
  have hsum : ∑ era ∈ Finset.range 64, eraSubsidy era < 2 ^ 31 := by decide
  have hepochs : (2 : Nat) ^ 64 = 2 ^ 43 * 2 ^ 21 := by rw [← pow_add]
  rw [totalSubsidy, hepochs, issuedBefore_eras _ le_rfl, heras]
  omega

section Issuance

variable [Crypto]

theorem outputsValue_coinbaseOutputs (networkId : UInt32) (minerAmount treasuryShare : UInt64)
    (paymentAddressId : Bytes32) :
    outputsValue (coinbaseOutputs networkId minerAmount treasuryShare paymentAddressId) =
      minerAmount.toNat + treasuryShare.toNat := by
  unfold coinbaseOutputs
  split
  next => simp [outputsValue]
  next hnone =>
    have hzero : treasuryShare.toNat = 0 := by
      have hle := UInt64.le_iff_toNat_le.mp (UInt64.not_lt.mp hnone)
      simpa using hle
    simp [outputsValue, hzero]

variable {s : DevnetState}

/-- A block adds the subsidy of its epoch to the outputs and to the issuance. -/
theorem supply_of_acceptedBlock {next : DevnetState} {header : HeaderV1} {coinbase : TransactionV1}
    {ordinary : List TransactionV1} {operations : List ProtocolOperationV1} {license : LicenseState}
    {b : BodyValues} (h : AcceptedBlock s header coinbase ordinary operations next license b) :
    utxoSupply b.utxos = utxoSupply s.utxos + (subsidy header.core.epoch).toNat ∧
      b.totalIssued.toNat = s.totalIssuedStrikes.toNat + (subsidy header.core.epoch).toNat ∧
      (b.utxos.map UtxoState.outpoint).Nodup := by
  have hframe := advanceToBlock_frame h.advanced
  have hutxos : next.utxos = s.utxos := by rw [hframe]; rfl
  have htotal : next.totalIssuedStrikes = s.totalIssuedStrikes := by rw [hframe]; rfl
  have hbody := h.body
  have hspends := supply_validateAndApplyList hbody.spends
  have hfees := totalFees_splitFees hbody.fees
  have hissued := UInt64.checkedAdd_eq_some.mp hbody.issued
  have hamount := hbody.amount
  simp only [minerCoinbaseAmount, ok_rules, UInt64.checkedSub_eq_some,
    UInt64.checkedAdd_eq_some] at hamount
  rcases hamount with ⟨minerFees, hminerFees, hamount⟩
  rcases addOutputsAsUtxos_eq_ok.mp hbody.created with ⟨-, hcreated⟩
  have hminted : utxoSupply b.utxos =
      utxoSupply b.spentUtxos + (b.minerAmount.toNat + b.treasuryShare.toNat) := by
    rw [hcreated, utxoSupply_append, utxoSupply_createdUtxos,
      outputs_of_checkCoinbase hbody.minted, outputsValue_coinbaseOutputs]
  refine ⟨?_, by rw [hissued, htotal], ?_⟩
  · rw [hutxos] at hspends
    omega
  · have hroot := hbody.stateRoot
    simp only [computeStateRoot, bind_eq_ok] at hroot
    rcases hroot with ⟨_, hutxoRoot, -⟩
    exact nodup_of_computeUtxoRoot hutxoRoot

/-! ## Steps and runs -/

/-- The outputs add up to the issuance and have distinct outpoints. -/
structure Conserved (s : DevnetState) : Prop where
  supply : utxoSupply s.utxos = s.totalIssuedStrikes.toNat
  distinct : (s.utxos.map UtxoState.outpoint).Nodup

/-- What bounds the issuance: at most one block an epoch up to the tip. -/
structure BoundedIssuance (s : DevnetState) : Prop where
  height : s.height.toNat ≤ s.tipEpoch.toNat
  issued : s.totalIssuedStrikes.toNat ≤ issuedBefore (s.tipEpoch.toNat + 1)
  fresh : s.height = 0 → s.totalIssuedStrikes = 0

variable {s' : DevnetState}

theorem Conserved.step (hs : Conserved s) (h : ChainStep s s') :
    Conserved s' := by
  cases h with
  | block h =>
    rcases validateAndApplyBlock_cases h with
      ⟨-, hboot⟩ | ⟨-, coinbase, ordinary, next, license, b, rfl, hb, rfl⟩
    · rcases bootstrapStep_of_ok hboot with ⟨fixture, hstep⟩
      constructor
      · rw [hstep.utxos', hstep.totalIssued']
        rfl
      · rw [hstep.utxos']
        exact List.nodup_nil
    · rcases supply_of_acceptedBlock hb with ⟨hsupply, hissued, hdistinct⟩
      have hbefore := hs.supply
      exact ⟨hsupply.trans (by rw [hbefore]; exact hissued.symm), hdistinct⟩
  | empty h =>
    rw [(advanceEmptyEpochs_frame h).1]
    exact ⟨hs.supply, hs.distinct⟩

theorem BoundedIssuance.step (hs : BoundedIssuance s) (h : ChainStep s s') :
    BoundedIssuance s' := by
  rcases hs with ⟨hheight, hissued, hfresh⟩
  cases h with
  | block h =>
    rcases validateAndApplyBlock_cases h with
      ⟨-, hboot⟩ | ⟨-, coinbase, ordinary, next, license, b, rfl, hb, rfl⟩
    · rcases bootstrapStep_of_ok hboot with ⟨fixture, hstep⟩
      constructor
      · rw [hstep.height', hstep.tipEpoch_eq]
        decide
      · rw [hstep.totalIssued']
        exact Nat.zero_le _
      · intro _
        exact hstep.totalIssued'
    · rename_i header _
      have htotal := (supply_of_acceptedBlock hb).2.1
      rcases hb.height_succ hheight with ⟨hsucc, hle, hblock⟩
      -- the block is above the tip, or it is the first one and nothing is issued yet
      have hbefore : s.totalIssuedStrikes.toNat ≤ issuedBefore header.core.epoch.toNat := by
        by_cases hfirst : s.height = 0
        · rw [hfresh hfirst]
          exact Nat.zero_le _
        · exact hissued.trans (issuedBefore_mono ((epoch_of_checkHeaderPlace hb.place).1 hfirst))
      refine ⟨hsucc ▸ hle, ?_, fun hzero => absurd hzero hblock⟩
      change b.totalIssued.toNat ≤ issuedBefore (header.core.epoch.toNat + 1)
      rw [issuedBefore_succ]
      omega
  | empty h =>
    rcases advanceEmptyEpochs_frame h with ⟨hframe, htip⟩
    have hmono : issuedBefore (s.tipEpoch.toNat + 1) ≤ issuedBefore (s'.tipEpoch.toNat + 1) :=
      issuedBefore_mono (by omega)
    have hsame : s'.totalIssuedStrikes = s.totalIssuedStrikes ∧ s'.height = s.height := by
      rw [hframe]
      exact ⟨rfl, rfl⟩
    rw [← hsame.1] at hissued hfresh
    rw [← hsame.2] at hheight hfresh
    exact ⟨by omega, hissued.trans hmono, hfresh⟩

theorem Conserved.run (hs : Conserved s) (hrun : ChainRun s s') :
    Conserved s' := by
  induction hrun with
  | refl => exact hs
  | tail _ hstep ih => exact ih.step hstep

theorem BoundedIssuance.run (hs : BoundedIssuance s) (hrun : ChainRun s s') :
    BoundedIssuance s' := by
  induction hrun with
  | refl => exact hs
  | tail _ hstep ih => exact ih.step hstep

/-- Over every run of blocks and empty epochs the outputs add up to the issuance, their
outpoints are distinct, every block but the bootstrap block issues the subsidy of its
epoch and the bootstrap block issues nothing; and a chain that starts with nothing
issued, at a height not above its tip epoch, never issues more than all subsidies
together, which fit in 64 bits. -/
theorem supply_conserved {s s' : DevnetState} (hs : Conserved s) (hrun : ChainRun s s') :
    Conserved s' ∧
      (∀ header txs operations s'', validateAndApplyBlock s' header txs operations = .ok s'' →
        s''.totalIssuedStrikes.toNat = s'.totalIssuedStrikes.toNat +
          if isBootstrapBlock s' operations then 0 else (subsidy header.core.epoch).toNat) ∧
      (s.totalIssuedStrikes = 0 → s.height ≤ s.tipEpoch →
        s'.totalIssuedStrikes.toNat ≤ totalSubsidy) ∧
      totalSubsidy < 2 ^ 64 := by
  have hconserved := hs.run hrun
  refine ⟨hconserved, ?_, ?_, totalSubsidy_lt.trans (by decide)⟩
  · intro header txs operations s'' hblock
    rcases validateAndApplyBlock_cases hblock with
      ⟨hboot, hstep⟩ | ⟨hboot, coinbase, ordinary, next, license, b, rfl, hb, rfl⟩
    · rcases bootstrapStep_of_ok hstep with ⟨fixture, hstep⟩
      have hsupply := hconserved.supply
      rw [hstep.utxos] at hsupply
      rw [hboot, hstep.totalIssued', ← hsupply]
      rfl
    · rw [hboot]
      exact (supply_of_acceptedBlock hb).2.1
  · intro hzero hheight
    have hstart : BoundedIssuance s := by
      refine ⟨UInt64.le_iff_toNat_le.mp hheight, ?_, fun _ => hzero⟩
      rw [hzero]
      exact Nat.zero_le _
    exact (hstart.run hrun).issued.trans (issuedBefore_mono s'.tipEpoch.toNat_lt)

end Issuance

section Evaluation

attribute [local instance] devnetCrypto

/-- A Devnet genesis, the state after its bootstrap block, and the state after one
mined block that another node receives. -/
def devnetTwoBlocks : Except String (DevnetState × DevnetState × DevnetState) := do
  let genesis ← initBuild54GenesisDevnet
  let transition ← buildDevnetBootstrapTransition genesis
  let bootstrapped ← validateAndApplyBlock genesis transition.header transition.txs
    transition.operations
  let mined ← mineEpochWithSigner bootstrapped (nextMineableEpoch bootstrapped) none
  let block ← okOr mined.blocks.getLast? "no block was mined"
  let payload ← encodeBlockPayload block
  let (header, txs, operations) ← decodeBlockPayload payload
  let received ← validateAndApplyBlock bootstrapped header txs operations
  .ok (genesis, bootstrapped, received)

theorem supply_conserved_two_blocks :
    ∃ genesis received : DevnetState, ChainRun genesis received ∧ Conserved received ∧
      received.totalIssuedStrikes = 800000000 ∧
      received.totalIssuedStrikes.toNat ≤ totalSubsidy := by
  have hcheck : okAnd devnetTwoBlocks (fun (genesis, _, received) =>
      genesis.utxos == [] && genesis.totalIssuedStrikes == 0 && genesis.height == 0 &&
        received.totalIssuedStrikes == 800000000) = true := by decide +kernel
  rcases exists_of_okAnd hcheck with ⟨⟨genesis, bootstrapped, received⟩, hrun, htest⟩
  simp only [Bool.and_eq_true, beq_iff_eq] at htest
  rcases htest with ⟨⟨⟨hutxos, hissued⟩, hheight⟩, hreceived⟩
  simp only [devnetTwoBlocks, ok_rules, Prod.mk.injEq] at hrun
  rcases hrun with ⟨_, -, _, -, _, hfirst, _, -, _, -, _, -, _, -, _, hsecond, rfl, rfl, rfl⟩
  have hchain : ChainRun _ _ := (Relation.ReflTransGen.single (.block hfirst)).tail (.block hsecond)
  have hstart : Conserved _ := ⟨by rw [hutxos, hissued]; rfl, by rw [hutxos]; exact List.nodup_nil⟩
  rcases supply_conserved hstart hchain with ⟨hconserved, -, hbound, -⟩
  exact ⟨_, _, hchain, hconserved, hreceived, hbound hissued (by rw [hheight]; exact UInt64.zero_le)⟩

/-- The bootstrap block is accepted and issues nothing, although the subsidy of its
epoch is eight coins. -/
theorem bootstrapBlock_issues_nothing :
    ∃ (s s' : DevnetState) (header : HeaderV1) (txs : List TransactionV1)
      (operations : List ProtocolOperationV1),
      Conserved s ∧ validateAndApplyBlock s header txs operations = .ok s' ∧
        s'.totalIssuedStrikes.toNat ≠
          s.totalIssuedStrikes.toNat + (subsidy header.core.epoch).toNat := by
  have hcheck : okAnd (do
      let genesis ← initBuild54GenesisDevnet
      let transition ← buildDevnetBootstrapTransition genesis
      let bootstrapped ← validateAndApplyBlock genesis transition.header transition.txs
        transition.operations
      .ok (genesis, transition, bootstrapped)) (fun (genesis, transition, bootstrapped) =>
        genesis.utxos == [] && genesis.totalIssuedStrikes == 0 &&
          bootstrapped.totalIssuedStrikes == 0 &&
          subsidy transition.header.core.epoch == 800000000) = true := by decide +kernel
  rcases exists_of_okAnd hcheck with ⟨⟨genesis, transition, bootstrapped⟩, hrun, htest⟩
  simp only [Bool.and_eq_true, beq_iff_eq] at htest
  rcases htest with ⟨⟨⟨hutxos, hissued⟩, hnothing⟩, hsubsidy⟩
  simp only [ok_rules, Prod.mk.injEq] at hrun
  rcases hrun with ⟨_, -, _, -, _, hblock, rfl, rfl, rfl⟩
  refine ⟨_, _, _, _, _, ⟨?_, ?_⟩, hblock, ?_⟩
  · rw [hutxos, hissued]
    rfl
  · rw [hutxos]
    exact List.nodup_nil
  · rw [hnothing, hissued, hsubsidy]
    decide

end Evaluation

end Mutiny
