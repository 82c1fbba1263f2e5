import Mutiny.Node.Scheduled
import Mutiny.Node.Supply

/-!
# Waiting is not observable

An operator may advance a node over empty epochs at any time, up to any epoch, and the root
is refreshed each time.  The chain does not depend on these choices.

Main result:

- Theorem {lit}`waiting_unobservable`: waiting does not change what a node accepts.
-/

namespace Mutiny

open Result

section Waiting

variable {s s' s₁ t : DevnetState}

theorem blindEpoch_setRoot (root : Bytes32) :
    BlindEpoch fun s => { s with currentStateRoot := root } := by
  constructor
  · constructor <;> intros <;> rfl
  all_goals intros; rfl

variable [Crypto]

/-- The refresh at the end makes up for any root at the start. -/
theorem refreshed_setRoot (root : Bytes32) (n : Nat) (s : DevnetState) :
    (emptyEpochs n { s with currentStateRoot := root } >>= refreshCurrentStateRoot) =
      emptyEpochs n s >>= refreshCurrentStateRoot := by
  rw [(blindEpoch_setRoot root).emptyEpochs, bind_exceptMap]
  rfl

/-- Empty epochs passed in two parts are the same as passed at once. -/
theorem advanceEmptyEpochs_resume {a b : UInt64} (h : advanceEmptyEpochs s a = .ok s₁)
    (hab : a ≤ b) : advanceEmptyEpochs s₁ b = .ok t ↔ advanceEmptyEpochs s b = .ok t := by
  have htip := (advanceEmptyEpochs_frame h).2
  rw [UInt64.le_iff_toNat_le] at hab
  by_cases hwait : a ≤ s.tipEpoch
  · rw [advanceEmptyEpochs, if_pos hwait] at h
    cases h
    exact Iff.rfl
  have hlater : ¬ b ≤ s.tipEpoch := by
    rw [UInt64.le_iff_toNat_le] at hwait ⊢
    omega
  by_cases hsame : b ≤ s₁.tipEpoch
  · -- the two parts end where the first one ends
    have hb : b = a := by
      rw [UInt64.le_iff_toNat_le] at hwait hsame
      exact UInt64.toNat_inj.mp (by omega)
    rw [advanceEmptyEpochs, if_pos hsame, hb, h]
  rw [UInt64.le_iff_toNat_le] at hwait hsame
  simp only [advanceEmptyEpochs, UInt64.le_iff_toNat_le, if_neg hwait, bind_eq_ok] at h
  rcases h with ⟨u, hepochs, hrefresh⟩
  have hs₁ := (refreshCurrentStateRoot_eq_ok.mp hrefresh).2
  have hsplit : b.toNat - s.tipEpoch.toNat =
      (a.toNat - s.tipEpoch.toNat) + (b.toNat - s₁.tipEpoch.toNat) := by omega
  rw [advanceEmptyEpochs, advanceEmptyEpochs, if_neg hlater,
    if_neg (by rw [UInt64.le_iff_toNat_le]; exact hsame), hsplit, emptyEpochs_add, hepochs, ok_bind]
  generalize b.toNat - s₁.tipEpoch.toNat = n
  rw [hs₁, refreshed_setRoot]

variable {header : HeaderV1} {txs : List TransactionV1} {operations : List ProtocolOperationV1}

theorem validateAndApplyBlock_resume {a : UInt64} (h : advanceEmptyEpochs s a = .ok s₁)
    (hheight : s.height ≠ 0) (ha : a < header.core.epoch) :
    validateAndApplyBlock s₁ header txs operations = .ok s' ↔
      validateAndApplyBlock s header txs operations = .ok s' := by
  rcases advanceEmptyEpochs_frame h with ⟨hframe, htip⟩
  have hheight₁ : s₁.height = s.height := by rw [hframe]; rfl
  have hruntime : runtimeForState s₁ = runtimeForState s := by rw [hframe]; rfl
  have hnetwork : s₁.networkId = s.networkId := by rw [hframe]; rfl
  have hhash : s₁.tipHash = s.tipHash := by rw [hframe]; rfl
  have hboot : ∀ u : DevnetState, u.height = s.height → isBootstrapBlock u operations = false := by
    intro u hu
    simp [isBootstrapBlock, hu, hheight]
  rw [UInt64.lt_iff_toNat_lt] at ha
  have hplace : checkHeaderPlace s₁ header.core = checkHeaderPlace s header.core := by
    have hlater : header.core.epoch ≤ s₁.tipEpoch ↔ header.core.epoch ≤ s.tipEpoch := by
      rw [UInt64.le_iff_toNat_le, UInt64.le_iff_toNat_le]
      omega
    simp only [checkHeaderPlace, hheight₁, hnetwork, hhash, hlater]
  have hadvance : ∀ next, advanceToBlock s₁ header.core.epoch = .ok next ↔
      advanceToBlock s header.core.epoch = .ok next := by
    intro next
    have hpos : 0 < header.core.epoch := UInt64.lt_iff_toNat_lt.mpr (Nat.zero_lt_of_lt ha)
    have hle : a ≤ header.core.epoch - 1 := by
      have hone : (1 : UInt64).toNat = 1 := rfl
      have hle : 1 ≤ header.core.epoch := UInt64.le_iff_toNat_le.mpr (by omega)
      rw [UInt64.le_iff_toNat_le, UInt64.toNat_sub_of_le _ _ hle]
      omega
    simp only [advanceToBlock, advanceBeforeBlock, if_pos hpos, bind_eq_ok,
      advanceEmptyEpochs_resume h hle]
  simp only [validateAndApplyBlock, hruntime, hheight₁, hboot s₁ hheight₁, hboot s rfl,
    Bool.false_eq_true, if_false, hplace, bind_eq_ok, hadvance]

/-- A node that is advanced, any number of times, over epochs before that of a block accepts
the block exactly as if it had not been, and ends in the same state. -/
theorem waiting_unobservable {stops : List UInt64}
    (hwait : stops.foldlM advanceEmptyEpochsFast s = .ok s₁)
    (hstops : ∀ a ∈ stops, a < header.core.epoch) :
    validateAndApplyBlock s₁ header txs operations = .ok s' ↔
      validateAndApplyBlock s header txs operations = .ok s' := by
  induction stops generalizing s with
  | nil =>
    rw [List.foldlM_nil, pure_eq_ok] at hwait
    rw [hwait]
  | cons a stops ih =>
    simp only [List.foldlM_cons, advanceEmptyEpochsFast, ok_rules] at hwait
    rcases hwait with ⟨s₂, ⟨_, hheight, _, hlater, hfirst⟩, hrest⟩
    have hadvance : advanceEmptyEpochs s a = .ok s₂ := by
      rw [advanceEmptyEpochs, if_neg hlater, bind_eq_ok]
      exact hfirst
    rw [List.forall_mem_cons] at hstops
    rw [ih hrest hstops.2]
    exact validateAndApplyBlock_resume hadvance hheight hstops.1

end Waiting

section Evaluation

attribute [local instance] devnetCrypto

/-- A Devnet node that is advanced twice after the bootstrap block accepts the second one. -/
theorem waiting_unobservable_devnet :
    ∃ (s s₁ s' : DevnetState) (header : HeaderV1) (txs : List TransactionV1)
      (operations : List ProtocolOperationV1), [11, 12].foldlM advanceEmptyEpochsFast s = .ok s₁ ∧
      s.tipEpoch < s₁.tipEpoch ∧ validateAndApplyBlock s₁ header txs operations = .ok s' := by
  have hcheck : okAnd devnetTwoBlocks (fun r => decide (r.2.1.height ≠ 0 ∧ 12 < r.2.2.tipEpoch) &&
      okAnd ([11, 12].foldlM advanceEmptyEpochsFast r.2.1) fun s₁ =>
        decide (r.2.1.tipEpoch < s₁.tipEpoch)) = true := by
    decide +kernel
  rcases exists_of_okAnd hcheck with ⟨⟨genesis, s, s'⟩, hrun, htest⟩
  rw [Bool.and_eq_true] at htest
  rcases of_decide_eq_true htest.1 with ⟨hheight, hlater⟩
  rcases exists_of_okAnd htest.2 with ⟨s₁, hwait, htip⟩
  simp only [devnetTwoBlocks, ok_rules, Prod.mk.injEq] at hrun
  rcases hrun with ⟨_, -, _, -, _, -, _, -, _, -, _, -, ⟨header, txs, operations⟩,
    -, _, hblock, rfl, rfl, rfl⟩
  have hstops : ∀ a ∈ [(11 : UInt64), 12], a < header.core.epoch := by
    rcases validateAndApplyBlock_cases hblock with ⟨-, hboot⟩ | ⟨-, _, _, _, _, _, -, -, hresult⟩
    · rcases bootstrapStep_of_ok hboot with ⟨_, hstep⟩
      exact absurd hstep.height hheight
    · rw [hresult] at hlater
      simp only [List.forall_mem_cons]
      exact ⟨UInt64.lt_trans (by decide) hlater, hlater, by simp⟩
  exact ⟨_, s₁, _, _, _, _, hwait, of_decide_eq_true htip,
    (waiting_unobservable hwait hstops).mpr hblock⟩

end Evaluation

end Mutiny
