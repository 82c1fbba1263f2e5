import Mutiny.Node.TxHistory
import Mutiny.Node.OperationSteps
import Mutiny.Node.CheckedEpochs

/-!
# The treasury in a block

What the transactions of a block take out of the outputs the treasury controls and what
they add to them, and how the payments of a block match its claims.
-/

namespace Mutiny

open Result Dividends

/-! ## Outputs of the treasury -/

/-- The value of the outputs of some type. -/
def valueOfType (outputType : UInt8) (outputs : List TxOutput) : Nat :=
  outputsValue (outputs.filter fun o => o.outputType == outputType)

/-- The value of the outputs a transaction adds to the treasury. -/
def toTreasury (outputs : List TxOutput) : Nat :=
  valueOfType outputTreasury outputs + valueOfType outputLicensePayment outputs

theorem treasuryValue_append (us vs : List UtxoState) :
    treasuryValue (us ++ vs) = treasuryValue us + treasuryValue vs := by
  rw [treasuryValue, List.filter_append, utxoSupply_append]
  rfl

variable {us : List UtxoState}

theorem treasuryValue_perm {vs : List UtxoState} (h : us.Perm vs) :
    treasuryValue us = treasuryValue vs :=
  utxoSupply_perm (h.filter _)

theorem treasuryValue_of_controlled (h : ∀ u ∈ us, isTreasuryControlled u = true) :
    treasuryValue us = utxoSupply us := by
  rw [treasuryValue, List.filter_eq_self.mpr h]

theorem treasuryValue_of_payable (h : ∀ u ∈ us, u.outputType = outputPubkeyHash) :
    treasuryValue us = 0 := by
  have hnone : us.filter isTreasuryControlled = [] := by
    rw [List.filter_eq_nil_iff]
    intro u hu
    rw [isTreasuryControlled, h u hu]
    decide
  rw [treasuryValue, hnone]
  rfl

theorem toTreasury_cons (o : TxOutput) (outputs : List TxOutput) :
    toTreasury (o :: outputs) =
      (if o.outputType == outputTreasury || o.outputType == outputLicensePayment then
        o.amountStrikes.toNat else 0) + toTreasury outputs := by
  have htypes : outputTreasury ≠ outputLicensePayment := by decide
  by_cases htreasury : o.outputType = outputTreasury
  · simp [toTreasury, valueOfType, outputsValue, htreasury, htypes, Nat.add_assoc]
  · by_cases hpayment : o.outputType = outputLicensePayment
    · simp [toTreasury, valueOfType, outputsValue, hpayment, Ne.symm htypes, Nat.add_left_comm]
    · simp [toTreasury, valueOfType, outputsValue, htreasury, hpayment]

section Flow

variable [Crypto]

theorem treasuryValue_createdUtxos (tx : TransactionV1) (epoch height : UInt64)
    (coinbase : Bool) :
    treasuryValue (createdUtxos tx epoch height coinbase) = toTreasury tx.core.outputs := by
  rw [createdUtxos]
  generalize 0 = n
  generalize tx.core.outputs = outputs
  induction outputs generalizing n with
  | nil => rfl
  | cons o outputs ih =>
    rw [toTreasury_cons, List.zipIdx_cons, List.map_cons, ← List.singleton_append,
      treasuryValue_append, ih]
    congr 1
    by_cases h : (o.outputType == outputTreasury || o.outputType == outputLicensePayment) = true
    · simp [treasuryValue, isTreasuryControlled, utxoSupply, h]
    · simp [treasuryValue, isTreasuryControlled, utxoSupply, h]

variable {utxos spent : List UtxoState}

theorem treasuryValue_afterSpend (tx : TransactionV1) (epoch height : UInt64)
    (hdistinct : (spent.map UtxoState.outpoint).Nodup)
    (hfound : ∀ u ∈ spent, findUtxo utxos u.outpoint = some u) :
    treasuryValue (afterSpend utxos spent tx epoch height) + treasuryValue spent =
      treasuryValue utxos + toTreasury tx.core.outputs := by
  have hperm := treasuryValue_perm (perm_append_spent hdistinct hfound)
  rw [treasuryValue_append] at hperm
  rw [afterSpend, treasuryValue_append, treasuryValue_createdUtxos]
  omega

/-! ## Claims and their payments -/

/-- The claims among the operations of a block. -/
def claimsOf (operations : List ProtocolOperationV1) : List DividendClaimV1 :=
  operations.filterMap fun op => (decodeClaimOperation op).toOption

/-- What claims ask for together. -/
def claimedStrikes (operations : List ProtocolOperationV1) : Nat :=
  ((claimsOf operations).map fun c => c.amountStrikes.toNat).sum

/-- What the transaction with an identifier pays to claims. -/
def claimedBy (operations : List ProtocolOperationV1) (txid : Bytes32) : Nat :=
  (((claimsOf operations).filter fun c => c.paymentTxid == txid).map fun c =>
    c.amountStrikes.toNat).sum

variable {operations : List ProtocolOperationV1}

omit [Crypto] in
/-- The search for the claim of a transaction finds the only one. -/
theorem claimOperationForTx_claims {txid : Bytes32} {found : Option ProtocolOperationV1}
    (h : claimOperationForTx operations txid = .ok found) :
    (claimsOf operations).filter (fun c => c.paymentTxid == txid) =
      found.toList.filterMap fun op => (decodeClaimOperation op).toOption := by
  have hloop : ∀ (ops : List ProtocolOperationV1) (acc : Option ProtocolOperationV1),
      (ops.filter fun op => op.opType == opDividendClaim).foldlM (fun found op => do
        let claim ← decodeClaimOperation op
        if claim.paymentTxid = txid then
          reject (found.isSome = true)
            "more than one dividend claim references the same payment TXID"
          .ok (some op)
        else .ok found) acc = .ok found →
      (acc.toList.filterMap fun op => (decodeClaimOperation op).toOption) ++
        (claimsOf ops).filter (fun c => c.paymentTxid == txid) =
        found.toList.filterMap fun op => (decodeClaimOperation op).toOption := by
    intro ops
    induction ops with
    | nil =>
      intro acc hacc
      rw [List.filter_nil, List.foldlM_nil, pure_eq_ok] at hacc
      rw [hacc]
      exact List.append_nil _
    | cons op ops ih =>
      intro acc hacc
      by_cases htype : op.opType = opDividendClaim
      · rw [List.filter_cons_of_pos (by simpa using htype), List.foldlM_cons, bind_eq_ok] at hacc
        rcases hacc with ⟨acc₁, hhead, htail⟩
        rw [bind_eq_ok] at hhead
        rcases hhead with ⟨claim, hclaim, hhead⟩
        have hcons : claimsOf (op :: ops) = claim :: claimsOf ops := by
          simp [claimsOf, hclaim, Except.toOption]
        have hrest := ih acc₁ htail
        split at hhead
        next hpaid =>
          simp only [ok_rules] at hhead
          rcases hhead with ⟨_, hnone, rfl⟩
          rw [Bool.not_eq_true, Option.isSome_eq_false_iff, Option.isNone_iff_eq_none] at hnone
          rw [← hrest, hcons, hnone, List.filter_cons_of_pos (by simpa using hpaid)]
          simp [hclaim, Except.toOption]
        next hother =>
          cases hhead
          rw [← hrest, hcons, List.filter_cons_of_neg (by simpa using hother)]
      · have hcons : claimsOf (op :: ops) = claimsOf ops := by
          cases hdecode : decodeClaimOperation op with
          | error e => simp [claimsOf, hdecode, Except.toOption]
          | ok c => exact absurd (opType_of_claim hdecode) htype
        rw [List.filter_cons_of_neg (by simpa using htype)] at hacc
        rw [hcons]
        exact ih acc hacc
  have hall := hloop operations none h
  simpa using hall

variable {outputs : List TxOutput}

/-- A payment returns to the treasury what the claim does not take. -/
theorem toTreasury_of_checkPaymentOutputs {networkId : UInt32} {claim : DividendClaimV1}
    {inputSum : UInt64} (h : checkPaymentOutputs networkId claim inputSum outputs = .ok ()) :
    toTreasury outputs + claim.amountStrikes.toNat = inputSum.toNat ∧
      valueOfType outputLicensePayment outputs = 0 := by
  have hpayable : outputPubkeyHash ≠ outputTreasury ∧ outputPubkeyHash ≠ outputLicensePayment := by
    decide
  have htreasury : outputTreasury ≠ outputLicensePayment := by decide
  have hnil : toTreasury [] = 0 := rfl
  cases outputs with
  | nil => cases h
  | cons first rest =>
    simp only [checkPaymentOutputs, ok_rules, not_or, not_not, UInt64.not_lt] at h
    rcases h with ⟨_, ⟨hfirst, hamount, -⟩, _, henough, h⟩
    have hle := UInt64.le_iff_toNat_le.mp henough
    have hchange : (inputSum - claim.amountStrikes).toNat =
        inputSum.toNat - claim.amountStrikes.toNat := UInt64.toNat_sub_of_le _ _ henough
    cases rest with
    | nil =>
      rw [reject_eq_ok, not_not, ← UInt64.toNat_inj, hchange] at h
      have hzero : (0 : UInt64).toNat = 0 := rfl
      constructor
      · rw [toTreasury_cons, hfirst, hnil]
        simp only [beq_iff_eq, Bool.or_eq_true, hpayable.1, hpayable.2, or_self, if_false]
        omega
      · simp [valueOfType, outputsValue, hfirst, hpayable.2]
    | cons output more =>
      simp only [ok_rules, not_or, not_not] at h
      rcases h with ⟨_, -, _, rfl, hoamount, hotype, -⟩
      constructor
      · rw [toTreasury_cons, toTreasury_cons, hfirst, hotype, hnil, hoamount, hchange]
        simp only [beq_iff_eq, Bool.or_eq_true, hpayable.1, hpayable.2, or_self, if_false,
          true_or, if_true]
        omega
      · simp [valueOfType, outputsValue, hfirst, hotype, hpayable.2, htreasury]

variable {height : UInt64}

theorem SpendsInput.payable_of_forall {txid : Bytes32}
    {entries : List ((TxInput × WitnessV1) × Nat)}
    (h : List.Forall₂ (SpendsInput utxos height txid) entries spent) :
    ∀ u ∈ spent, u.outputType = outputPubkeyHash := by
  induction h with
  | nil => exact fun u hu => absurd hu List.not_mem_nil
  | cons hu _ ih => exact List.forall_mem_cons.mpr ⟨hu.payable, ih⟩

omit [Crypto] in
/-- Ordinary transactions add to the treasury by licence payments only. -/
theorem toTreasury_of_valid (h : ∀ o ∈ outputs, ValidOutput o) :
    toTreasury outputs = valueOfType outputLicensePayment outputs := by
  have htypes : outputPubkeyHash ≠ outputTreasury ∧ outputLicensePayment ≠ outputTreasury := by
    decide
  have hnone : outputs.filter (fun o => o.outputType == outputTreasury) = [] := by
    rw [List.filter_eq_nil_iff]
    intro o ho
    rcases (h o ho).supported with htype | htype
    · simp [htype, htypes.1]
    · simp [htype, htypes.2]
  rw [toTreasury, valueOfType, hnone]
  exact Nat.zero_add _

variable {s : DevnetState} {epoch : UInt64} {utxos' : List UtxoState}

theorem treasury_validateAndApplyPending {pending : PendingTxState} {v : ValidatedTx}
    (h : validateAndApplyPending s epoch height operations utxos pending = .ok (v, utxos')) :
    treasuryValue utxos' +
        claimedBy operations (pending.toTransactionForNetwork s.networkId).txid =
      treasuryValue utxos + valueOfType outputLicensePayment
        (pending.toTransactionForNetwork s.networkId).core.outputs := by
  simp only [validateAndApplyPending, bind_eq_ok] at h
  rcases h with ⟨_, -, found, hfound, h⟩
  have hclaims := claimOperationForTx_claims hfound
  cases found with
  | some op =>
    simp only [ok_rules, Prod.mk.injEq] at h
    rcases h with ⟨_, hpayment, -, rfl⟩
    rcases validateAndApplyPayment_spends hpayment with ⟨claim, spent, inputSum, hvalid, rfl⟩
    have hflow := treasuryValue_afterSpend (pending.toTransactionForNetwork s.networkId) epoch
      height hvalid.distinct hvalid.found
    rw [treasuryValue_of_controlled hvalid.controlled, ← hvalid.sum] at hflow
    rcases toTreasury_of_checkPaymentOutputs hvalid.outputs with ⟨hchange, hnone⟩
    have hclaimed : claimedBy operations (pending.toTransactionForNetwork s.networkId).txid =
        claim.amountStrikes.toNat := by
      rw [claimedBy, hclaims]
      simp [hvalid.claimed, Except.toOption]
    rw [hclaimed, hnone]
    omega
  | none =>
    simp only [ok_rules, Prod.mk.injEq] at h
    rcases h with ⟨⟨fee, baseFee, _⟩, hordinary, -, rfl⟩
    rcases applyOrdinary_eq_ok.mp hordinary with ⟨spent, hvalid, rfl⟩
    have hflow := treasuryValue_afterSpend (pending.toTransactionForNetwork s.networkId) epoch
      height hvalid.distinct (SpendsInput.found_of_forall hvalid.inputs)
    have hclaimed : claimedBy operations (pending.toTransactionForNetwork s.networkId).txid =
        0 := by
      rw [claimedBy, hclaims]
      rfl
    rw [treasuryValue_of_payable (SpendsInput.payable_of_forall hvalid.inputs),
      toTreasury_of_valid hvalid.outputs] at hflow
    dsimp only
    omega

/-- What the transactions of a list pay to claims. -/
def paidClaims (operations : List ProtocolOperationV1) (txs : List TransactionV1) : Nat :=
  (txs.map fun tx => claimedBy operations tx.txid).sum

/-- What the transactions of a list pay for licences. -/
def paidForLicenses (txs : List TransactionV1) : Nat :=
  (txs.map fun tx => valueOfType outputLicensePayment tx.core.outputs).sum

/-- Transactions take out the claims they pay and add the licence payments they make. -/
theorem treasury_validateAndApplyList {pool : List PendingTxState} {validated : List ValidatedTx}
    (h : validateAndApplyList s epoch height operations pool utxos = .ok (validated, utxos')) :
    treasuryValue utxos' +
        paidClaims operations (pool.map (·.toTransactionForNetwork s.networkId)) =
      treasuryValue utxos +
        paidForLicenses (pool.map (·.toTransactionForNetwork s.networkId)) := by
  induction pool generalizing utxos validated with
  | nil =>
    simp only [validateAndApplyList, Except.ok.injEq, Prod.mk.injEq] at h
    rcases h with ⟨-, rfl⟩
    rfl
  | cons pending pool ih =>
    simp only [validateAndApplyList, ok_rules, Prod.mk.injEq] at h
    rcases h with ⟨⟨v, utxos₁⟩, hhead, ⟨vs, utxos₂⟩, htail, -, rfl⟩
    have hfirst := treasury_validateAndApplyPending hhead
    have hrest := ih htail
    simp only [paidClaims, paidForLicenses, List.map_cons, List.sum_cons] at hrest ⊢
    omega

variable {txs : List TransactionV1}

/-- Transactions with different identifiers pay every claim once. -/
theorem paidClaims_eq (hdistinct : (txs.map TransactionV1.txid).Nodup)
    (hpaid : ∀ c ∈ claimsOf operations, c.paymentTxid ∈ txs.map TransactionV1.txid) :
    paidClaims operations txs = claimedStrikes operations := by
  rw [paidClaims, claimedStrikes, ← Keyed.sum_by_key (fun c => c.amountStrikes.toNat) hdistinct
    hpaid, List.map_map]
  rfl

/-! ## Claims of a block -/

/-- Every operation but a claim leaves the accounts and the reserve alone. -/
theorem OperationStep.claim_or_other {s' : DevnetState} {op : ProtocolOperationV1}
    (h : OperationStep txs epoch s op s') :
    (∃ c license account reserved, ClaimStep s txs op epoch c license account reserved s') ∨
      op.opType ≠ opDividendClaim ∧ s'.dividendAccounts = s.dividendAccounts ∧
        s'.treasuryReservedDividendStrikes = s.treasuryReservedDividendStrikes := by
  cases h with
  | headers htype h =>
    rcases licenses_headers h with ⟨headers, best, rfl⟩
    exact Or.inr ⟨by rw [htype]; decide, rfl, rfl⟩
  | purchase htype h =>
    rcases h.result with ⟨issued, native, bitcoin, -, -, -, rfl⟩
    refine Or.inr ⟨?_, rfl, rfl⟩
    rcases htype with htype | htype
    · rw [htype]
      decide
    · rw [htype]
      decide
  | transfer t old new h =>
    refine Or.inr ⟨?_, by rw [h.result], by rw [h.result]⟩
    rw [h.operation]
    exact (by decide : opLicenseTransfer ≠ opDividendClaim)
  | rotation r old new h =>
    refine Or.inr ⟨?_, by rw [h.result], by rw [h.result]⟩
    rw [h.operation]
    exact (by decide : opLicenseMiningKeyRotate ≠ opDividendClaim)
  | evidence e old event record h =>
    refine Or.inr ⟨?_, by rw [h.result], by rw [h.result]⟩
    rw [opType_of_evidence h.operation]
    decide
  | claim c license account reserved h => exact Or.inl ⟨c, license, account, reserved, h⟩
  | presence htype h =>
    rcases presence_eq_ok h with ⟨presences, rfl⟩
    exact Or.inr ⟨by rw [htype]; decide, rfl, rfl⟩

end Flow

end Mutiny
