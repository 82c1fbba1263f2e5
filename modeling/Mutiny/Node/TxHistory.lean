import Mutiny.Node.Supply
import Mutiny.Lib.Provenance

/-!
# No transaction is applied twice

The code never compares the identifiers of the transactions of a block, with each other
or with earlier ones.  A transaction is applied at most once because it spends an output,
and an output can only be created again by the transaction that created it.
-/

namespace Mutiny

open Result Provenance

/-! ## One transaction -/

/-- The outpoints a transaction spends. -/
def TransactionV1.outpoints (tx : TransactionV1) : List OutPoint :=
  tx.core.inputs.filterMap fun
    | .outpoint o => some o
    | .coinbase _ => none

theorem TransactionV1.outpoints_of_inputs {tx : TransactionV1} {spent : List UtxoState}
    (h : tx.core.inputs = spent.map fun u => .outpoint u.outpoint) :
    tx.outpoints = spent.map UtxoState.outpoint := by
  rw [outpoints, h, List.filterMap_map]
  induction spent with
  | nil => rfl
  | cons u spent ih => simp

/-- The outpoints of a list of outputs. -/
def liveOutpoints (utxos : List UtxoState) : Set OutPoint := {o | o ∈ utxos.map UtxoState.outpoint}

section Applied

variable [Crypto]

/-- A transaction that replaces the outputs it spends by the outputs it creates. -/
structure AppliedTx (utxos : List UtxoState) (tx : TransactionV1) (spent : List UtxoState)
    (epoch height : UInt64) (utxos' : List UtxoState) : Prop where
  inputs : tx.core.inputs = spent.map fun u => .outpoint u.outpoint
  found : ∀ u ∈ spent, findUtxo utxos u.outpoint = some u
  distinct : (spent.map UtxoState.outpoint).Nodup
  count : tx.core.outputs.length ≤ 2 ^ 16
  result : utxos' = afterSpend utxos spent tx epoch height

variable {height : UInt64} {utxos : List UtxoState} {tx : TransactionV1} {spent : List UtxoState}

theorem ValidSpend.inputs_eq {baseFeeRate fee baseFee : UInt64}
    (h : ValidSpend baseFeeRate utxos height tx spent fee baseFee)
    (hwitnesses : tx.witnesses.length = tx.core.inputs.length) :
    tx.core.inputs = spent.map fun u => .outpoint u.outpoint := by
  have hmap : ∀ {entries : List ((TxInput × WitnessV1) × Nat)} {us : List UtxoState},
      List.Forall₂ (SpendsInput utxos height tx.txid) entries us →
      entries.map (fun e => e.1.1) = us.map fun u => .outpoint u.outpoint := by
    intro entries us hus
    induction hus with
    | nil => rfl
    | cons hu _ ih => rw [List.map_cons, List.map_cons, hu.input, ih]
  have hentries := hmap h.inputs
  have hinputs : ((tx.core.inputs.zip tx.witnesses).zipIdx).map (fun e => e.1.1) =
      tx.core.inputs := by
    have hcomp : (fun e : (TxInput × WitnessV1) × Nat => e.1.1) = Prod.fst ∘ Prod.fst := rfl
    rw [hcomp, ← List.map_map, List.zipIdx_map_fst, List.map_fst_zip hwitnesses.ge]
  rw [← hentries, hinputs]

variable {s : DevnetState} {epoch : UInt64} {operations : List ProtocolOperationV1}
  {utxos' : List UtxoState}

/-- Whatever the loop validates is applied, and spends something. -/
theorem appliedTx_of_pending {pending : PendingTxState} {v : ValidatedTx}
    (h : validateAndApplyPending s epoch height operations utxos pending = .ok (v, utxos')) :
    ∃ spent, spent ≠ [] ∧
      AppliedTx utxos (pending.toTransactionForNetwork s.networkId) spent epoch height utxos' := by
  simp only [validateAndApplyPending, checkEnvelope, ok_rules, not_or, not_not] at h
  rcases h with ⟨_, ⟨_, -, _, -, _, -, _, hcounts, hwitnesses⟩, claim, -, h⟩
  have hsome : ∀ {spent : List UtxoState},
      (pending.toTransactionForNetwork s.networkId).core.inputs =
        spent.map (fun u => .outpoint u.outpoint) → spent ≠ [] := by
    intro spent hinputs hempty
    rw [hempty] at hinputs
    exact hcounts.1 hinputs
  cases claim with
  | some op =>
    simp only [ok_rules, Prod.mk.injEq] at h
    rcases h with ⟨_, hpayment, -, rfl⟩
    rcases validateAndApplyPayment_spends hpayment with ⟨_, spent, _, hvalid, rfl⟩
    exact ⟨spent, hsome hvalid.inputs, hvalid.inputs, hvalid.found, hvalid.distinct,
      hvalid.count, rfl⟩
  | none =>
    simp only [ok_rules, Prod.mk.injEq] at h
    rcases h with ⟨⟨fee, baseFee, _⟩, hordinary, -, rfl⟩
    rcases applyOrdinary_eq_ok.mp hordinary with ⟨spent, hvalid, rfl⟩
    have hinputs := hvalid.inputs_eq hwitnesses
    exact ⟨spent, hsome hinputs, hinputs, SpendsInput.found_of_forall hvalid.inputs,
      hvalid.distinct, hvalid.count, rfl⟩

/-! ## The record of a ledger -/

/-- Transactions with one identifier have one core. -/
def CollisionFree {γ : Type*} [Membership TransactionV1 γ] (txs : γ) : Prop :=
  ∀ a ∈ txs, ∀ b ∈ txs, a.txid = b.txid → a.core = b.core

theorem CollisionFree.left {xs ys : List TransactionV1} (h : CollisionFree (xs ++ ys)) :
    CollisionFree xs :=
  fun a ha b hb => h a (List.mem_append_left _ ha) b (List.mem_append_left _ hb)

/-- Unspent outputs that transactions on record left. -/
structure OutputsSound (done : List TransactionV1) (utxos : List UtxoState) : Prop where
  recorded : Recorded TransactionV1.txid TransactionV1.outpoints OutPoint.previousTxid done
    (liveOutpoints utxos)
  distinct : (utxos.map UtxoState.outpoint).Nodup

theorem outpoint_createdUtxos {coinbase : Bool} :
    ∀ o ∈ (createdUtxos tx epoch height coinbase).map UtxoState.outpoint,
      o.previousTxid = tx.txid := by
  intro o ho
  simp only [createdUtxos, List.map_map, List.mem_map, Function.comp_apply] at ho
  rcases ho with ⟨entry, -, rfl⟩
  rfl

theorem nodup_createdUtxos {coinbase : Bool} (hcount : tx.core.outputs.length ≤ 2 ^ 16) :
    ((createdUtxos tx epoch height coinbase).map UtxoState.outpoint).Nodup := by
  have hmap : (createdUtxos tx epoch height coinbase).map UtxoState.outpoint =
      (List.range' 0 tx.core.outputs.length).map fun i => ⟨tx.txid, UInt16.ofNat i⟩ := by
    rw [createdUtxos, List.map_map, ← List.zipIdx_map_snd 0 tx.core.outputs, List.map_map]
    rfl
  rw [hmap]
  refine List.Nodup.map_on ?_ List.nodup_range'
  intro i hi j hj heq
  have hi := (List.mem_range'_1.mp hi).2
  have hj := (List.mem_range'_1.mp hj).2
  have hindex : (UInt16.ofNat i).toNat = (UInt16.ofNat j).toNat :=
    congrArg (fun o => o.previousOutputIndex.toNat) heq
  rw [UInt16.toNat_ofNat', UInt16.toNat_ofNat', Nat.mod_eq_of_lt (by omega),
    Nat.mod_eq_of_lt (by omega)] at hindex
  exact hindex

variable {done : List TransactionV1}

/-- Outputs that a fresh transaction leaves. -/
theorem OutputsSound.append_created (rest : List UtxoState) (epoch height : UInt64)
    (coinbase : Bool) (h : OutputsSound done utxos) (hfresh : tx.txid ∉ done.map TransactionV1.txid)
    (hcount : tx.core.outputs.length ≤ 2 ^ 16)
    (hinputs : ∀ o ∈ tx.outpoints, o ∈ liveOutpoints utxos) (hrest : List.Sublist rest utxos)
    (hgone : ∀ o ∈ tx.outpoints, o ∉ liveOutpoints rest) :
    OutputsSound (done ++ [tx]) (rest ++ createdUtxos tx epoch height coinbase) := by
  have hsub : List.Sublist (rest.map UtxoState.outpoint) (utxos.map UtxoState.outpoint) :=
    hrest.map _
  constructor
  · refine h.recorded.apply hfresh hinputs fun o ho => ?_
    have ho : o ∈ (rest ++ createdUtxos tx epoch height coinbase).map UtxoState.outpoint := ho
    rw [List.map_append, List.mem_append] at ho
    rcases ho with hold | hnew
    · exact Or.inl ⟨hsub.subset hold, fun hspent => hgone o hspent hold⟩
    · exact Or.inr (outpoint_createdUtxos o hnew)
  · rw [List.map_append, List.nodup_append']
    refine ⟨h.distinct.sublist hsub, nodup_createdUtxos hcount, ?_⟩
    intro o hold hnew
    have horigin := h.recorded.created o (hsub.subset hold)
    rw [outpoint_createdUtxos o hnew] at horigin
    exact hfresh horigin

/-- One transaction of a block: it is not on record, and is put there. -/
theorem OutputsSound.applied (h : OutputsSound done utxos) (hsome : spent ≠ [])
    (happlied : AppliedTx utxos tx spent epoch height utxos')
    (hcollision : CollisionFree (done ++ [tx])) :
    tx.txid ∉ done.map TransactionV1.txid ∧ OutputsSound (done ++ [tx]) utxos' := by
  have houtpoints := TransactionV1.outpoints_of_inputs happlied.inputs
  have hlive : ∀ o ∈ tx.outpoints, o ∈ liveOutpoints utxos := by
    intro o ho
    rw [houtpoints] at ho
    rcases List.mem_map.mp ho with ⟨u, hu, rfl⟩
    exact List.mem_map_of_mem (Keyed.mem_of_lookup (happlied.found u hu))
  have hfresh : tx.txid ∉ done.map TransactionV1.txid := by
    apply h.recorded.fresh _ hlive
    · intro b hb hid
      have hcore := hcollision b (List.mem_append_left _ hb) tx
        (List.mem_append_right _ (List.mem_singleton.mpr rfl)) hid
      rw [TransactionV1.outpoints, TransactionV1.outpoints, hcore]
    · rw [houtpoints]
      simpa using hsome
  refine ⟨hfresh, ?_⟩
  rw [happlied.result]
  refine h.append_created _ _ _ _ hfresh happlied.count hlive Keyed.removeAll_sublist ?_
  -- the outpoints are distinct, so what is removed is gone
  intro o ho hkept
  have hperm := (perm_append_spent happlied.distinct happlied.found).map
    UtxoState.outpoint
  rw [List.map_append] at hperm
  have hnodup := hperm.nodup_iff.mpr h.distinct
  rw [houtpoints] at ho
  exact (List.nodup_append'.mp hnodup).2.2 ho hkept

variable {pool : List PendingTxState} {validated : List ValidatedTx}

/-- The transactions of a list, in order. -/
theorem OutputsSound.list (hs : OutputsSound done utxos)
    (h : validateAndApplyList s epoch height operations pool utxos = .ok (validated, utxos'))
    (hcollision : CollisionFree
      (done ++ pool.map (·.toTransactionForNetwork s.networkId))) :
    OutputsSound (done ++ pool.map (·.toTransactionForNetwork s.networkId)) utxos' ∧
      (pool.map fun p => (p.toTransactionForNetwork s.networkId).txid).Nodup ∧
      ∀ p ∈ pool, (p.toTransactionForNetwork s.networkId).txid ∉ done.map TransactionV1.txid := by
  induction pool generalizing done utxos validated with
  | nil =>
    simp only [validateAndApplyList, Except.ok.injEq, Prod.mk.injEq] at h
    rcases h with ⟨-, rfl⟩
    exact ⟨by simpa using hs, List.nodup_nil, fun p hp => absurd hp List.not_mem_nil⟩
  | cons pending pool ih =>
    simp only [validateAndApplyList, ok_rules, Prod.mk.injEq] at h
    rcases h with ⟨⟨v, utxos₁⟩, hhead, ⟨vs, utxos₂⟩, htail, -, rfl⟩
    rcases appliedTx_of_pending hhead with ⟨spent, hsome, happlied⟩
    rw [List.map_cons, ← List.singleton_append, ← List.append_assoc] at hcollision ⊢
    rcases hs.applied hsome happlied hcollision.left with ⟨hfresh, hs₁⟩
    rcases ih hs₁ htail hcollision with ⟨hs₂, hnodup, hnew⟩
    simp only [List.map_append, List.mem_append, not_or, List.map_singleton,
      List.mem_singleton] at hnew
    refine ⟨hs₂, ?_, ?_⟩
    · rw [List.map_cons, List.nodup_cons]
      refine ⟨fun hmem => ?_, hnodup⟩
      rcases List.mem_map.mp hmem with ⟨p, hp, heq⟩
      exact (hnew p hp).2 heq
    · exact List.forall_mem_cons.mpr ⟨hfresh, fun p hp => (hnew p hp).1⟩

/-! ## Blocks -/

omit [Crypto] in
theorem inputs_of_mapM {inputs : List TxInput} {outpoints : List OutPoint}
    (h : inputs.mapM inputOutpoint = .ok outpoints) : outpoints.map .outpoint = inputs := by
  induction inputs generalizing outpoints with
  | nil =>
    rw [List.mapM_nil, pure_eq_ok] at h
    rw [← h]
    rfl
  | cons input inputs ih =>
    simp only [List.mapM_cons, bind_eq_ok, pure_eq_ok] at h
    rcases h with ⟨o, hhead, os, htail, rfl⟩
    cases input with
    | coinbase c => cases hhead
    | outpoint o' =>
      cases hhead
      rw [List.map_cons, ih htail]

/-- The pool record of a received transaction holds the transaction. -/
theorem toTransaction_pendingFromTransaction {p : PendingTxState}
    (h : pendingFromTransaction s tx = .ok p) :
    p.toTransactionForNetwork s.networkId = tx := by
  simp only [pendingFromTransaction, ok_rules, not_or, not_not] at h
  rcases h with ⟨_, ⟨hversion, hnetwork⟩, inputs, hinputs, _, -, _, -, h⟩
  split at h <;>
  · simp only [ok_rules] at h
    rcases h with ⟨_, -, rfl⟩
    rw [PendingTxState.toTransactionForNetwork, PendingTxState.outpoints,
      OutPoint.map_outpoint_stored, inputs_of_mapM hinputs, ← hversion, ← hnetwork]

variable {txs : List TransactionV1}

theorem toTransactions_pendingFromTransaction (h : txs.mapM (pendingFromTransaction s) = .ok pool) :
    pool.map (·.toTransactionForNetwork s.networkId) = txs := by
  induction txs generalizing pool with
  | nil =>
    rw [List.mapM_nil, pure_eq_ok] at h
    rw [← h]
    rfl
  | cons tx txs ih =>
    simp only [List.mapM_cons, bind_eq_ok, pure_eq_ok] at h
    rcases h with ⟨p, hhead, ps, htail, rfl⟩
    rw [List.map_cons, toTransaction_pendingFromTransaction hhead, ih htail]

/-- The ledger of a state comes from a record of transactions; a state without blocks has
none. -/
structure LedgerSound (done : List TransactionV1) (s : DevnetState) : Prop where
  outputs : OutputsSound done s.utxos
  coinbases : ∀ tx ∈ done, ∀ c, TxInput.coinbase c ∈ tx.core.inputs → c.blockEpoch ≤ s.tipEpoch
  empty : s.height = 0 → done = []
  height : s.height.toNat ≤ s.tipEpoch.toNat

variable {next : DevnetState} {coinbase : TransactionV1} {license : LicenseState}

theorem commitment_of_checkCoinbase {core : HeaderCoreV1} {minerAmount treasuryShare : UInt64}
    (h : checkCoinbase next core height license operations minerAmount treasuryShare coinbase =
      .ok ()) :
    ∃ c : CoinbaseCommitmentV1, coinbase.core.inputs = [.coinbase c] ∧
      c.blockEpoch = core.epoch := by
  simp only [checkCoinbase, bind_eq_ok] at h
  rcases h with ⟨_, -, h⟩
  split at h
  next c hinputs =>
    simp only [ok_rules, not_or, not_not] at h
    rcases h with ⟨_, -, _, ⟨hepoch, -⟩, -⟩
    exact ⟨c, hinputs, hepoch⟩
  next => cases h

theorem OutputsSound.of_mem_iff {done' : List TransactionV1} (h : OutputsSound done utxos)
    (hsame : ∀ tx, tx ∈ done' ↔ tx ∈ done) :
    OutputsSound done' utxos :=
  ⟨h.recorded.of_mem_iff hsame, h.distinct⟩

variable {ordinary : List TransactionV1}

/-- The coinbase of a block is not on record: it names the epoch of the block. -/
theorem coinbase_fresh {c : CoinbaseCommitmentV1} (hinputs : coinbase.core.inputs = [.coinbase c])
    (hordinary : ∀ tx ∈ ordinary, ∀ c, TxInput.coinbase c ∉ tx.core.inputs)
    (hbefore : ∀ tx ∈ done, ∀ c', TxInput.coinbase c' ∈ tx.core.inputs →
      c'.blockEpoch ≠ c.blockEpoch) (hcollision : CollisionFree (done ++ (coinbase :: ordinary))) :
    coinbase.txid ∉ (done ++ ordinary).map TransactionV1.txid := by
  intro hmem
  rcases List.mem_map.mp hmem with ⟨tx, htx, hid⟩
  have hall : ∀ b ∈ done ++ ordinary, b ∈ done ++ (coinbase :: ordinary) := by
    intro b hb
    rcases List.mem_append.mp hb with hb | hb
    · exact List.mem_append_left _ hb
    · exact List.mem_append_right _ (List.mem_cons_of_mem _ hb)
  have hcore := hcollision tx (hall tx htx) coinbase
    (List.mem_append_right _ List.mem_cons_self) hid
  have hsame : TxInput.coinbase c ∈ tx.core.inputs := by
    rw [hcore, hinputs]
    exact List.mem_singleton.mpr rfl
  rcases List.mem_append.mp htx with hold | hnew
  · exact hbefore tx hold c hsame rfl
  · exact hordinary tx hnew c hsame

/-- The received transactions of a block. -/
theorem OutputsSound.transactions (hs : OutputsSound done next.utxos)
    (hpool : txs.mapM (pendingFromTransaction next) = .ok pool)
    (h : validateAndApplyMempool { next with mempool := pool } next.utxos epoch height operations =
      .ok (validated, utxos')) (hcollision : CollisionFree (done ++ txs)) :
    OutputsSound (done ++ txs) utxos' ∧ (txs.map TransactionV1.txid).Nodup ∧
      ∀ tx ∈ txs, ∀ c, TxInput.coinbase c ∉ tx.core.inputs := by
  have htxs := toTransactions_pendingFromTransaction hpool
  subst htxs
  rcases hs.list h hcollision with ⟨hsound, hnodup, -⟩
  refine ⟨hsound, ?_, ?_⟩
  · rw [List.map_map]
    exact hnodup
  · intro tx htx c hc
    rcases List.mem_map.mp htx with ⟨p, -, rfl⟩
    rcases List.mem_map.mp hc with ⟨o, -, ho⟩
    cases ho

variable {header : HeaderV1}

theorem LedgerSound.acceptedBlock {b : BodyValues} (hs : LedgerSound done s)
    (hb : AcceptedBlock s header coinbase ordinary operations next license b)
    (hcollision : CollisionFree (done ++ (coinbase :: ordinary))) :
    LedgerSound (done ++ (coinbase :: ordinary))
        (b.result next header coinbase ordinary operations) ∧
      (ordinary.map TransactionV1.txid).Nodup := by
  have hframe := advanceToBlock_frame hb.advanced
  have hutxos : next.utxos = s.utxos := by rw [hframe]; rfl
  have hmem : ∀ tx, tx ∈ done ++ (coinbase :: ordinary) ↔ tx ∈ done ++ ordinary ++ [coinbase] := by
    intro tx
    simp only [List.mem_append, List.mem_cons, List.not_mem_nil, or_false]
    tauto
  have hsound : OutputsSound done next.utxos := hutxos ▸ hs.outputs
  rcases hsound.transactions hb.body.records hb.body.spends fun a ha b hb => hcollision a
    ((hmem a).mpr (List.mem_append_left _ ha)) b ((hmem b).mpr (List.mem_append_left _ hb)) with
    ⟨hspent, hnodup, hordinary⟩
  rcases commitment_of_checkCoinbase hb.body.minted with ⟨c, hinputs, hepoch⟩
  rcases addOutputsAsUtxos_eq_ok.mp hb.body.created with ⟨hcount, hcreated⟩
  rcases hb.height_succ hs.height with ⟨hsucc, hle, hblock⟩
  -- the first block has an empty record; every other one is above the tip
  have hbefore : ∀ tx ∈ done, ∀ c', TxInput.coinbase c' ∈ tx.core.inputs →
      c'.blockEpoch.toNat < c.blockEpoch.toNat := by
    intro tx htx c' hc'
    by_cases hfirst : s.height = 0
    · rw [hs.empty hfirst] at htx
      exact absurd htx List.not_mem_nil
    · have hold := UInt64.le_iff_toNat_le.mp (hs.coinbases tx htx c' hc')
      rw [hepoch]
      exact hold.trans_lt ((epoch_of_checkHeaderPlace hb.place).1 hfirst)
  have houtpoints : coinbase.outpoints = [] := by
    rw [TransactionV1.outpoints, hinputs]
    rfl
  have hfresh := coinbase_fresh hinputs hordinary
    (fun tx htx c' hc' heq => absurd (congrArg UInt64.toNat heq) (hbefore tx htx c' hc').ne)
    hcollision
  have hnone : ∀ o ∈ coinbase.outpoints, False := by
    intro o ho
    rw [houtpoints] at ho
    exact List.not_mem_nil ho
  have hall := OutputsSound.append_created b.spentUtxos header.core.epoch (next.height + 1) true
    hspent hfresh hcount (fun o ho => (hnone o ho).elim) (List.Sublist.refl _)
    (fun o ho => (hnone o ho).elim)
  rw [← hcreated] at hall
  refine ⟨⟨hall.of_mem_iff hmem, ?_, fun hzero => absurd hzero hblock, hsucc ▸ hle⟩, hnodup⟩
  intro tx htx c' hc'
  change c'.blockEpoch ≤ header.core.epoch
  rw [UInt64.le_iff_toNat_le, ← hepoch]
  rcases List.mem_append.mp htx with hold | hnew
  · exact (hbefore tx hold c' hc').le
  · rcases List.mem_cons.mp hnew with rfl | hnew
    · rw [hinputs, List.mem_singleton] at hc'
      cases hc'
      exact le_rfl
    · exact absurd hc' (hordinary tx hnew c')

/-! ## Chains -/

/-- The transactions a block applies.  The bootstrap block carries a fixed coinbase that
creates nothing. -/
def appliedTxs (s : DevnetState) (txs : List TransactionV1)
    (operations : List ProtocolOperationV1) : List TransactionV1 :=
  if isBootstrapBlock s operations then [] else txs

/-- A chain with the record of its transactions. -/
inductive LedgerRun (s₀ : DevnetState) : List TransactionV1 → DevnetState → Prop
  | start : LedgerRun s₀ [] s₀
  | empty {done : List TransactionV1} {s s' : DevnetState} {throughEpoch : UInt64}
      (run : LedgerRun s₀ done s) (h : advanceEmptyEpochs s throughEpoch = .ok s') :
      LedgerRun s₀ done s'
  | block {done txs : List TransactionV1} {s s' : DevnetState} {header : HeaderV1}
      {operations : List ProtocolOperationV1} (run : LedgerRun s₀ done s)
      (h : validateAndApplyBlock s header txs operations = .ok s') :
      LedgerRun s₀ (done ++ appliedTxs s txs operations) s'

theorem LedgerRun.chainRun {s₀ : DevnetState} (h : LedgerRun s₀ done s) : ChainRun s₀ s := by
  induction h with
  | start => exact .refl
  | empty _ h ih => exact ih.tail (.empty h)
  | block _ h ih => exact ih.tail (.block h)

variable {s' : DevnetState}

theorem LedgerSound.of_frame (hs : LedgerSound done s) (hutxos : s'.utxos = s.utxos)
    (hheight : s'.height = s.height) (htip : s.tipEpoch ≤ s'.tipEpoch) : LedgerSound done s' where
  outputs := hutxos ▸ hs.outputs
  coinbases := fun tx htx c hc => UInt64.le_trans (hs.coinbases tx htx c hc) htip
  empty := fun hzero => hs.empty (hheight ▸ hzero)
  height := by
    rw [hheight]
    exact hs.height.trans (UInt64.le_iff_toNat_le.mp htip)

/-- A block keeps the record, and its transactions have different identifiers. -/
theorem LedgerSound.block (hs : LedgerSound done s)
    (h : validateAndApplyBlock s header txs operations = .ok s')
    (hcollision : CollisionFree (done ++ appliedTxs s txs operations)) :
    LedgerSound (done ++ appliedTxs s txs operations) s' ∧
      ((appliedTxs s txs operations).tail.map TransactionV1.txid).Nodup := by
  rcases validateAndApplyBlock_cases h with
    ⟨hboot, hfirst⟩ | ⟨hboot, coinbase, ordinary, next, license, b, rfl, hb, rfl⟩
  · rcases bootstrapStep_of_ok hfirst with ⟨fixture, hstep⟩
    rw [appliedTxs, if_pos hboot, hs.empty hstep.height, List.append_nil]
    refine ⟨⟨⟨?_, ?_⟩, ?_, fun _ => rfl, ?_⟩, List.nodup_nil⟩
    · rw [hstep.utxos']
      have hnone : liveOutpoints [] = ∅ := by
        ext o
        simp [liveOutpoints]
      rw [hnone]
      exact .nil
    · rw [hstep.utxos']
      exact List.nodup_nil
    · exact fun tx htx => absurd htx List.not_mem_nil
    · rw [hstep.height', hstep.tipEpoch_eq]
      decide
  · rw [appliedTxs, hboot, if_neg Bool.false_ne_true] at hcollision ⊢
    exact hs.acceptedBlock hb hcollision

theorem LedgerSound.empties {throughEpoch : UInt64} (hs : LedgerSound done s)
    (h : advanceEmptyEpochs s throughEpoch = .ok s') : LedgerSound done s' := by
  rcases advanceEmptyEpochs_frame h with ⟨hframe, htip⟩
  refine hs.of_frame (by rw [hframe]; rfl) (by rw [hframe]; rfl) ?_
  rw [UInt64.le_iff_toNat_le]
  omega

/-- Chains keep the record. -/
theorem LedgerSound.run {founding : List TransactionV1} {s₀ : DevnetState}
    (hs : LedgerSound founding s₀) (h : LedgerRun s₀ done s)
    (hcollision : CollisionFree (founding ++ done)) : LedgerSound (founding ++ done) s := by
  induction h with
  | start => simpa using hs
  | empty _ h ih => exact (ih hcollision).empties h
  | block _ h ih =>
    rw [← List.append_assoc] at hcollision ⊢
    exact ((ih hcollision.left).block h hcollision).1

end Applied

end Mutiny
