import Mutiny.Node.Reorg
import Mutiny.Node.TxHistory

/-!
# What survives a rebuild of the pool

A transaction that was admitted after others spends nothing that they spend.  When the
pool is rebuilt on another chain, the others are tried before it; whichever of them are
taken, the outputs it spends are found as if it were alone.
-/

namespace Mutiny

open Result Provenance

section Lists

variable [Crypto] {operations : List ProtocolOperationV1}
  {result : List ValidatedTx × List UtxoState} {s : DevnetState} {epoch height : UInt64}
  {utxos : List UtxoState}

/-- A list is validated by validating its parts one after the other. -/
theorem validateAndApplyList_append {first second : List PendingTxState} :
    validateAndApplyList s epoch height operations (first ++ second) utxos = .ok result ↔
      ∃ v w middle, validateAndApplyList s epoch height operations first utxos = .ok (v, middle) ∧
        validateAndApplyList s epoch height operations second middle = .ok (w, result.2) ∧
        result.1 = v ++ w := by
  rcases result with ⟨validated, utxos'⟩
  induction first generalizing utxos validated with
  | nil => simp [validateAndApplyList]
  | cons p first ih =>
    simp only [List.cons_append, validateAndApplyList, ok_rules, Prod.mk.injEq, Prod.exists]
    constructor
    · rintro ⟨x, u, hhead, _, _, hrest, rfl, rfl⟩
      rcases (ih _).mp hrest with ⟨v, w, middle, hfirst, hsecond, hvalidated⟩
      refine ⟨x :: v, w, middle, ⟨x, u, hhead, v, middle, hfirst, rfl, rfl⟩, hsecond, ?_⟩
      exact congrArg (x :: ·) hvalidated
    · rintro ⟨_, w, _, ⟨x, u, hhead, v, middle, hfirst, rfl, rfl⟩, hsecond, rfl⟩
      have hrest := (ih (v ++ w)).mpr ⟨v, w, middle, hfirst, hsecond, rfl⟩
      exact ⟨x, u, hhead, v ++ w, utxos', hrest, rfl, rfl⟩

theorem validateAndApplyList_singleton {p : PendingTxState} :
    validateAndApplyList s epoch height operations [p] utxos = .ok result ↔
      ∃ v, validateAndApplyPending s epoch height operations utxos p = .ok (v, result.2) ∧
        result.1 = [v] := by
  rcases result with ⟨validated, utxos'⟩
  simp only [validateAndApplyList, ok_rules, Prod.mk.injEq, Prod.exists]
  constructor
  · rintro ⟨v, u, hp, _, _, ⟨rfl, rfl⟩, rfl, rfl⟩
    exact ⟨v, hp, rfl⟩
  · rintro ⟨v, hp, rfl⟩
    exact ⟨v, utxos', hp, [], utxos', ⟨rfl, rfl⟩, rfl, rfl⟩

omit [Crypto] in
theorem outpoints_toTransaction (p : PendingTxState) (networkId : UInt32) :
    (p.toTransactionForNetwork networkId).outpoints = p.outpoints := by
  simp only [TransactionV1.outpoints, PendingTxState.toTransactionForNetwork,
    List.filterMap_map]
  induction p.outpoints with
  | nil => rfl
  | cons o inputs ih => simp

/-- The last transaction of a valid list spends nothing that the others spend: what they
spent is gone, and an identifier is not used again. -/
theorem inputs_apart_of_list {pool : List PendingTxState} {x : PendingTxState}
    {done : List TransactionV1} (hs : OutputsSound done utxos)
    (h : validateAndApplyList s epoch height operations (pool ++ [x]) utxos = .ok result)
    (hcollision : CollisionFree (done ++ pool.map (·.toTransactionForNetwork s.networkId))) :
    ∀ p ∈ pool, ∀ o ∈ p.outpoints, o ∉ x.outpoints := by
  rcases validateAndApplyList_append.mp h with ⟨v, w, middle, hpool, hlast, -⟩
  rcases validateAndApplyList_singleton.mp hlast with ⟨_, hx, -⟩
  rcases appliedTx_of_pending hx with ⟨spent, -, happlied⟩
  have hsound := (hs.list hpool hcollision).1
  intro p hp o ho hox
  -- the output is live after the others, because the last one finds it
  have hlive : o ∈ liveOutpoints middle := by
    rw [← outpoints_toTransaction x s.networkId,
      TransactionV1.outpoints_of_inputs happlied.inputs] at hox
    rcases List.mem_map.mp hox with ⟨u, hu, rfl⟩
    exact List.mem_map_of_mem (Keyed.mem_of_lookup (happlied.found u hu))
  have hrecord : p.toTransactionForNetwork s.networkId ∈
      done ++ pool.map (·.toTransactionForNetwork s.networkId) :=
    List.mem_append_right _ (List.mem_map_of_mem hp)
  refine hsound.recorded.spent _ hrecord o ?_ hlive
  rw [outpoints_toTransaction]
  exact ho

end Lists

/-! ## Ordinary transactions -/

section Ordinary

variable [Crypto] {s : DevnetState} {epoch height : UInt64} {utxos utxos' : List UtxoState}
  {operations : List ProtocolOperationV1} {p : PendingTxState} {v : ValidatedTx}

/-- Where no operation is a claim, every transaction is an ordinary one. -/
theorem validateAndApplyPending_ordinary_eq_ok
    (hordinary : ∀ op ∈ operations, op.opType ≠ opDividendClaim) :
    validateAndApplyPending s epoch height operations utxos p = .ok (v, utxos') ↔
      checkEnvelope s.networkId epoch p (p.toTransactionForNetwork s.networkId) = .ok () ∧
        ∃ spent, ValidSpend s.baseFeeRateQ32 utxos height (p.toTransactionForNetwork s.networkId)
            spent v.fee v.baseFee ∧
          v.pending = p ∧ v.tx = p.toTransactionForNetwork s.networkId ∧
          utxos' = afterSpend utxos spent (p.toTransactionForNetwork s.networkId) epoch height := by
  have hnone : ∀ txid, Dividends.claimOperationForTx operations txid = .ok none := by
    intro txid
    have hclaims : operations.filter (fun op => op.opType == opDividendClaim) = [] := by
      simpa using hordinary
    rw [Dividends.claimOperationForTx, hclaims]
    rfl
  simp only [validateAndApplyPending, ok_rules, hnone, Prod.mk.injEq, exists_eq_left', Prod.exists,
    applyOrdinary_eq_ok]
  constructor
  · rintro ⟨_, henvelope, fee, baseFee, _, ⟨spent, hvalid, rfl⟩, rfl, rfl⟩
    exact ⟨henvelope, spent, hvalid, rfl, rfl, rfl⟩
  · rintro ⟨henvelope, spent, hvalid, hp, htx, rfl⟩
    refine ⟨(), henvelope, v.fee, v.baseFee, _, ⟨spent, hvalid, rfl⟩, ?_, rfl⟩
    cases v
    simp only at hp htx
    rw [hp, htx]

omit [Crypto] in
theorem no_claims : ∀ op ∈ ([] : List ProtocolOperationV1), op.opType ≠ opDividendClaim := by
  simp

theorem witnesses_of_checkEnvelope {networkId : UInt32} {tx : TransactionV1}
    (h : checkEnvelope networkId epoch p tx = .ok ()) :
    tx.witnesses.length = tx.core.inputs.length ∧ tx.core.inputs.length ≤ 1024 := by
  simp only [checkEnvelope, ok_rules, not_or, not_lt, not_not] at h
  rcases h with ⟨_, -, _, -, _, -, _, ⟨-, -, hcount, -⟩, hlength⟩
  exact ⟨hlength, hcount⟩

/-- A spend is valid wherever the outputs it spends are found. -/
theorem ValidSpend.of_found {rate fee baseFee : UInt64} {spent : List UtxoState}
    {tx : TransactionV1} (h : ValidSpend rate utxos height tx spent fee baseFee)
    (hfound : ∀ u ∈ spent, findUtxo utxos' u.outpoint = some u) :
    ValidSpend rate utxos' height tx spent fee baseFee := by
  have hinputs : ∀ {entries : List ((TxInput × WitnessV1) × Nat)} {us : List UtxoState},
      List.Forall₂ (SpendsInput utxos height tx.txid) entries us →
      (∀ u ∈ us, findUtxo utxos' u.outpoint = some u) →
      List.Forall₂ (SpendsInput utxos' height tx.txid) entries us := by
    intro entries us hus
    induction hus with
    | nil => exact fun _ => .nil
    | cons hu _ ih =>
      intro hall
      rw [List.forall_mem_cons] at hall
      exact .cons ⟨hu.input, hall.1, hu.mature, hu.payable, hu.signed⟩ (ih hall.2)
  exact { h with inputs := hinputs h.inputs hfound }

theorem findUtxo_afterSpend {spent : List UtxoState} {tx : TransactionV1} {o : OutPoint}
    {u : UtxoState} (h : findUtxo utxos o = some u) (hkept : o ∉ spent.map UtxoState.outpoint) :
    findUtxo (afterSpend utxos spent tx epoch height) o = some u := by
  have hplace : o.stored ∉ (spent.map UtxoState.outpoint).map OutPoint.stored := by
    intro hmem
    rcases List.mem_map.mp hmem with ⟨p, hp, heq⟩
    rw [OutPoint.stored_inj.mp heq] at hp
    exact hkept hp
  have hrest : findUtxo (Keyed.removeAll UtxoState.place
      ((spent.map UtxoState.outpoint).map OutPoint.stored) utxos) o = some u := by
    rw [← h]
    exact Keyed.lookup_removeAll_of_notMem hplace
  unfold afterSpend
  rw [findUtxo] at hrest ⊢
  rw [Keyed.lookup_append, hrest]
  rfl

variable {pool : List PendingTxState}

/-- An output that no transaction of a list spends is found after it. -/
theorem findUtxo_list {validated : List ValidatedTx} {o : OutPoint} {u : UtxoState}
    (h : validateAndApplyList s epoch height operations pool utxos = .ok (validated, utxos'))
    (hfound : findUtxo utxos o = some u) (hapart : ∀ p ∈ pool, o ∉ p.outpoints) :
    findUtxo utxos' o = some u := by
  induction pool generalizing utxos validated with
  | nil =>
    simp only [validateAndApplyList, Except.ok.injEq, Prod.mk.injEq] at h
    exact h.2 ▸ hfound
  | cons p pool ih =>
    simp only [validateAndApplyList, ok_rules, Prod.mk.injEq, Prod.exists] at h
    rcases h with ⟨_, middle, hhead, _, _, htail, -, rfl⟩
    rcases appliedTx_of_pending hhead with ⟨spent, -, happlied⟩
    rw [List.forall_mem_cons] at hapart
    refine ih htail ?_ hapart.2
    rw [happlied.result]
    apply findUtxo_afterSpend hfound
    rw [← TransactionV1.outpoints_of_inputs happlied.inputs, outpoints_toTransaction]
    exact hapart.1

/-- A transaction that is valid alone is valid after others that spend nothing it spends. -/
theorem validateAndApplyList_concat {x : PendingTxState} {middle : List UtxoState}
    {validated : List ValidatedTx} {alone : List ValidatedTx × List UtxoState}
    (hpool : validateAndApplyList s epoch height [] pool utxos = .ok (validated, middle))
    (halone : validateAndApplyList s epoch height [] [x] utxos = .ok alone)
    (hapart : ∀ p ∈ pool, ∀ o ∈ p.outpoints, o ∉ x.outpoints) :
    ∃ result, validateAndApplyList s epoch height [] (pool ++ [x]) utxos = .ok result := by
  rcases validateAndApplyList_singleton.mp halone with ⟨v, hx, -⟩
  rcases (validateAndApplyPending_ordinary_eq_ok no_claims).mp hx with ⟨henvelope, spent, hvalid, hp, htx, -⟩
  have hwitnesses := (witnesses_of_checkEnvelope henvelope).1
  have hfound : ∀ u ∈ spent, findUtxo middle u.outpoint = some u := by
    intro u hu
    refine findUtxo_list hpool (SpendsInput.found_of_forall hvalid.inputs u hu) ?_
    intro p hp' ho
    refine hapart p hp' _ ho ?_
    rw [← outpoints_toTransaction x s.networkId,
      TransactionV1.outpoints_of_inputs (hvalid.inputs_eq hwitnesses)]
    exact List.mem_map_of_mem hu
  have hafter := (validateAndApplyPending_ordinary_eq_ok no_claims).mpr
    ⟨henvelope, spent, hvalid.of_found hfound, hp, htx, rfl⟩
  exact ⟨(validated ++ [v], _), validateAndApplyList_append.mpr
    ⟨validated, [v], middle, hpool, validateAndApplyList_singleton.mpr ⟨v, hafter, rfl⟩, rfl⟩⟩

/-- Without operations the loop does not read the pool of the state. -/
theorem validateAndApplyList_mempool (s : DevnetState) (mempool : List PendingTxState)
    (epoch height : UInt64) (pool : List PendingTxState) (utxos : List UtxoState) :
    validateAndApplyList { s with mempool := mempool } epoch height [] pool utxos =
      validateAndApplyList s epoch height [] pool utxos := by
  have hone : ∀ us p, validateAndApplyPending { s with mempool := mempool } epoch height [] us p =
      validateAndApplyPending s epoch height [] us p := fun _ _ => rfl
  induction pool generalizing utxos with
  | nil => rfl
  | cons p pool ih => simp only [validateAndApplyList, hone, ih]

/-- An ordinary transaction has no witness of the protocol. -/
theorem noAuth_of_pending (h : validateAndApplyPending s epoch height [] utxos p = .ok (v, utxos'))
    :
    p.hasProtocolAuthWitness = false := by
  rcases (validateAndApplyPending_ordinary_eq_ok no_claims).mp h with ⟨henvelope, spent, hvalid, -⟩
  have hlength := (witnesses_of_checkEnvelope henvelope).1
  have hkeys : ∀ {entries : List ((TxInput × WitnessV1) × Nat)} {us : List UtxoState} {txid},
      List.Forall₂ (SpendsInput utxos height txid) entries us →
      ∀ w ∈ entries.map (fun e => e.1.2), w.witnessType = witnessPubkeyHash := by
    intro entries us txid hus
    induction hus with
    | nil => simp
    | cons hu _ ih =>
      rw [List.map_cons, List.forall_mem_cons]
      rcases hu.signed with ⟨address, -, hsigned⟩
      simp only [verifyPubkeyHashWitness, ok_rules, not_or, not_not] at hsigned
      rcases hsigned with ⟨_, ⟨htype, -⟩, -⟩
      exact ⟨htype, ih⟩
  have hwitnesses : (((p.toTransactionForNetwork s.networkId).core.inputs.zip
      (p.toTransactionForNetwork s.networkId).witnesses).zipIdx).map (fun e => e.1.2) =
      p.witnesses := by
    have hcomp : (fun e : (TxInput × WitnessV1) × Nat => e.1.2) = Prod.snd ∘ Prod.fst := rfl
    rw [hcomp, ← List.map_map, List.zipIdx_map_fst, List.map_snd_zip hlength.le]
    rfl
  have hall := hkeys hvalid.inputs
  rw [hwitnesses] at hall
  simp only [PendingTxState.hasProtocolAuthWitness, List.any_eq_false, beq_iff_eq]
  intro w hw hauth
  have htype := hall w hw
  rw [hauth] at htype
  exact absurd htype (by decide)

theorem noAuth_of_list {result : List ValidatedTx × List UtxoState}
    (h : validateAndApplyList s epoch height [] pool utxos = .ok result) :
    ∀ p ∈ pool, p.hasProtocolAuthWitness = false := by
  induction pool generalizing utxos result with
  | nil => simp
  | cons p pool ih =>
    simp only [validateAndApplyList, bind_eq_ok, Prod.exists] at h
    rcases h with ⟨_, _, hhead, _, _, htail, -⟩
    rw [List.forall_mem_cons]
    exact ⟨noAuth_of_pending hhead, ih htail⟩

/-- The pool of a state, validated for the next block. -/
def PoolValid (s : DevnetState) (pool : List PendingTxState) : Prop :=
  ∃ result, validateAndApplyList s (nextMineableEpoch s) (s.height + 1) [] pool s.utxos = .ok result

theorem PoolValid.mempool_iff {mempool : List PendingTxState} :
    PoolValid { s with mempool := mempool } pool ↔ PoolValid s pool := by
  unfold PoolValid
  have hepoch : nextMineableEpoch { s with mempool := mempool } = nextMineableEpoch s := rfl
  rw [hepoch]
  simp only [validateAndApplyList_mempool]

/-- The admission of a transaction without a witness of the protocol. -/
theorem validatePendingCandidate_eq_ok {allow : Bool} (hauth : p.hasProtocolAuthWitness = false) :
    validatePendingCandidate s p allow = .ok () ↔
      (p.hasLicensePaymentOutput = true → allow = true) ∧ alreadyKnown s p.txid = false ∧
        PoolValid s (s.mempool ++ [p]) := by
  have hlist : PoolValid s (s.mempool ++ [p]) ↔
      PoolValid { s with mempool := s.mempool ++ [p] } (s.mempool ++ [p]) :=
    PoolValid.mempool_iff.symm
  rw [hlist]
  simp only [validatePendingCandidate, hauth, Bool.false_eq_true, false_and, if_false, ok_rules,
    not_false_eq_true, true_and, not_and, Bool.not_eq_false, Bool.not_eq_true, exists_const,
    and_true, validateAndApplyMempool, PoolValid]

end Ordinary

/-! ## The rebuilt pool -/

section Restore

variable [Crypto]

/-- A transaction of the pool that was admitted when only those before it were there. -/
def AdmittedOnto (s : DevnetState) (x : PendingTxState) : Prop :=
  ∃ before after, s.mempool = before ++ x :: after ∧
    validateReceivedPending { s with mempool := before } x = .ok ()

/-- What an admission checked. -/
structure Admission (s : DevnetState) (before : List PendingTxState) (x : PendingTxState) :
    Prop where
  ordinary : ∀ p ∈ before ++ [x], p.hasProtocolAuthWitness = false
  noPayment : x.hasLicensePaymentOutput = false
  fresh : ∀ p ∈ before, p.txid ≠ x.txid
  valid : PoolValid s (before ++ [x])

theorem admission_of_ok {s : DevnetState} {before : List PendingTxState} {x : PendingTxState}
    (h : validateReceivedPending { s with mempool := before } x = .ok ()) :
    Admission s before x := by
  simp only [validateReceivedPending, bind_eq_ok] at h
  rcases h with ⟨_, -, h⟩
  have hauth : x.hasProtocolAuthWitness = false := by
    simp only [validatePendingCandidate, ok_rules, and_true, Bool.not_eq_true] at h
    rcases h with ⟨_, -, _, hauth, -⟩
    exact hauth
  rcases (validatePendingCandidate_eq_ok hauth).mp h with ⟨hpayment, hknown, hvalid⟩
  have hpool : PoolValid s (before ++ [x]) := PoolValid.mempool_iff.mp hvalid
  constructor
  · rcases hpool with ⟨_, hlist⟩
    exact noAuth_of_list hlist
  · simpa using hpayment
  · intro p hp heq
    simp only [alreadyKnown, Bool.or_eq_false_iff, List.any_eq_false, beq_iff_eq] at hknown
    exact hknown.1 p hp heq
  · exact hpool

/-- The loop after it has tried some transactions. -/
structure Restoring (accepted : DevnetState) (tried : List PendingTxState)
    (acc : DevnetState × List Bytes32 × Nat) : Prop where
  frame : acc.1 = { accepted with mempool := acc.1.mempool }
  taken : ∀ p ∈ acc.1.mempool, p ∈ tried
  seen : ∀ id ∈ acc.2.1, id ∈ tried.map (·.txid)
  valid : PoolValid accepted acc.1.mempool

/-- What the loop does with a transaction. -/
theorem restoreTx_cases (bound : List Bytes32) (acc : DevnetState × List Bytes32 × Nat)
    (p : PendingTxState) :
    ((restoreTx bound acc p).1 = acc.1 ∧
        ∀ id ∈ (restoreTx bound acc p).2.1, id = p.txid ∨ id ∈ acc.2.1) ∨
      (validatePendingCandidate acc.1 p true = .ok () ∧
        (restoreTx bound acc p).1 = { acc.1 with mempool := acc.1.mempool ++ [p] } ∧
        (restoreTx bound acc p).2.1 = p.txid :: acc.2.1) := by
  rcases acc with ⟨adopted, seen, restored⟩
  simp only [restoreTx]
  split
  · exact Or.inl ⟨rfl, fun id => Or.inr⟩
  · split
    · exact Or.inl ⟨rfl, fun id => List.mem_cons.mp⟩
    · split
      next hok => exact Or.inr ⟨hok, rfl, rfl⟩
      · exact Or.inl ⟨rfl, fun id => List.mem_cons.mp⟩

theorem Restoring.step {accepted : DevnetState} {tried : List PendingTxState}
    {acc : DevnetState × List Bytes32 × Nat} {bound : List Bytes32} {p : PendingTxState}
    (h : Restoring accepted tried acc) (hauth : p.hasProtocolAuthWitness = false) :
    Restoring accepted (tried ++ [p]) (restoreTx bound acc p) := by
  have htaken : ∀ q ∈ acc.1.mempool, q ∈ tried ++ [p] := fun q hq =>
    List.mem_append_left _ (h.taken q hq)
  have hseen : ∀ id, id = p.txid ∨ id ∈ acc.2.1 → id ∈ (tried ++ [p]).map (·.txid) := by
    rw [List.map_append]
    rintro id (rfl | hid)
    · exact List.mem_append_right _ (List.mem_singleton_self _)
    · exact List.mem_append_left _ (h.seen id hid)
  rcases restoreTx_cases bound acc p with ⟨hsame, hids⟩ | ⟨hok, hresult, hids⟩
  · exact ⟨hsame ▸ h.frame, hsame ▸ htaken, fun id hid => hseen id (hids id hid), hsame ▸ h.valid⟩
  · -- the candidate was validated behind everything taken so far
    rcases (validatePendingCandidate_eq_ok hauth).mp hok with ⟨-, -, hvalid⟩
    rw [h.frame] at hvalid
    refine ⟨?_, ?_, ?_, ?_⟩
    · rw [hresult, h.frame]
    · rw [hresult]
      intro q hq
      rcases List.mem_append.mp hq with hq | hq
      · exact htaken q hq
      · exact List.mem_append_right _ hq
    · rw [hids]
      exact fun id hid => hseen id (List.mem_cons.mp hid)
    · rw [hresult]
      exact PoolValid.mempool_iff.mp hvalid

theorem Restoring.run {accepted : DevnetState} {tried : List PendingTxState}
    {acc : DevnetState × List Bytes32 × Nat} {bound : List Bytes32} {pool : List PendingTxState}
    (h : Restoring accepted tried acc) (hauth : ∀ p ∈ pool, p.hasProtocolAuthWitness = false) :
    Restoring accepted (tried ++ pool) (pool.foldl (restoreTx bound) acc) := by
  induction pool generalizing tried acc with
  | nil => simpa using h
  | cons p pool ih =>
    rw [List.forall_mem_cons] at hauth
    have hrest := ih (@Restoring.step _ _ _ _ bound p h hauth.1) hauth.2
    simpa using hrest

/-- A transaction that is valid alone is taken, if what was tried before spends nothing it
spends. -/
theorem Restoring.takes {accepted : DevnetState} {tried : List PendingTxState}
    {acc : DevnetState × List Bytes32 × Nat} {bound : List Bytes32} {x : PendingTxState}
    (h : Restoring accepted tried acc) (hauth : x.hasProtocolAuthWitness = false)
    (hpayment : x.hasLicensePaymentOutput = false) (hfresh : ∀ p ∈ tried, p.txid ≠ x.txid)
    (hunconfirmed : ∀ r ∈ accepted.confirmedTransactions, r.tx.txid ≠ x.txid)
    (hapart : ∀ p ∈ tried, ∀ o ∈ p.outpoints, o ∉ x.outpoints) (halone : PoolValid accepted [x]) :
    x ∈ (restoreTx bound acc x).1.mempool := by
  rcases acc with ⟨adopted, seen, restored⟩
  have hframe : adopted = { accepted with mempool := adopted.mempool } := h.frame
  have hconfirmed : adopted.confirmedTransactions = accepted.confirmedTransactions := by
    rw [hframe]
  have hnone : adopted.confirmedTransactions.any (fun r => r.tx.txid == x.txid) = false := by
    simp only [hconfirmed, List.any_eq_false, beq_iff_eq]
    exact hunconfirmed
  have hunseen : x.txid ∉ seen := by
    intro hmem
    rcases List.mem_map.mp (h.seen _ hmem) with ⟨p, hp, heq⟩
    exact hfresh p hp heq
  have hcandidate : validatePendingCandidate adopted x true = .ok () := by
    rw [validatePendingCandidate_eq_ok hauth]
    refine ⟨fun _ => rfl, ?_, ?_⟩
    · simp only [alreadyKnown, hnone, Bool.or_false, List.any_eq_false, beq_iff_eq]
      exact fun p hp => hfresh p (h.taken p hp)
    · rcases h.valid with ⟨⟨validated, middle⟩, hpool⟩
      rcases halone with ⟨alone, hx⟩
      have hafter : PoolValid accepted (adopted.mempool ++ [x]) :=
        validateAndApplyList_concat hpool hx fun p hp => hapart p (h.taken p hp)
      rw [hframe]
      exact PoolValid.mempool_iff.mpr hafter
  have hnew : ¬ (adopted.confirmedTransactions.any (fun r => r.tx.txid == x.txid) = true ∨
      x.txid ∈ seen) := by
    rw [hnone]
    simpa using hunseen
  have hbound : ¬ (x.hasLicensePaymentOutput = true ∧ x.txid ∉ bound) := by
    simp [hpayment]
  simp only [restoreTx, if_neg hnew, if_neg hbound, hcandidate]
  exact List.mem_append_right _ (List.mem_singleton_self x)

/-- What was taken stays. -/
theorem mem_restoreTx {acc : DevnetState × List Bytes32 × Nat} {bound : List Bytes32}
    {x p : PendingTxState} (h : x ∈ acc.1.mempool) : x ∈ (restoreTx bound acc p).1.mempool := by
  rcases restoreTx_cases bound acc p with ⟨hsame, -⟩ | ⟨-, hresult, -⟩
  · rw [hsame]
    exact h
  · rw [hresult]
    exact List.mem_append_left _ h

theorem mem_restoreTxs {acc : DevnetState × List Bytes32 × Nat} {bound : List Bytes32}
    {x : PendingTxState} {pool : List PendingTxState} (h : x ∈ acc.1.mempool) :
    x ∈ (pool.foldl (restoreTx bound) acc).1.mempool := by
  induction pool generalizing acc with
  | nil => exact h
  | cons p pool ih => exact ih (mem_restoreTx h)

/-- The queue is rebuilt without a change of the pool or the chain. -/
theorem restoreOperations_frame {poolIds : List Bytes32} {acc acc' : DevnetState × List Bytes32}
    {queue : List PendingProtocolOperationState}
    (h : queue.foldlM (restoreOperation poolIds) acc = .ok acc') :
    acc'.1 = { acc.1 with pendingProtocolOperations := acc'.1.pendingProtocolOperations } := by
  induction queue generalizing acc with
  | nil =>
    rw [List.foldlM_nil, pure_eq_ok] at h
    rw [h]
  | cons p queue ih =>
    rw [List.foldlM_cons, bind_eq_ok] at h
    rcases h with ⟨middle, hhead, htail⟩
    have hone : middle.1 = { acc.1 with
        pendingProtocolOperations := middle.1.pendingProtocolOperations } := by
      rcases acc with ⟨adopted, seen⟩
      simp only [restoreOperation] at hhead
      split at hhead
      · cases hhead
        rfl
      · simp only [bind_eq_ok] at hhead
        rcases hhead with ⟨op, -, hhead⟩
        split at hhead
        · cases hhead
          rfl
        · simp only [bind_eq_ok] at hhead
          rcases hhead with ⟨_, -, hhead⟩
          split at hhead <;> cases hhead <;> rfl
    rw [ih htail, hone]

/-- The announcements of presence change the queue only. -/
theorem refreshPresences_frame (acc : DevnetState × List Bytes32)
    (queue : List PendingProtocolOperationState) :
    (queue.foldl refreshPresence acc).1 = { acc.1 with
      pendingProtocolOperations := (queue.foldl refreshPresence acc).1.pendingProtocolOperations } := by
  induction queue generalizing acc with
  | nil => rfl
  | cons p queue ih =>
    have hone : (refreshPresence acc p).1 = { acc.1 with
        pendingProtocolOperations := (refreshPresence acc p).1.pendingProtocolOperations } := by
      rcases acc with ⟨accepted, seen⟩
      simp only [refreshPresence]
      split
      · rfl
      · split
        · rfl
        · split
          · rfl
          · split <;> rfl
    rw [List.foldl_cons, ih, hone]

/-- The transactions of the old pool, and then those of the disconnected blocks, go through
the loop; the result is what it takes and what operations need. -/
theorem restoreReorgMempool_eq_ok {adopted oldLocal result : DevnetState} {commonHeight : UInt64}
    {restored : Nat} (h : restoreReorgMempool adopted oldLocal commonHeight = .ok (result, restored)) :
    ∃ bound disconnected taken, taken =
        ((oldLocal.mempool ++ disconnected).foldl (restoreTx bound) (adopted, [], 0)).1 ∧
      result = { taken with
        mempool := result.mempool
        pendingProtocolOperations := result.pendingProtocolOperations } ∧
      ∀ x ∈ taken.mempool, x.hasProtocolAuthWitness = false → x ∈ result.mempool := by
  simp only [restoreReorgMempool, ok_rules, Prod.mk.injEq] at h
  rcases h with ⟨blocks, -, ⟨queued, _⟩, hqueue, rfl, -⟩
  have hframe := restoreOperations_frame hqueue
  refine ⟨requiredTxids (oldLocal.pendingProtocolOperations ++ blocks.flatMap (·.2)),
    blocks.flatMap (·.1), _, rfl, ?_, ?_⟩
  · simp only at hframe ⊢
    rw [hframe]
  · intro x hx hauth
    simp only at hframe ⊢
    rw [hframe, List.mem_filter]
    exact ⟨hx, by simp [hauth]⟩

/-- Every step of the loop leaves the chain alone. -/
theorem restoreTxs_frame (bound : List Bytes32) (pool : List PendingTxState)
    (acc : DevnetState × List Bytes32 × Nat) :
    (pool.foldl (restoreTx bound) acc).1 = { acc.1 with
      mempool := (pool.foldl (restoreTx bound) acc).1.mempool } := by
  induction pool generalizing acc with
  | nil => rfl
  | cons p pool ih =>
    have hone : (restoreTx bound acc p).1 = { acc.1 with
        mempool := (restoreTx bound acc p).1.mempool } := by
      rcases restoreTx_cases bound acc p with ⟨hsame, -⟩ | ⟨-, hresult, -⟩
      · rw [hsame]
      · rw [hresult]
    rw [List.foldl_cons, ih, hone]

/-- What replaces a chain has its chain, and a pool and a queue of its own. -/
theorem refreshPendingAfterRuntimeCommit_frame {accepted current result : DevnetState}
    (h : refreshPendingAfterRuntimeCommit accepted current = .ok result) :
    result = { accepted with
      mempool := result.mempool
      pendingProtocolOperations := result.pendingProtocolOperations } := by
  simp only [refreshPendingAfterRuntimeCommit, ok_rules] at h
  rcases h with ⟨⟨restored, _⟩, hrestore, rfl⟩
  rcases restoreReorgMempool_eq_ok hrestore with ⟨bound, disconnected, taken, htaken, hframe, -⟩
  rw [restoreTxs_frame] at htaken
  rw [refreshPresences_frame]
  simp only
  rw [hframe, htaken]

/-- An admitted transaction that is valid alone on the chain that replaces the current one
is in the rebuilt pool. -/
theorem refresh_keeps_admitted {accepted current result : DevnetState} {x : PendingTxState}
    {done : List TransactionV1} (hadmitted : AdmittedOnto current x)
    (hledger : OutputsSound done current.utxos)
    (hcollision : CollisionFree
      (done ++ current.mempool.map (·.toTransactionForNetwork current.networkId)))
    (h : refreshPendingAfterRuntimeCommit accepted current = .ok result)
    (halone : validatePendingCandidate { result with mempool := [] } x false = .ok ()) :
    x ∈ result.mempool := by
  rcases hadmitted with ⟨before, after, hpool, hreceive⟩
  have hadmission := admission_of_ok hreceive
  have hauth : x.hasProtocolAuthWitness = false :=
    hadmission.ordinary x (List.mem_append_right _ (List.mem_singleton_self x))
  -- nothing before it spends what it spends
  have hapart : ∀ p ∈ before, ∀ o ∈ p.outpoints, o ∉ x.outpoints := by
    rcases hadmission.valid with ⟨_, hlist⟩
    refine inputs_apart_of_list hledger hlist fun a ha b hb => ?_
    have hsub : ∀ tx ∈ done ++ before.map (·.toTransactionForNetwork current.networkId),
        tx ∈ done ++ current.mempool.map (·.toTransactionForNetwork current.networkId) := by
      intro tx htx
      rw [hpool, List.map_append]
      rcases List.mem_append.mp htx with htx | htx
      · exact List.mem_append_left _ htx
      · exact List.mem_append_right _ (List.mem_append_left _ htx)
    exact hcollision a (hsub a ha) b (hsub b hb)
  have hresult := refreshPendingAfterRuntimeCommit_frame h
  simp only [refreshPendingAfterRuntimeCommit, ok_rules] at h
  rcases h with ⟨⟨restored, _⟩, hrestore, rfl⟩
  rcases restoreReorgMempool_eq_ok hrestore with ⟨bound, disconnected, taken, htaken, -, hkept⟩
  rw [refreshPresences_frame]
  refine hkept x ?_ hauth
  rcases (validatePendingCandidate_eq_ok hauth).mp halone with ⟨-, hunknown, hvalid⟩
  rw [hresult] at hunknown hvalid
  simp only [alreadyKnown, List.any_nil, Bool.false_or, List.any_eq_false, beq_iff_eq] at hunknown
  have hstart : Restoring { accepted with mempool := [], pendingProtocolOperations := [] } []
      ({ accepted with mempool := [], pendingProtocolOperations := [] }, [], 0) :=
    ⟨rfl, fun _ h => h, fun _ h => absurd h List.not_mem_nil, ⟨([], accepted.utxos), rfl⟩⟩
  have hbefore := @Restoring.run _ _ _ _ bound before hstart fun p hp =>
    hadmission.ordinary p (List.mem_append_left _ hp)
  rw [List.nil_append] at hbefore
  rw [htaken, hpool, List.append_assoc, List.append_assoc, List.foldl_append, List.cons_append,
    List.foldl_cons]
  exact mem_restoreTxs (hbefore.takes hauth hadmission.noPayment hadmission.fresh hunknown hapart
    hvalid)

end Restore

end Mutiny
