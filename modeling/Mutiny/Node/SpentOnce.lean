import Mutiny.Node.SyncCommit

/-!
# No output is spent twice

Every output a transaction spends is live when it is applied, and what earlier transactions
spent is not live any more.

Main result:

- Theorem {lit}`outputs_spent_once`: no chain spends an output twice.
-/

namespace Mutiny

open Result

section Chains

variable [Crypto] {done : List TransactionV1} {s : DevnetState}
  {operations : List ProtocolOperationV1}

/-- No two inputs of the transactions name one output. -/
def SpentOnce (txs : List TransactionV1) : Prop := (txs.flatMap TransactionV1.outpoints).Nodup

theorem SpentOnce.applied {utxos utxos' spent : List UtxoState} {tx : TransactionV1}
    {epoch height : UInt64} (honce : SpentOnce done) (hs : OutputsSound done utxos)
    (happlied : AppliedTx utxos tx spent epoch height utxos') : SpentOnce (done ++ [tx]) := by
  have houtpoints := TransactionV1.outpoints_of_inputs happlied.inputs
  rw [SpentOnce, List.flatMap_append, List.flatMap_singleton, List.nodup_append', houtpoints]
  refine ⟨honce, happlied.distinct, fun o hold hnew => ?_⟩
  rcases List.mem_flatMap.mp hold with ⟨b, hb, ho⟩
  rcases List.mem_map.mp hnew with ⟨u, hu, rfl⟩
  have hlive := Keyed.mem_of_lookup (happlied.found u hu)
  exact hs.recorded.spent b hb _ ho (List.mem_map_of_mem hlive)

/-- The transactions of a list, in order. -/
theorem SpentOnce.list {utxos utxos' : List UtxoState} {epoch height : UInt64}
    {pool : List PendingTxState} {validated : List ValidatedTx} (honce : SpentOnce done)
    (hs : OutputsSound done utxos)
    (h : validateAndApplyList s epoch height operations pool utxos = .ok (validated, utxos'))
    (hcollision : CollisionFree (done ++ pool.map (·.toTransactionForNetwork s.networkId))) :
    SpentOnce (done ++ pool.map (·.toTransactionForNetwork s.networkId)) := by
  induction pool generalizing done utxos validated with
  | nil => simpa using honce
  | cons pending pool ih =>
    simp only [validateAndApplyList, ok_rules, Prod.mk.injEq] at h
    rcases h with ⟨⟨v, utxos₁⟩, hhead, ⟨vs, utxos₂⟩, htail, -, rfl⟩
    rcases appliedTx_of_pending hhead with ⟨spent, hsome, happlied⟩
    rw [List.map_cons, ← List.singleton_append, ← List.append_assoc] at hcollision ⊢
    have hnext := hs.applied hsome happlied hcollision.left
    exact ih (honce.applied hs happlied) hnext.2 htail hcollision

/-- A coinbase spends nothing, so a block spends what its other transactions spend. -/
theorem SpentOnce.acceptedBlock {next : DevnetState} {header : HeaderV1} {coinbase : TransactionV1}
    {ordinary : List TransactionV1} {license : LicenseState} {b : BodyValues}
    (honce : SpentOnce done) (hs : LedgerSound done s)
    (hb : AcceptedBlock s header coinbase ordinary operations next license b)
    (hcollision : CollisionFree (done ++ (coinbase :: ordinary))) :
    SpentOnce (done ++ (coinbase :: ordinary)) := by
  have hutxos : next.utxos = s.utxos := by
    rw [advanceToBlock_frame hb.advanced]
    rfl
  rcases commitment_of_checkCoinbase hb.body.minted with ⟨c, hinputs, -⟩
  have hnone : coinbase.outpoints = [] := by
    rw [TransactionV1.outpoints, hinputs]
    rfl
  have hsub : ∀ tx ∈ done ++ ordinary, tx ∈ done ++ (coinbase :: ordinary) := by
    intro tx htx
    simp only [List.mem_append, List.mem_cons] at htx ⊢
    tauto
  have htxs := toTransactions_pendingFromTransaction hb.body.records
  have hlist := honce.list (hutxos ▸ hs.outputs) hb.body.spends <| by
    rw [htxs]
    exact fun a ha b hb => hcollision a (hsub a ha) b (hsub b hb)
  rw [htxs] at hlist
  simpa [SpentOnce, hnone] using hlist

/-- Over every run of blocks and empty epochs whose transactions have no colliding
identifiers, from a state whose outputs are on record: no output is spent twice, and the
unspent outputs of the end are distinct and were never spent. -/
theorem outputs_spent_once {founding : List TransactionV1} {s₀ : DevnetState}
    (hs : LedgerSound founding s₀) (honce : SpentOnce founding) (hrun : LedgerRun s₀ done s)
    (hcollision : CollisionFree (founding ++ done)) :
    SpentOnce (founding ++ done) ∧ (s.utxos.map UtxoState.outpoint).Nodup ∧
      ∀ tx ∈ founding ++ done, ∀ u ∈ s.utxos, u.outpoint ∉ tx.outpoints := by
  have hsound := (hs.run hrun hcollision).outputs
  refine ⟨?_, hsound.distinct, fun tx htx u hu ho => hsound.recorded.spent tx htx _ ho
    (List.mem_map_of_mem hu)⟩
  clear hsound
  induction hrun with
  | start => simpa using honce
  | empty _ _ ih => exact ih hcollision
  | block run h ih =>
    rw [← List.append_assoc] at hcollision ⊢
    have hbefore := hcollision.left
    rcases validateAndApplyBlock_cases h with
      ⟨hboot, -⟩ | ⟨hboot, coinbase, ordinary, next, license, b, rfl, hb, rfl⟩
    · rw [appliedTxs, if_pos hboot, List.append_nil]
      exact ih hbefore
    · rw [appliedTxs, hboot, if_neg Bool.false_ne_true] at hcollision ⊢
      exact (ih hbefore).acceptedBlock (hs.run run hbefore) hb hcollision

/-- A block on the state with one output: a peer mines it with a transaction that spends the
output, and the node receives it. -/
def walletBlock : Except String (LicenseState × List TransactionV1 × List ProtocolOperationV1 ×
    HeaderV1 × DevnetState) := do
  let l ← okOr bootstrapLicenseStates.head? "no licence"
  let s := mainnetWallet l
  let u ← okOr s.utxos.head? "no output"
  let key ← okOr (devSigningKeyForLicense l) "no key"
  let pending ← pendingFromTransaction s (halfBack s.networkId l u)
  let peer ← peerAhead { s with mempool := [pending] } (some (0, durableSigner key.secret))
  let (header, txs, operations) ← peer.block 0
  let s' ← validateAndApplyBlock s header txs operations
  .ok (l, txs, operations, header, s')

end Chains

section Evaluation

attribute [local instance] devnetCrypto

theorem outputs_spent_once_wallet :
    ∃ (l : LicenseState) (founding done : List TransactionV1) (s : DevnetState),
      LedgerRun (mainnetWallet l) done s ∧ done.flatMap TransactionV1.outpoints ≠ [] ∧
      SpentOnce (founding ++ done) := by
  have hcheck : okAnd walletBlock (fun r =>
      decide (((foundingTx r.1 :: r.2.1).map TransactionV1.txid).Nodup ∧
        r.2.1.flatMap TransactionV1.outpoints ≠ [])) = true := by
    decide +kernel
  rcases exists_of_okAnd hcheck with ⟨⟨l, txs, operations, header, s'⟩, hsample, htest⟩
  rcases of_decide_eq_true htest with ⟨hdistinct, hspends⟩
  simp only [walletBlock, ok_rules, Prod.mk.injEq] at hsample
  rcases hsample with ⟨l, -, _, -, _, -, _, -, _, -, ⟨header, txs, operations⟩, -, _, hblock, rfl,
    rfl, rfl, rfl, rfl⟩
  rcases grounded_mainnetWallet (Set.mem_singleton (foundingTx l)) with ⟨founding, hall, hledger⟩
  have hnone : founding.flatMap TransactionV1.outpoints = [] :=
    List.flatMap_eq_nil_iff.mpr fun tx htx => (hall tx htx) ▸ rfl
  have hknown : ∀ tx ∈ founding ++ ([] ++ txs), tx ∈ foundingTx l :: txs := by
    intro tx htx
    rcases List.mem_append.mp htx with htx | htx
    · exact (hall tx htx) ▸ List.mem_cons_self
    · exact List.mem_cons_of_mem _ htx
  have hcollision := collisionFree_of_nodup hdistinct
  have hrun : LedgerRun (mainnetWallet l) ([] ++ txs) _ := .block .start hblock
  exact ⟨l, founding, _, _, hrun, hspends, (outputs_spent_once hledger
    (by rw [SpentOnce, hnone]; exact List.nodup_nil) hrun
    fun a ha b hb => hcollision a (hknown a ha) b (hknown b hb)).1⟩

end Evaluation

end Mutiny
