import Mutiny.Node.Mempool

/-!
# What a validated transaction does

The validation loops described by what they accept: which outputs a transaction
spends, what it must pay, and which unspent outputs are left afterwards.
-/

namespace Mutiny

open Result

/-- The sum of the amounts of outputs. -/
def outputsValue (outputs : List TxOutput) : Nat :=
  (outputs.map fun o => o.amountStrikes.toNat).sum

@[simp]
theorem utxoSupply_append (us vs : List UtxoState) :
    utxoSupply (us ++ vs) = utxoSupply us + utxoSupply vs := by
  simp [utxoSupply]

theorem utxoSupply_perm {us vs : List UtxoState} (h : us.Perm vs) :
    utxoSupply us = utxoSupply vs :=
  (h.map _).sum_eq

variable {overflow : String}

theorem addStrikes_eq_ok {acc amount acc' : UInt64} :
    addStrikes overflow acc amount = .ok acc' ↔ acc'.toNat = acc.toNat + amount.toNat := by
  rw [addStrikes, okOr_eq_ok, UInt64.checkedAdd_eq_some]

/-- A checked sum succeeds exactly when the whole sum fits. -/
theorem addStrikes_foldlM_eq_ok {acc acc' : UInt64} {amounts : List UInt64} :
    amounts.foldlM (addStrikes overflow) acc = .ok acc' ↔
      acc'.toNat = acc.toNat + (amounts.map UInt64.toNat).sum := by
  induction amounts generalizing acc with
  | nil =>
    rw [List.foldlM_nil, pure_eq_ok, ← UInt64.toNat_inj, eq_comm]
    simp
  | cons amount amounts ih =>
    rw [List.foldlM_cons, bind_eq_ok]
    simp only [addStrikes_eq_ok, ih, List.map_cons, List.sum_cons]
    constructor
    · rintro ⟨next, hnext, hsum⟩
      omega
    · intro hsum
      have hbound := acc'.toNat_lt
      have hfits : (UInt64.ofNat (acc.toNat + amount.toNat)).toNat = acc.toNat + amount.toNat := by
        rw [UInt64.toNat_ofNat', Nat.mod_eq_of_lt (by omega)]
      exact ⟨UInt64.ofNat (acc.toNat + amount.toNat), hfits, by omega⟩

/-! ## Removing and creating outputs -/

theorem place_of_findUtxo {utxos : List UtxoState} {o : OutPoint} {u : UtxoState}
    (h : findUtxo utxos o = some u) : u.place = o.stored :=
  Keyed.key_of_lookup h

/-- An output that is found is the one the outpoint denotes. -/
theorem outpoint_of_findUtxo {utxos : List UtxoState} {o : OutPoint} {u : UtxoState}
    (h : findUtxo utxos o = some u) : u.outpoint = o := by
  rw [UtxoState.outpoint, place_of_findUtxo h, OutPoint.outpoint_stored]

theorem nodup_places {utxos : List UtxoState} (h : (utxos.map UtxoState.outpoint).Nodup) :
    (utxos.map UtxoState.place).Nodup := by
  have hmap : utxos.map UtxoState.outpoint =
      (utxos.map UtxoState.place).map StoredTxInput.outpoint := by
    rw [List.map_map]
    rfl
  rw [hmap] at h
  exact h.of_map

/-- Among distinct outpoints, an output is found exactly when its text is in lower case. -/
theorem findUtxo_outpoint_iff {utxos : List UtxoState} {u : UtxoState}
    (hdistinct : (utxos.map UtxoState.outpoint).Nodup) (hu : u ∈ utxos) :
    findUtxo utxos u.outpoint = some u ↔ u.txid.IsLower := by
  have hplace : u.place = u.outpoint.stored ↔ u.txid.IsLower := by
    rw [UtxoState.outpoint, UtxoState.place, OutPoint.stored, StoredTxInput.outpoint,
      StoredTxInput.mk.injEq, HexText.eq_encode]
    simp
  constructor
  · intro hfound
    exact hplace.mp (place_of_findUtxo hfound)
  · intro hlower
    rw [findUtxo, ← hplace.mpr hlower]
    exact Keyed.lookup_of_mem (nodup_places hdistinct) hu

/-- The unspent outputs without those that distinct outpoints name. -/
theorem removeUtxos_eq_ok {missing : String} {utxos rest : List UtxoState}
    {consumed : List OutPoint} (hdistinct : consumed.Nodup) :
    removeUtxos missing utxos consumed = .ok rest ↔
      (∀ o ∈ consumed, findUtxo utxos o ≠ none) ∧
        rest = Keyed.removeAll UtxoState.place (consumed.map OutPoint.stored) utxos := by
  induction consumed generalizing utxos with
  | nil =>
    have hsame : utxos = rest ↔ rest = utxos := eq_comm
    simpa [removeUtxos, Keyed.removeAll] using hsame
  | cons o consumed ih =>
    rw [List.nodup_cons] at hdistinct
    have hkept : ∀ p ∈ consumed,
        findUtxo (Keyed.remove UtxoState.place o.stored utxos) p = findUtxo utxos p := by
      intro p hp
      have hne : p.stored ≠ o.stored := by
        intro heq
        rw [OutPoint.stored_inj.mp heq] at hp
        exact hdistinct.1 hp
      exact Keyed.lookup_remove_of_ne hne
    have htail := @ih (Keyed.remove UtxoState.place o.stored utxos) hdistinct.2
    rw [removeUtxos] at htail
    rw [removeUtxos, List.foldlM_cons, bind_eq_ok]
    simp only [ok_rules]
    constructor
    · rintro ⟨_, ⟨_, hfound, rfl⟩, hrest⟩
      rcases htail.mp hrest with ⟨hothers, hrest⟩
      refine ⟨?_, hrest⟩
      intro p hp
      rcases List.mem_cons.mp hp with rfl | hp
      · exact hfound
      · exact hkept p hp ▸ hothers p hp
    · rintro ⟨hfound, hrest⟩
      refine ⟨_, ⟨(), hfound o List.mem_cons_self, rfl⟩, htail.mpr ⟨?_, hrest⟩⟩
      intro p hp
      rw [hkept p hp]
      exact hfound p (List.mem_cons_of_mem o hp)

/-! ## Ordinary transactions -/

/-- An output an ordinary transaction may have. -/
structure ValidOutput (o : TxOutput) : Prop where
  positive : o.amountStrikes ≠ 0
  supported : o.outputType = outputPubkeyHash ∨ o.outputType = outputLicensePayment
  addressed : o.payload.length = 32

theorem sumOutput_eq_ok {txid : Bytes32} {outputSum outputSum' : Nat} {o : TxOutput} :
    sumOutput txid outputSum o = .ok outputSum' ↔
      ValidOutput o ∧ outputSum' = outputSum + o.amountStrikes.toNat := by
  by_cases hkey : o.outputType = outputPubkeyHash
  · simp only [sumOutput, if_pos hkey, ok_rules, not_not]
    constructor
    · rintro ⟨_, hpos, _, hlen, rfl⟩
      exact ⟨⟨hpos, Or.inl hkey, hlen⟩, rfl⟩
    · rintro ⟨⟨hpos, -, hlen⟩, rfl⟩
      exact ⟨(), hpos, (), hlen, rfl⟩
  · by_cases hpayment : o.outputType = outputLicensePayment
    · simp only [sumOutput, if_neg hkey, if_pos hpayment, ok_rules, not_not]
      constructor
      · rintro ⟨_, hpos, _, hlen, rfl⟩
        exact ⟨⟨hpos, Or.inr hpayment, hlen⟩, rfl⟩
      · rintro ⟨⟨hpos, -, hlen⟩, rfl⟩
        exact ⟨(), hpos, (), hlen, rfl⟩
    · simp only [sumOutput, if_neg hkey, if_neg hpayment, ok_rules]
      constructor
      · rintro ⟨_, _, _, h, _⟩
        cases h
      · rintro ⟨⟨-, hsupported, -⟩, -⟩
        rcases hsupported with h | h
        · exact absurd h hkey
        · exact absurd h hpayment

theorem sumOutputs_eq_ok {txid : Bytes32} {outputSum outputSum' : Nat}
    {outputs : List TxOutput} :
    outputs.foldlM (sumOutput txid) outputSum = .ok outputSum' ↔
      (∀ o ∈ outputs, ValidOutput o) ∧ outputSum' = outputSum + outputsValue outputs := by
  induction outputs generalizing outputSum with
  | nil =>
    rw [List.foldlM_nil, pure_eq_ok, eq_comm]
    simp [outputsValue]
  | cons o outputs ih =>
    rw [List.foldlM_cons, bind_eq_ok]
    simp only [sumOutput_eq_ok, ih, List.forall_mem_cons, outputsValue, List.map_cons,
      List.sum_cons]
    constructor
    · rintro ⟨_, ⟨ho, rfl⟩, hrest, rfl⟩
      exact ⟨⟨ho, hrest⟩, Nat.add_assoc ..⟩
    · rintro ⟨⟨ho, hrest⟩, rfl⟩
      exact ⟨_, ⟨ho, rfl⟩, hrest, (Nat.add_assoc ..).symm⟩

section Spending

variable [Crypto] {utxos : List UtxoState} {height : UInt64} {tx : TransactionV1} {epoch : UInt64}

theorem addOutputsAsUtxos_eq_ok {rest : List UtxoState} {coinbase : Bool} :
    addOutputsAsUtxos utxos tx epoch height coinbase = .ok rest ↔
      tx.core.outputs.length ≤ 2 ^ 16 ∧ rest = utxos ++ createdUtxos tx epoch height coinbase := by
  simp only [addOutputsAsUtxos, ok_rules, not_lt]
  constructor
  · rintro ⟨_, hlen, rfl⟩
    exact ⟨hlen, rfl⟩
  · rintro ⟨hlen, rfl⟩
    exact ⟨(), hlen, rfl⟩

theorem utxoSupply_createdUtxos (tx : TransactionV1) (epoch height : UInt64) (coinbase : Bool) :
    utxoSupply (createdUtxos tx epoch height coinbase) = outputsValue tx.core.outputs := by
  have hmap : (createdUtxos tx epoch height coinbase).map (fun u => u.amountStrikes.toNat) =
      (tx.core.outputs.zipIdx.map Prod.fst).map fun o => o.amountStrikes.toNat := by
    simp only [createdUtxos, List.map_map]
    rfl
  rw [utxoSupply, hmap, List.zipIdx_map_fst, outputsValue]

/-- An input with its witness spends an output: it is there, mature, payable to a
key, and the witness signs for it. -/
structure SpendsInput (utxos : List UtxoState) (height : UInt64) (txid : Bytes32)
    (entry : (TxInput × WitnessV1) × Nat) (u : UtxoState) : Prop where
  input : entry.1.1 = .outpoint u.outpoint
  found : findUtxo utxos u.outpoint = some u
  mature : u.spendableAtHeight height = true
  payable : u.outputType = outputPubkeyHash
  signed : ∃ address, decode32 u.payload = .ok address ∧
    verifyPubkeyHashWitness address (sighashAll txid (UInt16.ofNat entry.2) u.prevout)
      entry.1.2 = .ok ()

variable {txid : Bytes32} {acc' : List OutPoint × Nat}

theorem spendInput_eq_ok {acc : List OutPoint × Nat} {entry : (TxInput × WitnessV1) × Nat} :
    spendInput utxos height txid acc entry = .ok acc' ↔
      ∃ u, SpendsInput utxos height txid entry u ∧ u.outpoint ∉ acc.1 ∧
        acc' = (acc.1 ++ [u.outpoint], acc.2 + u.amountStrikes.toNat) := by
  rcases acc with ⟨consumed, inputSum⟩
  rcases entry with ⟨⟨input, witness⟩, inputIndex⟩
  cases input with
  | coinbase commitment =>
    constructor
    · intro h
      cases h
    · rintro ⟨u, hspends, -, -⟩
      cases hspends.input
  | outpoint o =>
    simp only [spendInput, ok_rules, Bool.not_eq_false, not_not]
    constructor
    · rintro ⟨_, hnew, u, hfound, _, hmature, _, hpayable, address, haddress, _, hsigned, rfl⟩
      have hkey := outpoint_of_findUtxo hfound
      subst hkey
      exact ⟨u, ⟨rfl, hfound, hmature, hpayable, address, haddress, hsigned⟩, hnew, rfl⟩
    · rintro ⟨u, ⟨hinput, hfound, hmature, hpayable, address, haddress, hsigned⟩, hnew, rfl⟩
      cases hinput
      exact ⟨(), hnew, u, hfound, (), hmature, (), hpayable, address, haddress, (), hsigned, rfl⟩

variable {entries : List ((TxInput × WitnessV1) × Nat)} {consumed : List OutPoint}

/-- The input loop spends a list of distinct outputs, one for each input. -/
theorem spendInputs_eq_ok {inputSum : Nat} (hconsumed : consumed.Nodup) :
    entries.foldlM (spendInput utxos height txid) (consumed, inputSum) = .ok acc' ↔
      ∃ spent, List.Forall₂ (SpendsInput utxos height txid) entries spent ∧
        (consumed ++ spent.map UtxoState.outpoint).Nodup ∧
        acc' = (consumed ++ spent.map UtxoState.outpoint, inputSum + utxoSupply spent) := by
  induction entries generalizing consumed inputSum with
  | nil =>
    rw [List.foldlM_nil, pure_eq_ok, eq_comm]
    simp [hconsumed, utxoSupply]
  | cons entry entries ih =>
    rw [List.foldlM_cons, bind_eq_ok]
    constructor
    · rintro ⟨acc, hhead, htail⟩
      rcases spendInput_eq_ok.mp hhead with ⟨u, hu, hnew, rfl⟩
      have hstep : (consumed ++ [u.outpoint]).Nodup :=
        List.nodup_append_comm.mp (List.nodup_cons.mpr ⟨hnew, hconsumed⟩)
      rcases (ih hstep).mp htail with ⟨spent, hspent, hdistinct, rfl⟩
      refine ⟨u :: spent, List.Forall₂.cons hu hspent, by simpa using hdistinct, ?_⟩
      simp [utxoSupply, Nat.add_assoc]
    · rintro ⟨spent, hspent, hdistinct, rfl⟩
      rcases List.forall₂_cons_left_iff.mp hspent with ⟨u, spent, hu, hrest, rfl⟩
      have hassoc : (consumed ++ [u.outpoint] ++ spent.map UtxoState.outpoint).Nodup := by
        simpa using hdistinct
      have hstep : (consumed ++ [u.outpoint]).Nodup := (List.nodup_append.mp hassoc).1
      have hnew : u.outpoint ∉ consumed := by
        intro hmem
        exact (List.nodup_append.mp hstep).2.2 _ hmem _ (List.mem_singleton_self _) rfl
      refine ⟨_, spendInput_eq_ok.mpr ⟨u, hu, hnew, rfl⟩, (ih hstep).mpr ⟨spent, hrest, hassoc, ?_⟩⟩
      simp [utxoSupply, Nat.add_assoc]

/-- A transaction that spends the given outputs, has only valid ones of its own and
pays the required fee. -/
structure ValidSpend (baseFeeRate : UInt64) (utxos : List UtxoState) (height : UInt64)
    (tx : TransactionV1) (spent : List UtxoState) (fee baseFee : UInt64) : Prop where
  inputs : List.Forall₂ (SpendsInput utxos height tx.txid) (tx.core.inputs.zip tx.witnesses).zipIdx
    spent
  distinct : (spent.map UtxoState.outpoint).Nodup
  outputs : ∀ o ∈ tx.core.outputs, ValidOutput o
  count : tx.core.outputs.length ≤ 2 ^ 16
  balance : fee.toNat + outputsValue tx.core.outputs = utxoSupply spent
  required : requiredBaseFee baseFeeRate tx.serializedLen = .ok baseFee
  paid : baseFee ≤ fee

/-- The unspent outputs after a transaction. -/
def afterSpend (utxos : List UtxoState) (spent : List UtxoState) (tx : TransactionV1)
    (epoch height : UInt64) : List UtxoState :=
  Keyed.removeAll UtxoState.place ((spent.map UtxoState.outpoint).map OutPoint.stored) utxos ++
    createdUtxos tx epoch height false

variable {spent : List UtxoState}

theorem SpendsInput.found_of_forall (h : List.Forall₂ (SpendsInput utxos height txid) entries spent)
    :
    ∀ u ∈ spent, findUtxo utxos u.outpoint = some u := by
  induction h with
  | nil => simp
  | cons hu _ ih =>
    intro v hv
    rcases List.mem_cons.mp hv with rfl | hv
    · exact hu.found
    · exact ih v hv

variable {utxos' : List UtxoState}

/-- An ordinary transaction passes exactly when it is a valid spend, and then replaces the outputs
it spends by those it creates. -/
theorem applyOrdinary_eq_ok {baseFeeRate fee baseFee : UInt64} :
    applyOrdinary baseFeeRate utxos epoch height tx = .ok (fee, baseFee, utxos') ↔
      ∃ spent, ValidSpend baseFeeRate utxos height tx spent fee baseFee ∧
        utxos' = afterSpend utxos spent tx epoch height := by
  simp only [applyOrdinary, ok_rules, Prod.mk.injEq, not_lt, UInt64.not_lt, UInt64.tryFrom_eq_some,
    addOutputsAsUtxos_eq_ok, sumOutputs_eq_ok, spendInputs_eq_ok List.nodup_nil, List.nil_append,
    Nat.zero_add]
  constructor
  · rintro ⟨_, ⟨spent, hinputs, hdistinct, rfl⟩, _, ⟨houtputs, rfl⟩, _, hbalance, fee, hfee,
      baseFee, hrequired, _, hpaid, rest, hrest, utxos', ⟨hcount, rfl⟩, rfl, rfl, rfl⟩
    rcases (removeUtxos_eq_ok hdistinct).mp hrest with ⟨-, rfl⟩
    exact ⟨spent, ⟨hinputs, hdistinct, houtputs, hcount, by omega, hrequired, hpaid⟩, rfl⟩
  · rintro ⟨spent, ⟨hinputs, hdistinct, houtputs, hcount, hbalance, hrequired, hpaid⟩, rfl⟩
    have hfound : ∀ o ∈ spent.map UtxoState.outpoint, findUtxo utxos o ≠ none := by
      intro o ho
      rcases List.mem_map.mp ho with ⟨u, hu, rfl⟩
      simp [SpendsInput.found_of_forall hinputs u hu]
    exact ⟨_, ⟨spent, hinputs, hdistinct, rfl⟩, _, ⟨houtputs, rfl⟩, (), by omega, fee, by omega,
      baseFee, hrequired, (), hpaid, _, (removeUtxos_eq_ok hdistinct).mpr ⟨hfound, rfl⟩, _,
      ⟨hcount, rfl⟩, rfl, rfl, rfl⟩

omit [Crypto] in
/-- Distinct outputs that are found, and those that stay when they are spent, are all. -/
theorem perm_append_spent (hdistinct : (spent.map UtxoState.outpoint).Nodup)
    (hfound : ∀ u ∈ spent, findUtxo utxos u.outpoint = some u) :
    (spent ++ Keyed.removeAll UtxoState.place
      ((spent.map UtxoState.outpoint).map OutPoint.stored) utxos).Perm utxos := by
  have hplaces : (spent.map UtxoState.outpoint).map OutPoint.stored =
      spent.map UtxoState.place := by
    rw [List.map_map]
    apply List.map_congr_left
    intro u hu
    exact (place_of_findUtxo (hfound u hu)).symm
  rw [hplaces]
  apply Keyed.perm_append_removeAll (nodup_places hdistinct)
  intro u hu
  rw [place_of_findUtxo (hfound u hu)]
  exact hfound u hu

theorem supply_afterSpend (tx : TransactionV1) (epoch height : UInt64)
    (hdistinct : (spent.map UtxoState.outpoint).Nodup)
    (hfound : ∀ u ∈ spent, findUtxo utxos u.outpoint = some u) :
    utxoSupply (afterSpend utxos spent tx epoch height) + utxoSupply spent =
      utxoSupply utxos + outputsValue tx.core.outputs := by
  have hperm := utxoSupply_perm (perm_append_spent hdistinct hfound)
  rw [utxoSupply_append] at hperm
  rw [afterSpend, utxoSupply_append, utxoSupply_createdUtxos]
  omega

/-! ## Dividend payments -/

omit [Crypto] in
/-- The input loop of a dividend payment spends distinct outputs of the treasury and adds
them up. -/
theorem paymentInputs_spends {operationId : Bytes32} {entries : List (TxInput × WitnessV1)}
    {inputSum : UInt64} {acc' : List OutPoint × UInt64} (hconsumed : consumed.Nodup)
    (h : entries.foldlM (Dividends.paymentInput utxos height operationId) (consumed, inputSum) =
      .ok acc') :
    ∃ spent, (∀ u ∈ spent, findUtxo utxos u.outpoint = some u) ∧
      (∀ u ∈ spent, Dividends.isTreasuryControlled u = true) ∧
      (consumed ++ spent.map UtxoState.outpoint).Nodup ∧
      entries.map Prod.fst = spent.map (fun u => .outpoint u.outpoint) ∧
      acc'.1 = consumed ++ spent.map UtxoState.outpoint ∧
      acc'.2.toNat = inputSum.toNat + utxoSupply spent := by
  induction entries generalizing consumed inputSum with
  | nil =>
    rw [List.foldlM_nil, pure_eq_ok] at h
    subst h
    exact ⟨[], by simp, by simp, by simpa using hconsumed, rfl, by simp, by simp [utxoSupply]⟩
  | cons entry entries ih =>
    rw [List.foldlM_cons, bind_eq_ok] at h
    rcases h with ⟨⟨consumed₁, sum₁⟩, hhead, htail⟩
    rcases entry with ⟨input, witness⟩
    cases input with
    | coinbase commitment => cases hhead
    | outpoint o =>
      simp only [Dividends.paymentInput, ok_rules, addStrikes_eq_ok, Prod.mk.injEq,
        Bool.not_eq_false] at hhead
      rcases hhead with ⟨_, hnew, u, hfound, _, hcontrolled, _, -, _, -, sum, hsum, rfl, rfl⟩
      have hkey := outpoint_of_findUtxo hfound
      subst hkey
      have hstep : (consumed ++ [u.outpoint]).Nodup :=
        List.nodup_append_comm.mp (List.nodup_cons.mpr ⟨hnew, hconsumed⟩)
      rcases ih hstep htail with
        ⟨spent, hspent, hcontrols, hdistinct, hinputs, hlist, htotal⟩
      refine ⟨u :: spent, List.forall_mem_cons.mpr ⟨hfound, hspent⟩,
        List.forall_mem_cons.mpr ⟨hcontrolled, hcontrols⟩, by simpa using hdistinct, ?_,
        by simpa using hlist, ?_⟩
      · rw [List.map_cons, List.map_cons, hinputs]
      · rw [htotal, hsum]
        simp [utxoSupply, Nat.add_assoc]

/-- A payment that spends outputs of the treasury to carry out a claim. -/
structure ValidPayment (s : DevnetState) (utxos : List UtxoState) (tx : TransactionV1)
    (op : ProtocolOperationV1) (claim : DividendClaimV1) (spent : List UtxoState)
    (inputSum : UInt64) : Prop where
  claimed : Dividends.decodeClaimOperation op = .ok claim
  paid : tx.txid = claim.paymentTxid
  inputs : tx.core.inputs = spent.map fun u => .outpoint u.outpoint
  found : ∀ u ∈ spent, findUtxo utxos u.outpoint = some u
  controlled : ∀ u ∈ spent, Dividends.isTreasuryControlled u = true
  distinct : (spent.map UtxoState.outpoint).Nodup
  sum : inputSum.toNat = utxoSupply spent
  outputs : Dividends.checkPaymentOutputs s.networkId claim inputSum tx.core.outputs = .ok ()
  count : tx.core.outputs.length ≤ 2 ^ 16
  balance : outputsValue tx.core.outputs = utxoSupply spent

variable {s : DevnetState}

/-- A dividend payment moves value without a fee. -/
theorem validateAndApplyPayment_spends {op : ProtocolOperationV1}
    (h : Dividends.validateAndApplyPayment s utxos tx op epoch height = .ok utxos') :
    ∃ claim spent inputSum, ValidPayment s utxos tx op claim spent inputSum ∧
      utxos' = afterSpend utxos spent tx epoch height := by
  simp only [Dividends.validateAndApplyPayment, ok_rules, not_not, addStrikes_foldlM_eq_ok,
    addOutputsAsUtxos_eq_ok] at h
  rcases h with ⟨claim, hclaim, _, hpaid, _, -, _, -, _, -, _, hwitnesses, ⟨consumed, inputSum⟩,
    hinputs, _, houtputs, outputSum, hsum, _, rfl, rest, hrest, hcount, rfl⟩
  rcases paymentInputs_spends List.nodup_nil hinputs with
    ⟨spent, hfound, hcontrolled, hdistinct, hentries, hlist, htotal⟩
  rw [List.map_fst_zip hwitnesses.ge] at hentries
  rw [List.nil_append] at hdistinct hlist
  have hlist : consumed = spent.map UtxoState.outpoint := hlist
  subst hlist
  rcases (removeUtxos_eq_ok hdistinct).mp hrest with ⟨-, rfl⟩
  have hvalue : outputsValue tx.core.outputs =
      ((tx.core.outputs.map (·.amountStrikes)).map UInt64.toNat).sum := by
    rw [outputsValue, List.map_map]
    rfl
  simp only [UInt64.toNat_zero, Nat.zero_add] at hsum htotal
  exact ⟨claim, spent, outputSum, ⟨hclaim, hpaid, hentries, hfound, hcontrolled, hdistinct, htotal,
    houtputs, hcount, by omega⟩, rfl⟩

/-! ## The validation loop -/

/-- The fees of validated transactions. -/
def feesValue (validated : List ValidatedTx) : Nat := (validated.map fun v => v.fee.toNat).sum

variable {operations : List ProtocolOperationV1}

theorem supply_validateAndApplyPending {pending : PendingTxState} {v : ValidatedTx}
    (h : validateAndApplyPending s epoch height operations utxos pending = .ok (v, utxos')) :
    utxoSupply utxos' + v.fee.toNat = utxoSupply utxos := by
  simp only [validateAndApplyPending, bind_eq_ok] at h
  rcases h with ⟨_, -, claim, -, h⟩
  cases claim with
  | some op =>
    simp only [ok_rules, Prod.mk.injEq] at h
    rcases h with ⟨_, hpayment, rfl, rfl⟩
    rcases validateAndApplyPayment_spends hpayment with ⟨_, spent, _, hvalid, rfl⟩
    have hsupply := supply_afterSpend (pending.toTransactionForNetwork s.networkId) epoch height
      hvalid.distinct hvalid.found
    have hbalance := hvalid.balance
    simp only [UInt64.toNat_zero]
    omega
  | none =>
    simp only [ok_rules, Prod.mk.injEq] at h
    rcases h with ⟨⟨fee, baseFee, _⟩, hordinary, rfl, rfl⟩
    rcases applyOrdinary_eq_ok.mp hordinary with ⟨spent, hvalid, rfl⟩
    have hsupply := supply_afterSpend (pending.toTransactionForNetwork s.networkId) epoch height
      hvalid.distinct (SpendsInput.found_of_forall hvalid.inputs)
    have hbalance := hvalid.balance
    dsimp only
    omega

/-- The value of the unspent outputs and the fees of the transactions validated together stay the
same. -/
theorem supply_validateAndApplyList {pool : List PendingTxState} {validated : List ValidatedTx}
    (h : validateAndApplyList s epoch height operations pool utxos = .ok (validated, utxos')) :
    utxoSupply utxos' + feesValue validated = utxoSupply utxos := by
  induction pool generalizing utxos validated with
  | nil =>
    simp only [validateAndApplyList, Except.ok.injEq, Prod.mk.injEq] at h
    rcases h with ⟨rfl, rfl⟩
    simp [feesValue]
  | cons pending pool ih =>
    simp only [validateAndApplyList, ok_rules, Prod.mk.injEq] at h
    rcases h with ⟨⟨v, utxos₁⟩, hhead, ⟨vs, utxos₂⟩, htail, rfl, rfl⟩
    have hfirst := supply_validateAndApplyPending hhead
    have hrest := ih htail
    have hfees : feesValue (v :: vs) = v.fee.toNat + feesValue vs := by simp [feesValue]
    dsimp only at hrest ⊢
    omega

end Spending

end Mutiny
