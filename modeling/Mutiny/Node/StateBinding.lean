import Mutiny.Node.RootBinding
import Mutiny.Node.Bootstrap

/-!
# The state root binds the consensus state

Two states that pass the state check, without two licences of one identifier, and have one
root agree in everything the root is computed from, or the two computations hash two different
messages to one value.

Main results:

- Theorem {lit}`stateRoot_binds`: all of the consensus state.
- Theorem {lit}`doubled_licence_shares_root`: a licence listed in two letter cases hides a
  record.
-/

namespace Mutiny

open Result

section Binding

variable [Crypto]

/-! ## All messages of a root -/

/-- The message hashed to the key of an output. -/
def utxoKeyMessage (u : UtxoState) : Bytes :=
  message Domains.utxoKey [Bytes.b32 u.txid.bytes, Bytes.u16 u.outputIndex]

/-- The message hashed to the leaf of an output. -/
def utxoMessage (u : UtxoState) : Bytes :=
  message Domains.utxoLeaf [Bytes.b32 (utxoEntry u).1, u.value.encode]

/-- The entry of a payment. -/
def paymentEntry (p : BitcoinPaymentState) : Bytes32 × Bytes32 :=
  (p.paymentId, externalPaymentLeaf p.paymentId p.valueBytes)

/-- The message hashed to the leaf of a bitcoin payment. -/
def paymentMessage (p : BitcoinPaymentState) : Bytes :=
  message Domains.externalPaymentLeaf [Bytes.b32 p.paymentId, p.valueBytes]

/-- The messages that the computation of a state root hashes. -/
inductive RootMessage (s : DevnetState) (r : RootInputs) : Bytes → Prop where
  | hashed (m : Bytes) (h : Hashed s r m) : RootMessage s r m
  | utxoKey (u : UtxoState) (h : u ∈ r.utxos) : RootMessage s r (utxoKeyMessage u)
  | utxoLeaf (u : UtxoState) (h : u ∈ r.utxos) : RootMessage s r (utxoMessage u)
  | utxoNode (m : Bytes) (h : NodeMessage (r.utxos.map utxoEntry) m) : RootMessage s r m
  | paymentLeaf (p : BitcoinPaymentState) (h : p ∈ s.consumedBitcoinPayments) :
      RootMessage s r (paymentMessage p)
  | paymentNode (m : Bytes) (h : NodeMessage (s.consumedBitcoinPayments.map paymentEntry) m) :
      RootMessage s r m
  | consensus : RootMessage s r (message Domains.metaRoot [(consensusMeta s r).encode])

section Parts

variable {s t : DevnetState} {r q : RootInputs} {root : Bytes32}

theorem collides_of_hashed (h : Collides (Hashed s r) (Hashed t q)) :
    Collides (RootMessage s r) (RootMessage t q) :=
  h.mono RootMessage.hashed RootMessage.hashed

/-- Entries whose insertion succeeds have distinct keys, and the root is that of their tree. -/
theorem treeRoot_of_ok {duplicate : String} {entries : List (Bytes32 × Bytes32)}
    (h : (entries.foldlM (insertEntry duplicate) [] >>= fun tree => .ok (sparseRoot tree)) =
      .ok root) : (entries.map Prod.fst).Nodup ∧ treeRoot entries = root := by
  simp only [ok_rules] at h
  rcases h with ⟨tree, htree, hroot⟩
  rcases sparseRoot_of_insertEntries htree with ⟨hdistinct, heq⟩
  exact ⟨hdistinct, heq.symm.trans hroot⟩

/-- States with one root have the same outputs, or two messages collide. -/
theorem utxos_bound (hs : computeStateRoot s r = .ok root) (ht : computeStateRoot t q = .ok root) :
    (∀ u ∈ r.utxos, ∃ u' ∈ q.utxos, u'.outpoint = u.outpoint ∧ u'.value = u.value) ∨
      Collides (RootMessage s r) (RootMessage t q) := by
  by_contra hnot
  rw [not_or] at hnot
  rcases hnot with ⟨hlost, hnone⟩
  rcases parts_bound hs ht with ⟨_, _, _, _, _, hparts, hparts'⟩ | hcollides
  swap
  · exact hnone (collides_of_hashed hcollides)
  rcases treeRoot_of_ok hparts.utxos with ⟨hdistinct, heq⟩
  rcases treeRoot_of_ok hparts'.utxos with ⟨hdistinct', heq'⟩
  rcases tree_bound utxoEntry utxoMessage (fun _ => rfl) hdistinct hdistinct' (heq.trans heq'.symm)
    (fun m => RootMessage.utxoNode m) (fun m => RootMessage.utxoNode m) RootMessage.utxoLeaf
    RootMessage.utxoLeaf (RootMessage.hashed _ Hashed.emptyLeaf)
    (fun _ => message_ne 8 (by decide) (by decide) (by decide)) with hsame | hcollides
  swap
  · exact hnone hcollides
  refine hlost fun u hu => ?_
  rcases hsame u hu with ⟨u', hu', hkey, hleaf⟩
  have hkeys : utxoKeyMessage u' = utxoKeyMessage u := by
    by_contra hdiffer
    exact hnone ⟨_, _, .utxoKey u hu, .utxoKey u' hu', Ne.symm hdiffer, hkey.symm⟩
  simp only [utxoMessage, utxoKeyMessage, message, List.flatten_cons, List.flatten_nil,
    List.append_nil, List.append_cancel_left_eq, Bytes.be_append_inj, Bytes.u16_inj,
    Bytes.b32_inj] at hkeys hleaf
  refine ⟨u', hu', ?_, UtxoValueV1.encode_inj hleaf.2⟩
  have houtpoint : OutPoint.mk u'.txid.bytes u'.outputIndex = ⟨u.txid.bytes, u.outputIndex⟩ := by
    rw [hkeys.1, hkeys.2]
  exact houtpoint

/-- States with one root have consumed the same bitcoin payments, or two messages
collide. -/
theorem payments_bound (hs : computeStateRoot s r = .ok root)
    (ht : computeStateRoot t q = .ok root) :
    (∀ p ∈ s.consumedBitcoinPayments, p ∈ t.consumedBitcoinPayments) ∨
      Collides (RootMessage s r) (RootMessage t q) := by
  rcases parts_bound hs ht with ⟨_, _, _, _, _, hparts, hparts'⟩ | hcollides
  swap
  · exact Or.inr (collides_of_hashed hcollides)
  rcases treeRoot_of_ok hparts.payments with ⟨hdistinct, heq⟩
  rcases treeRoot_of_ok hparts'.payments with ⟨hdistinct', heq'⟩
  rcases tree_bound paymentEntry paymentMessage (fun _ => rfl) hdistinct hdistinct'
    (heq.trans heq'.symm) (fun m => RootMessage.paymentNode m) (fun m => RootMessage.paymentNode m)
    RootMessage.paymentLeaf RootMessage.paymentLeaf (RootMessage.hashed _ Hashed.emptyLeaf)
    (fun _ => message_ne 8 (by decide) (by decide) (by decide)) with hsame | hcollides
  · refine Or.inl fun p hp => ?_
    rcases hsame p hp with ⟨p', hp', hid, hmessage⟩
    simp only [paymentMessage, message, List.flatten_cons, List.flatten_nil, List.append_nil,
      List.append_cancel_left_eq, Bytes.be_append_inj] at hmessage
    rw [← BitcoinPaymentState.valueBytes_inj hid hmessage.2]
    exact hp'
  · exact Or.inr hcollides

/-- States with one root agree beside the trees, or two messages collide. -/
theorem meta_bound (hs : computeStateRoot s r = .ok root) (ht : computeStateRoot t q = .ok root) :
    consensusMeta s r = consensusMeta t q ∨ Collides (RootMessage s r) (RootMessage t q) := by
  rcases parts_bound hs ht with ⟨_, _, _, _, _, hparts, hparts'⟩ | hcollides
  swap
  · exact Or.inr (collides_of_hashed hcollides)
  by_cases hmessage : message Domains.metaRoot [(consensusMeta s r).encode] =
      message Domains.metaRoot [(consensusMeta t q).encode]
  · simp only [message, List.flatten_cons, List.flatten_nil, List.append_nil,
      List.append_cancel_left_eq] at hmessage
    exact Or.inl (ConsensusMetaV1.encode_inj hmessage)
  · exact Or.inr ⟨_, _, .consensus, .consensus, hmessage,
      hparts.consensus.symm.trans hparts'.consensus⟩

/-! ## The consensus state -/

/-- The consensus state of one node, as far as the root says it, is part of another's. -/
structure SubConsensus (s t : DevnetState) : Prop where
  utxos : ∀ u ∈ s.utxos, ∃ u' ∈ t.utxos, u'.outpoint = u.outpoint ∧ u'.value = u.value
  licenses : ∀ l ∈ s.licenses, ∃ l' ∈ t.licenses,
    l'.licenseId = l.licenseId ∧ l'.record = l.record
  bitcoinPayments : ∀ p ∈ s.consumedBitcoinPayments, p ∈ t.consumedBitcoinPayments
  nativePayments : ∀ id ∈ s.consumedNativePayments, id ∈ t.consumedNativePayments
  evidence : ∀ id ∈ s.consumedEvidence, id ∈ t.consumedEvidence
  offenses : s.offenseEvents.map (·.lower) ⊆ t.offenseEvents.map (·.lower)
  accounts : s.dividendAccounts.map (·.lower) ⊆ t.dividendAccounts.map (·.lower)
  historical : s.historicalLicenseKeys.map (·.lower) ⊆ t.historicalLicenseKeys.map (·.lower)
  presence : s.miningPresence.map (·.lower) ⊆ t.miningPresence.map (·.lower)
  headers : ∀ h ∈ s.bitcoinHeaders, h ∈ t.bitcoinHeaders
  bestChain : ∀ b ∈ s.bitcoinBestChain, b ∈ t.bitcoinBestChain
  reserve : s.treasuryReservedDividendStrikes = t.treasuryReservedDividendStrikes
  difficulty : s.difficultyHistory = t.difficultyHistory
  baseFee : s.baseFeeRateQ32 = t.baseFeeRateQ32
  height : s.height = t.height
  issued : s.totalIssuedStrikes = t.totalIssuedStrikes

omit [Crypto] in
/-- The objects of the protocol state, collection by collection. -/
theorem mem_protocolObjects {o : UInt16 × Bytes32 × Bytes} :
    o ∈ protocolObjects s r ↔
      (∃ treasury, Dividends.treasuryState s r.utxos = .ok treasury ∧
        o = (psTreasuryState, 0, treasury.encode)) ∨
      o = (psDifficultyHistory, 0, difficultyValue r.difficulty.count r.difficulty.bitmap) ∨
      (∃ a ∈ s.dividendAccounts, o = (psDividendAccount, a.licenseId, a.account.encode)) ∨
      (∃ id ∈ s.consumedEvidence, o = (psConsumedEvidence, id, [])) ∨
      (∃ e ∈ s.offenseEvents, o = (psOffenseEvent, e.evidenceId, e.valueBytes)) ∨
      (∃ id ∈ s.consumedNativePayments, o = (psConsumedNativePayment, id, [])) ∨
      (∃ h ∈ s.historicalLicenseKeys,
        o = (psHistoricalLicenseKey, h.operationId, h.valueBytes)) ∨
      (∃ p ∈ s.miningPresence, o = (psMiningPresenceState, p.licenseId, p.valueBytes)) ∨
      (∃ h ∈ s.bitcoinHeaders, o = (psBitcoinHeader, h.blockHashInternal, h.valueBytes)) ∨
      ∃ b ∈ s.bitcoinBestChain, o = (psBitcoinBestChain, 0, b.valueBytes) := by
  simp only [protocolObjects, protocolCollections, List.mem_append, List.mem_map, List.mem_cons,
    List.flatMap_cons, List.flatMap_nil, List.append_nil, Option.mem_toList, Option.mem_def,
    toOption_eq_some, eq_comm (b := o)]

section Objects

attribute [local simp] psTreasuryState psDifficultyHistory psDividendAccount psConsumedEvidence
  psOffenseEvent psConsumedNativePayment psHistoricalLicenseKey psMiningPresenceState
  psBitcoinHeader psBitcoinBestChain

omit [Crypto]

variable (h : ∀ o ∈ protocolObjects s r, o ∈ protocolObjects t q)

include h

theorem nativePayments_of_objects :
    ∀ id ∈ s.consumedNativePayments, id ∈ t.consumedNativePayments := by
  intro id hid
  simpa [mem_protocolObjects] using
    h (psConsumedNativePayment, id, []) (by simpa [mem_protocolObjects] using hid)

theorem evidence_of_objects : ∀ id ∈ s.consumedEvidence, id ∈ t.consumedEvidence := by
  intro id hid
  simpa [mem_protocolObjects] using
    h (psConsumedEvidence, id, []) (by simpa [mem_protocolObjects] using hid)

theorem offenses_of_objects :
    s.offenseEvents.map (·.lower) ⊆ t.offenseEvents.map (·.lower) := by
  intro _ hmem
  rcases List.mem_map.mp hmem with ⟨e, he, rfl⟩
  have hobject := h _ (offense_mem_protocolObjects.mpr ⟨e, he, rfl, rfl⟩)
  rcases offense_mem_protocolObjects.mp hobject with ⟨e', he', hid, hvalue⟩
  rw [← OffenseEventState.valueBytes_inj hid hvalue]
  exact List.mem_map_of_mem he'

theorem accounts_of_objects :
    s.dividendAccounts.map (·.lower) ⊆ t.dividendAccounts.map (·.lower) := by
  intro _ hmem
  rcases List.mem_map.mp hmem with ⟨a, ha, rfl⟩
  have hobject := h _ (account_mem_protocolObjects.mpr ⟨a, ha, rfl, rfl⟩)
  rcases account_mem_protocolObjects.mp hobject with ⟨a', ha', -, hvalue⟩
  rw [← DividendAccountState.account_inj (LicenseDividendAccountV1.encode_inj hvalue)]
  exact List.mem_map_of_mem ha'

theorem historical_of_objects :
    s.historicalLicenseKeys.map (·.lower) ⊆ t.historicalLicenseKeys.map (·.lower) := by
  intro _ hmem
  rcases List.mem_map.mp hmem with ⟨k, hk, rfl⟩
  have hobject : ∃ k' ∈ t.historicalLicenseKeys,
      k.operationId = k'.operationId ∧ k.valueBytes = k'.valueBytes := by
    simpa [mem_protocolObjects] using h (psHistoricalLicenseKey, k.operationId, k.valueBytes)
      (by simpa [mem_protocolObjects] using ⟨k, hk, rfl, rfl⟩)
  rcases hobject with ⟨k', hk', hid, hvalue⟩
  rw [HistoricalLicenseKeyState.valueBytes_inj hid hvalue]
  exact List.mem_map_of_mem hk'

theorem presence_of_objects :
    s.miningPresence.map (·.lower) ⊆ t.miningPresence.map (·.lower) := by
  intro _ hmem
  rcases List.mem_map.mp hmem with ⟨p, hp, rfl⟩
  have hobject : ∃ p' ∈ t.miningPresence,
      p.licenseId = p'.licenseId ∧ p.valueBytes = p'.valueBytes := by
    simpa [mem_protocolObjects] using h (psMiningPresenceState, p.licenseId, p.valueBytes)
      (by simpa [mem_protocolObjects] using ⟨p, hp, rfl, rfl⟩)
  rcases hobject with ⟨p', hp', hid, hvalue⟩
  rw [MiningPresenceState.valueBytes_inj hid hvalue]
  exact List.mem_map_of_mem hp'

theorem headers_of_objects : ∀ b ∈ s.bitcoinHeaders, b ∈ t.bitcoinHeaders := by
  intro b hb
  have hobject : ∃ b' ∈ t.bitcoinHeaders,
      b.blockHashInternal = b'.blockHashInternal ∧ b.valueBytes = b'.valueBytes := by
    simpa [mem_protocolObjects] using h (psBitcoinHeader, b.blockHashInternal, b.valueBytes)
      (by simpa [mem_protocolObjects] using ⟨b, hb, rfl, rfl⟩)
  rcases hobject with ⟨b', hb', hid, hvalue⟩
  rw [BitcoinHeaderStateStored.valueBytes_inj hid hvalue]
  exact hb'

theorem bestChain_of_objects : ∀ b ∈ s.bitcoinBestChain, b ∈ t.bitcoinBestChain := by
  intro b hb
  have hobject : ∃ b' ∈ t.bitcoinBestChain, b.valueBytes = b'.valueBytes := by
    simpa [mem_protocolObjects] using h (psBitcoinBestChain, 0, b.valueBytes)
      (by simpa [mem_protocolObjects] using ⟨b, hb, rfl⟩)
  rcases hobject with ⟨b', hb', hvalue⟩
  rw [BitcoinBestChainStored.valueBytes_inj hvalue]
  exact hb'

theorem difficulty_of_objects :
    r.difficulty.count = q.difficulty.count ∧ r.difficulty.bitmap = q.difficulty.bitmap := by
  have hobject := h _ (difficulty_mem_protocolObjects s r)
  simpa [mem_protocolObjects, difficultyValue, Bytes.u64_inj] using hobject

theorem reserve_of_objects {treasury : TreasuryStateV1}
    (htreasury : Dividends.treasuryState s r.utxos = .ok treasury) :
    s.treasuryReservedDividendStrikes = t.treasuryReservedDividendStrikes := by
  have hobject : ∃ treasury', Dividends.treasuryState t q.utxos = .ok treasury' ∧
      treasury.encode = treasury'.encode := by
    simpa [mem_protocolObjects] using h (psTreasuryState, 0, treasury.encode)
      (by simpa [mem_protocolObjects] using ⟨treasury, htreasury, rfl⟩)
  rcases hobject with ⟨treasury', htreasury', hvalue⟩
  have hreserved := (Dividends.treasuryState_eq_ok.mp htreasury).2.2
  have hreserved' := (Dividends.treasuryState_eq_ok.mp htreasury').2.2
  rw [← hreserved, ← hreserved', TreasuryStateV1.encode_inj hvalue]

end Objects

/-- States with one root: one's consensus state is part of the other's, or two messages
collide. -/
theorem subConsensus_or_collides (hs : computeStateRoot s s.rootInputs = .ok root)
    (ht : computeStateRoot t t.rootInputs = .ok root)
    (hsd : (s.licenses.map (·.licenseId)).Nodup) (htd : (t.licenses.map (·.licenseId)).Nodup) :
    SubConsensus s t ∨ Collides (RootMessage s s.rootInputs) (RootMessage t t.rootInputs) := by
  by_contra hnot
  rw [not_or] at hnot
  rcases hnot with ⟨hlost, hnone⟩
  rcases utxos_bound hs ht with hutxos | hcollides
  swap
  · exact hnone hcollides
  rcases licenses_bound hs ht hsd htd with hlicenses | hcollides
  swap
  · exact hnone (collides_of_hashed hcollides)
  rcases payments_bound hs ht with hpayments | hcollides
  swap
  · exact hnone hcollides
  rcases objects_bound hs ht with hobjects | hcollides
  swap
  · exact hnone (collides_of_hashed hcollides)
  rcases meta_bound hs ht with hmeta | hcollides
  swap
  · exact hnone hcollides
  simp only [consensusMeta, ConsensusMetaV1.mk.injEq] at hmeta
  rcases hmeta with ⟨hheight, -, -, hcorrection, hfee, hissued⟩
  rcases computeStateRoot_parts hs with ⟨_, _, _, _, _, hparts, -⟩
  have hprotocol := hparts.protocol
  simp only [computeProtocolStateRoot, bind_eq_ok] at hprotocol
  rcases hprotocol with ⟨treasury, htreasury, -⟩
  rcases difficulty_of_objects hobjects with ⟨hcount, hbitmap⟩
  refine hlost ⟨hutxos, hlicenses, hpayments, nativePayments_of_objects hobjects,
    evidence_of_objects hobjects, offenses_of_objects hobjects, accounts_of_objects hobjects,
    historical_of_objects hobjects, presence_of_objects hobjects, headers_of_objects hobjects,
    bestChain_of_objects hobjects, reserve_of_objects hobjects htreasury, ?_, hfee, hheight,
    hissued⟩
  change DifficultyHistory.mk _ _ _ = DifficultyHistory.mk _ _ _
  exact congr (congr (congrArg DifficultyHistory.mk hcount) hbitmap) hcorrection

end Parts

/-- Two nodes have the same consensus state, as far as a state root says it. -/
structure SameConsensus (s t : DevnetState) : Prop where
  utxos : ∀ o, (Keyed.lookup UtxoState.outpoint o s.utxos).map UtxoState.value =
    (Keyed.lookup UtxoState.outpoint o t.utxos).map UtxoState.value
  licenses : ∀ id, (Keyed.lookup LicenseState.licenseId id s.licenses).map LicenseState.record =
    (Keyed.lookup LicenseState.licenseId id t.licenses).map LicenseState.record
  bitcoinPayments : ∀ p, p ∈ s.consumedBitcoinPayments ↔ p ∈ t.consumedBitcoinPayments
  nativePayments : ∀ id, id ∈ s.consumedNativePayments ↔ id ∈ t.consumedNativePayments
  evidence : ∀ id, id ∈ s.consumedEvidence ↔ id ∈ t.consumedEvidence
  offenses : ∀ e, e ∈ s.offenseEvents.map (·.lower) ↔ e ∈ t.offenseEvents.map (·.lower)
  accounts : ∀ a, a ∈ s.dividendAccounts.map (·.lower) ↔ a ∈ t.dividendAccounts.map (·.lower)
  reserve : s.treasuryReservedDividendStrikes = t.treasuryReservedDividendStrikes
  historical : ∀ k, k ∈ s.historicalLicenseKeys.map (·.lower) ↔
    k ∈ t.historicalLicenseKeys.map (·.lower)
  presence : ∀ p, p ∈ s.miningPresence.map (·.lower) ↔ p ∈ t.miningPresence.map (·.lower)
  headers : ∀ b, b ∈ s.bitcoinHeaders ↔ b ∈ t.bitcoinHeaders
  bestChain : s.bitcoinBestChain = t.bitcoinBestChain
  difficulty : s.difficultyHistory = t.difficultyHistory
  baseFee : s.baseFeeRateQ32 = t.baseFeeRateQ32
  height : s.height = t.height
  issued : s.totalIssuedStrikes = t.totalIssuedStrikes

omit [Crypto] in
theorem SameConsensus.of_sub {s t : DevnetState} (htu : (t.utxos.map UtxoState.outpoint).Nodup)
    (htd : (t.licenses.map (·.licenseId)).Nodup) (h : SubConsensus s t) (h' : SubConsensus t s) :
    SameConsensus s t where
  utxos := Keyed.lookup_congr htu h.utxos h'.utxos
  licenses := Keyed.lookup_congr htd h.licenses h'.licenses
  bitcoinPayments p := ⟨h.bitcoinPayments p, h'.bitcoinPayments p⟩
  nativePayments id := ⟨h.nativePayments id, h'.nativePayments id⟩
  evidence id := ⟨h.evidence id, h'.evidence id⟩
  offenses _ := ⟨@h.offenses _, @h'.offenses _⟩
  accounts _ := ⟨@h.accounts _, @h'.accounts _⟩
  reserve := h.reserve
  historical _ := ⟨@h.historical _, @h'.historical _⟩
  presence _ := ⟨@h.presence _, @h'.presence _⟩
  headers b := ⟨h.headers b, h'.headers b⟩
  bestChain := Option.ext fun b => ⟨h.bestChain b, h'.bestChain b⟩
  difficulty := h.difficulty
  baseFee := h.baseFee
  height := h.height
  issued := h.issued

/-- The state root binds the consensus state: checked states of distinct licences with one root
have the same consensus state, or the computations of the two roots hash two different messages
to one value. -/
theorem stateRoot_binds {s t : DevnetState} (hs : checkState s = .ok ())
    (ht : checkState t = .ok ()) (hsd : (s.licenses.map (·.licenseId)).Nodup)
    (htd : (t.licenses.map (·.licenseId)).Nodup)
    (hroot : computeStateRoot s s.rootInputs = computeStateRoot t t.rootInputs) :
    SameConsensus s t ∨ Collides (RootMessage s s.rootInputs) (RootMessage t t.rootInputs) := by
  have hs := checkState_eq_ok.mp hs
  have ht := checkState_eq_ok.mp ht
  have hroot' : computeStateRoot s s.rootInputs = .ok t.currentStateRoot := hroot.trans ht.root
  rcases computeStateRoot_parts ht.root with ⟨_, _, _, _, _, hparts, -⟩
  rcases subConsensus_or_collides hroot' ht.root hsd htd with hsub | hcollides
  · rcases subConsensus_or_collides ht.root hroot' htd hsd with hsup | hcollides
    · exact Or.inl (.of_sub (nodup_of_computeUtxoRoot hparts.utxos) htd hsub hsup)
    · exact Or.inr hcollides.symm
  · exact Or.inr hcollides

end Binding

/-! ## One identifier in two letter cases -/

section Doubled

variable [Crypto]

/-- A licence of a fixed owner. -/
def bareLicense (text : HexText) (miningKey : Bytes32) : LicenseState where
  index := 0
  licenseIdText := text
  purchaseId := 0
  ownerPublicKey := 0
  miningPublicKey := miningKey
  paymentAddressId := addressId 0
  status := licenseStatusActive
  purchaseMethod := 1
  ownerKeySequence := 0
  miningKeySequence := 0
  issuedEpoch := 0
  activationEpoch := 0
  strikeWeight := 0
  suspendedUntilEpoch := 0
  revocationEpoch := 0

/-- The text of the number ten in upper case. -/
def upperTen : HexText := ⟨10, 1, by decide⟩

/-- Two licences with the identifier ten, the second with fixed keys. -/
def doubledRegistry (miningKey : Bytes32) : List LicenseState :=
  [bareLicense (.encode 10) miningKey, bareLicense upperTen 0]

theorem checkedState_empty : ∃ root, CheckedState
    { emptyState 10 devnetNetworkId 0 devnetGenesisId [] with currentStateRoot := root } := by
  have hroot : ∃ root, computeStateRoot (emptyState 10 devnetNetworkId 0 devnetGenesisId [])
      (emptyState 10 devnetNetworkId 0 devnetGenesisId []).rootInputs = .ok root := ⟨_, rfl⟩
  rcases hroot with ⟨root, hroot⟩
  refine ⟨root, ?_⟩
  exact
    { identity := rfl
      words := rfl
      tip := rfl
      height := rfl
      registry := List.nodup_nil
      entries := fun _ hl => absurd hl List.not_mem_nil
      nativePayments := List.nodup_nil
      bitcoinPayments := rfl
      bitcoinHeaders := rfl
      punishment := rfl
      dividends := rfl
      presence := rfl
      historical := List.nodup_nil
      supply := rfl
      root := hroot }

/-- The second licence replaces the first in the tree. -/
theorem insert_doubledRegistry (miningKey : Bytes32) :
    (doubledRegistry miningKey).foldlM insertLicenseEntry [] =
      .ok [(10, (licenseEntry (bareLicense upperTen 0)).2)] := rfl

/-- The Devnet at genesis with these licences. -/
def doubledState (root miningKey : Bytes32) : DevnetState :=
  { emptyState 10 devnetNetworkId 0 devnetGenesisId (doubledRegistry miningKey) with
    currentStateRoot := root }

theorem exists_checkState_doubled (miningKey : Bytes32) :
    ∃ root, checkState (doubledState root miningKey) = .ok () := by
  have htexts : ((doubledRegistry miningKey).map (·.licenseIdText)).Nodup := by
    simp [doubledRegistry, bareLicense, HexText.encode, upperTen]
  have hactive : licenseStatusActive ≠ licenseStatusRevoked := by decide
  have hentries : ∀ l ∈ doubledRegistry miningKey, ValidEntry l ∧ l.Unpunished := by
    simp only [doubledRegistry, List.forall_mem_cons]
    exact ⟨⟨⟨rfl, rfl⟩, hactive, rfl, rfl⟩, ⟨⟨rfl, rfl⟩, hactive, rfl, rfl⟩, by simp⟩
  rcases checkedState_empty with ⟨_, hempty⟩
  rcases hempty.exists_with_licenses rfl rfl rfl htexts hentries with ⟨root, hs⟩
  exact ⟨root, checkState_eq_ok.mpr hs⟩

theorem computeStateRoot_doubled (root key key' : Bytes32) :
    computeStateRoot (doubledState root key) (doubledState root key).rootInputs =
      computeStateRoot (doubledState root key') (doubledState root key').rootInputs := rfl

theorem not_sameConsensus_doubled (root : Bytes32) :
    ¬SameConsensus (doubledState root 1) (doubledState root 2) := by
  intro hsame
  have hrecord := hsame.licenses 10
  simp [Keyed.lookup, doubledState, emptyState, doubledRegistry, bareLicense,
    LicenseState.record] at hrecord

end Doubled

/-- Whatever the hash function, two checked states with different licence records have one root:
the texts of the two identifiers differ and the bytes do not, so the second record replaces the
first in the tree of both. -/
theorem doubled_licence_shares_root :
    ∃ root : Crypto → Bytes32, ∀ c : Crypto,
      checkState (doubledState (root c) 1) = .ok () ∧
      checkState (doubledState (root c) 2) = .ok () ∧
      (doubledRegistry 1).foldlM insertLicenseEntry [] =
        (doubledRegistry 2).foldlM insertLicenseEntry [] ∧
      computeStateRoot (doubledState (root c) 1) (doubledState (root c) 1).rootInputs =
        computeStateRoot (doubledState (root c) 2) (doubledState (root c) 2).rootInputs ∧
      ¬SameConsensus (doubledState (root c) 1) (doubledState (root c) 2) := by
  have hroot (c : Crypto) : ∃ root, checkState (doubledState root 1) = .ok () :=
    exists_checkState_doubled 1
  choose root hs using hroot
  refine ⟨root, fun c => ⟨hs c, ?_, ?_, computeStateRoot_doubled _ _ _,
    not_sameConsensus_doubled _⟩⟩
  · -- the check of the second state asks for the root of the first
    rcases exists_checkState_doubled 2 with ⟨root', ht⟩
    have hsame := (checkState_eq_ok.mp (hs c)).root.symm.trans
      ((computeStateRoot_doubled _ _ _).trans (checkState_eq_ok.mp ht).root)
    cases hsame
    exact ht
  · rw [insert_doubledRegistry, insert_doubledRegistry]

section Evaluation

/-- Primitives whose hash is the end of the message. -/
@[reducible]
def tailCrypto : Crypto :=
  { sampleCrypto with
    sha256 := fun bytes => BitVec.ofNat 256 (Bytes.beNat (bytes.drop (bytes.length - 12))) }

attribute [local instance] tailCrypto

/-- An output for the examples. -/
def listedCoin (txid : HexText) : UtxoState where
  txid := txid
  outputIndex := 0
  amountStrikes := 1000
  outputType := outputPubkeyHash
  payload := Bytes.b32 0
  creationEpoch := 0
  creationHeight := 0
  coinbase := false

/-- A state with two outputs. -/
def listedState (time : Nat) (licenses : List LicenseState) (utxos : List UtxoState)
    (payments : List Bytes32) : DevnetState :=
  { emptyState 10 devnetNetworkId time devnetGenesisId licenses with
    totalIssuedStrikes := 2000
    utxos := utxos
    consumedNativePayments := payments }

/-- The root binds neither the order of the collections, nor the case of a text, nor when the
network was started. -/
theorem stateRoot_binds_reordered :
    ∃ s t : DevnetState, s.licenses.length = 2 ∧ s.licenses ≠ t.licenses ∧ s.utxos.length = 2 ∧
      s.utxos ≠ t.utxos ∧ s.genesisTimeMs ≠ t.genesisTimeMs ∧ checkState s = .ok () ∧
      checkState t = .ok () ∧
      computeStateRoot s s.rootInputs = computeStateRoot t t.rootInputs ∧
      (SameConsensus s t ∨
        Collides (RootMessage s s.rootInputs) (RootMessage t t.rootInputs)) := by
  have hcheck : okAnd (do
      let s ← refreshCurrentStateRoot (listedState 0
        [bareLicense (.encode 10) 1, bareLicense (.encode 11) 2]
        [listedCoin (.encode 10), listedCoin (.encode 11)] [1, 2])
      let t ← refreshCurrentStateRoot (listedState 1
        [bareLicense (.encode 11) 2, bareLicense upperTen 1]
        [listedCoin (.encode 11), listedCoin upperTen] [2, 1])
      checkState s
      checkState t
      .ok (s, t)) (fun p => decide (p.1.licenses.length = 2 ∧ p.1.licenses ≠ p.2.licenses ∧
        p.1.utxos.length = 2 ∧ p.1.utxos ≠ p.2.utxos ∧ p.1.genesisTimeMs ≠ p.2.genesisTimeMs ∧
        p.1.currentStateRoot = p.2.currentStateRoot ∧ (p.1.licenses.map (·.licenseId)).Nodup ∧
        (p.2.licenses.map (·.licenseId)).Nodup)) = true := by
    decide +kernel
  rcases exists_of_okAnd hcheck with ⟨⟨s, t⟩, hrun, htest⟩
  simp only [ok_rules, Prod.mk.injEq] at hrun
  rcases hrun with ⟨_, -, _, -, _, hs, _, ht, rfl, rfl⟩
  rw [decide_eq_true_iff] at htest
  rcases htest with ⟨hcount, hlicenses, houtputs, hutxos, htime, hroots, hsd, htd⟩
  have hroot := (checkState_eq_ok.mp hs).root.trans
    ((congrArg Except.ok hroots).trans (checkState_eq_ok.mp ht).root.symm)
  exact ⟨_, _, hcount, hlicenses, houtputs, hutxos, htime, hs, ht, hroot,
    stateRoot_binds hs ht hsd htd hroot⟩

end Evaluation

end Mutiny
