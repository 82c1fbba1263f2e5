import Mutiny.SparseTree
import Mutiny.Node.StateCheck

/-!
# What a state root binds

A state root is a hash of hashes: of the leaves of four sparse trees, of the nodes
above them and of the five roots.  Two states with one root agree in what the
leaves say, or the computation of the two roots hashes two different messages to
the same value.
-/

namespace Mutiny

open Result

section Trees

variable [Crypto]

/-! ## Trees filled from a list -/

variable {entries : List (Bytes32 × Bytes32)} {tree tree' : TreeEntries}

omit [Crypto] in
/-- The entries of a tree that was filled from a list. -/
theorem mem_insertEntries {duplicate : String}
    (h : entries.foldlM (insertEntry duplicate) tree = .ok tree') (x : Nat × Bytes32) :
    x ∈ tree' ↔ x ∈ tree ∨ ∃ e ∈ entries, x = (e.1.toNat, e.2) := by
  induction entries generalizing tree with
  | nil =>
    cases h
    simp
  | cons entry entries ih =>
    rw [List.foldlM_cons, bind_eq_ok] at h
    rcases h with ⟨tree₁, hfirst, hrest⟩
    rw [insertEntry, okOr_eq_ok, SortedMap.insertNew_eq_some] at hfirst
    rcases hfirst with ⟨hfresh, rfl⟩
    rw [ih hrest, SortedMap.mem_insert hfresh, List.exists_mem_cons_iff, or_assoc, or_left_comm]

/-- The sparse root of a tree filled from a list is the root of the full tree. -/
theorem sparseRoot_of_insertEntries {duplicate : String}
    (h : entries.foldlM (insertEntry duplicate) [] = .ok tree) :
    (entries.map Prod.fst).Nodup ∧ sparseRoot tree = treeRoot entries := by
  have hdistinct := (insertEntries_eq_ok.mp h).1
  refine ⟨hdistinct, Merkle.sparseRoot_eq_nodeAt smtNode ⟨?_, ?_⟩ 256⟩
  · intro x hx
    rcases (mem_insertEntries h x).mp hx with hnil | ⟨e, he, rfl⟩
    · exact absurd hnil (List.not_mem_nil)
    · exact (leafOf_of_mem hdistinct he).symm
  · intro i hi
    have hfind : entries.find? (fun e => e.1.toNat == i) = none := by
      rw [List.find?_eq_none]
      intro e he heq
      refine hi (List.mem_map.mpr ⟨(e.1.toNat, e.2), ?_, beq_iff_eq.mp heq⟩)
      exact (mem_insertEntries h _).mpr (Or.inr ⟨e, he, rfl⟩)
    rw [leafOf, hfind]
    rfl

/-! ## The registry -/

/-- The entry of a licence, whose record is in range. -/
def licenseEntry (l : LicenseState) : Bytes32 × Bytes32 :=
  (l.licenseId, sha256Domain Domains.licenseLeaf [Bytes.b32 l.licenseId, l.record.toBytes])

/-- The message hashed to the leaf of a licence. -/
def licenseMessage (l : LicenseState) : Bytes :=
  message Domains.licenseLeaf [Bytes.b32 l.licenseId, l.record.toBytes]

theorem insertLicenseEntry_eq_ok {l : LicenseState} :
    insertLicenseEntry tree l = .ok tree' ↔
      l.record.validate = .ok () ∧
        tree' = SortedMap.insert l.licenseId.toNat (licenseEntry l).2 tree := by
  simp only [insertLicenseEntry, licenseLeaf, LicenseRecordV1.encode, ok_rules]
  constructor
  · rintro ⟨_, ⟨_, ⟨_, hvalid, rfl⟩, rfl⟩, rfl⟩
    exact ⟨hvalid, rfl⟩
  · rintro ⟨hvalid, rfl⟩
    exact ⟨_, ⟨_, ⟨(), hvalid, rfl⟩, rfl⟩, rfl⟩

/-- A registry without repeated identifiers is inserted like any other collection. -/
theorem insertLicenses_eq_ok {licenses : List LicenseState}
    (hdistinct : (licenses.map (·.licenseId)).Nodup)
    (hfresh : ∀ l ∈ licenses, l.licenseId.toNat ∉ tree.map Prod.fst)
    (h : licenses.foldlM insertLicenseEntry tree = .ok tree') :
    (licenses.map licenseEntry).foldlM (insertEntry "") tree = .ok tree' := by
  have hfold : tree' = (licenses.map licenseEntry).foldl
      (fun t e => SortedMap.insert e.1.toNat e.2 t) tree := by
    clear hdistinct hfresh
    induction licenses generalizing tree with
    | nil =>
      cases h
      rfl
    | cons l licenses ih =>
      rw [List.foldlM_cons, bind_eq_ok] at h
      rcases h with ⟨_, hfirst, hrest⟩
      rcases insertLicenseEntry_eq_ok.mp hfirst with ⟨-, rfl⟩
      exact ih hrest
  refine insertEntries_eq_ok.mpr ⟨?_, ?_, hfold⟩
  · rw [List.map_map]
    exact hdistinct
  · intro e he
    rcases List.mem_map.mp he with ⟨l, hl, rfl⟩
    exact hfresh l hl

variable {s : DevnetState} {root : Bytes32}

theorem computeLicenseRoot_eq (hdistinct : (s.licenses.map (·.licenseId)).Nodup)
    (h : computeLicenseRoot s = .ok root) :
    root = treeRoot (s.licenses.map licenseEntry) := by
  simp only [computeLicenseRoot, ok_rules] at h
  rcases h with ⟨tree, htree, rfl⟩
  exact (sparseRoot_of_insertEntries
    (insertLicenses_eq_ok hdistinct (fun _ _ => List.not_mem_nil) htree)).2

/-! ## The protocol state -/

/-- The objects of the protocol state: type, identifier and value. -/
def protocolObjects (s : DevnetState) (r : RootInputs) : List (UInt16 × Bytes32 × Bytes) :=
  ((Dividends.treasuryState s r.utxos).toOption.toList.map fun treasury =>
      (psTreasuryState, 0, treasury.encode)) ++
    (psDifficultyHistory, 0, difficultyValue r.difficulty.count r.difficulty.bitmap) ::
      (protocolCollections s).flatMap (·.2)

/-- The entry of an object. -/
def objectEntry (o : UInt16 × Bytes32 × Bytes) : Bytes32 × Bytes32 := protocolEntry o.1 o.2.1 o.2.2

/-- The message hashed to the leaf of an object. -/
def objectMessage (o : UInt16 × Bytes32 × Bytes) : Bytes :=
  message Domains.protocolStateLeaf [Bytes.b32 (objectEntry o).1, o.2.2]

variable {r : RootInputs}

omit [Crypto] in
/-- The objects of the type of offences are the offences. -/
theorem offense_mem_protocolObjects {id : Bytes32} {value : Bytes} :
    (psOffenseEvent, id, value) ∈ protocolObjects s r ↔
      ∃ e ∈ s.offenseEvents, e.evidenceId = id ∧ e.valueBytes = value := by
  simp [protocolObjects, protocolCollections, psOffenseEvent, psTreasuryState,
    psDifficultyHistory, psDividendAccount, psConsumedEvidence, psConsumedNativePayment,
    psHistoricalLicenseKey, psMiningPresenceState, psBitcoinHeader, psBitcoinBestChain]

omit [Crypto] in
/-- The objects of the type of dividend accounts are the accounts. -/
theorem account_mem_protocolObjects {id : Bytes32} {value : Bytes} :
    (psDividendAccount, id, value) ∈ protocolObjects s r ↔
      ∃ a ∈ s.dividendAccounts, a.licenseId = id ∧ a.account.encode = value := by
  simp [protocolObjects, protocolCollections, psOffenseEvent, psTreasuryState,
    psDifficultyHistory, psDividendAccount, psConsumedEvidence, psConsumedNativePayment,
    psHistoricalLicenseKey, psMiningPresenceState, psBitcoinHeader, psBitcoinBestChain]

/-- Inserting collections is inserting their objects. -/
theorem insertCollections_eq_ok {collections : List (String × List (UInt16 × Bytes32 × Bytes))}
    (h : collections.foldlM insertCollection tree = .ok tree') :
    ((collections.flatMap (·.2)).map objectEntry).foldlM (insertEntry "") tree = .ok tree' := by
  induction collections generalizing tree with
  | nil => exact h
  | cons collection collections ih =>
    rw [List.foldlM_cons, bind_eq_ok] at h
    rcases h with ⟨tree₁, hfirst, hrest⟩
    rw [List.flatMap_cons, List.map_append, List.foldlM_append, bind_eq_ok]
    exact ⟨tree₁, insertEntries_eq_ok.mpr (insertEntries_eq_ok.mp hfirst), ih hrest⟩

/-- The root of the protocol state, unless the keys of its two fixed objects collide. -/
theorem computeProtocolStateRoot_eq
    (hkeys : protocolStateKey psTreasuryState 0 ≠ protocolStateKey psDifficultyHistory 0)
    (h : computeProtocolStateRoot s r.utxos r.difficulty.count r.difficulty.bitmap = .ok root) :
    (((protocolObjects s r).map objectEntry).map Prod.fst).Nodup ∧
      root = treeRoot ((protocolObjects s r).map objectEntry) := by
  simp only [computeProtocolStateRoot, ok_rules] at h
  rcases h with ⟨treasury, htreasury, tree, htree, rfl⟩
  have hall : ((protocolObjects s r).map objectEntry).foldlM (insertEntry "") [] = .ok tree := by
    have hsplit : protocolObjects s r =
        [(psTreasuryState, 0, treasury.encode), (psDifficultyHistory, 0,
          difficultyValue r.difficulty.count r.difficulty.bitmap)] ++
          (protocolCollections s).flatMap (·.2) := by
      rw [protocolObjects, htreasury]
      rfl
    rw [hsplit, List.map_append, List.foldlM_append, bind_eq_ok]
    refine ⟨_, ?_, insertCollections_eq_ok htree⟩
    refine insertEntries_eq_ok.mpr ⟨?_, fun _ _ => List.not_mem_nil, rfl⟩
    simpa [objectEntry, protocolEntry] using hkeys
  exact sparseRoot_of_insertEntries hall

/-! ## What is hashed for a root -/

/-- The messages that the computation of a state root hashes, as far as the registry
and the protocol state go. -/
inductive Hashed (s : DevnetState) (r : RootInputs) : Bytes → Prop where
  | emptyLeaf : Hashed s r (message Domains.smtEmptyLeaf [])
  | licenseLeaf (l : LicenseState) (h : l ∈ s.licenses) :
      Hashed s r (message Domains.licenseLeaf [Bytes.b32 l.licenseId, l.record.toBytes])
  | licenseNode (m : Bytes) (h : NodeMessage (s.licenses.map licenseEntry) m) : Hashed s r m
  | objectKey (o : UInt16 × Bytes32 × Bytes) (h : o ∈ protocolObjects s r) :
      Hashed s r (message Domains.protocolStateKey [Bytes.u16 o.1, Bytes.b32 o.2.1])
  | objectLeaf (o : UInt16 × Bytes32 × Bytes) (h : o ∈ protocolObjects s r) :
      Hashed s r (message Domains.protocolStateLeaf [Bytes.b32 (objectEntry o).1, o.2.2])
  | objectNode (m : Bytes) (h : NodeMessage ((protocolObjects s r).map objectEntry) m) :
      Hashed s r m
  | root (utxoRoot licenseRoot paymentRoot protocolRoot metaRoot : Bytes32)
      (h : computeStateRoot s r =
        .ok (stateRoot utxoRoot licenseRoot paymentRoot protocolRoot metaRoot)) :
      Hashed s r (message Domains.stateRoot
        [Bytes.b32 utxoRoot, Bytes.b32 licenseRoot, Bytes.b32 paymentRoot,
          Bytes.b32 protocolRoot, Bytes.b32 metaRoot])

/-- Two equal hashes of messages of the two computations are of one message, or
there is a collision. -/
theorem Hashed.eq_or_collides {t : DevnetState} {q : RootInputs} {a b : Bytes} (ha : Hashed s r a)
    (hb : Hashed t q b) (h : Crypto.sha256 a = Crypto.sha256 b) :
    a = b ∨ Collides (Hashed s r) (Hashed t q) := by
  by_cases heq : a = b
  · exact Or.inl heq
  · exact Or.inr ⟨a, b, ha, hb, heq, h⟩

/-- What a state root says beside the trees. -/
def consensusMeta (s : DevnetState) (r : RootInputs) : ConsensusMetaV1 where
  blockHeight := r.height
  eligibleLicenseCount := eligibleLicenseCount s s.tipEpoch
  totalLicensesIssued := UInt64.ofNat s.licenses.length
  difficultyCorrectionQ32 := r.difficulty.correction
  baseFeeRateQ32 := r.baseFeeRate
  totalIssuedStrikes := r.totalIssued

/-- The five roots that a state root is made of. -/
structure RootParts (s : DevnetState) (r : RootInputs)
    (utxoRoot licenseRoot paymentRoot protocolRoot metaRoot : Bytes32) : Prop where
  utxos : computeUtxoRoot r.utxos = .ok utxoRoot
  licenses : computeLicenseRoot s = .ok licenseRoot
  payments : computeExternalPaymentRoot s = .ok paymentRoot
  protocol : computeProtocolStateRoot s r.utxos r.difficulty.count r.difficulty.bitmap =
    .ok protocolRoot
  consensus : metaRoot = (consensusMeta s r).root

theorem computeStateRoot_parts (h : computeStateRoot s r = .ok root) :
    ∃ utxoRoot licenseRoot paymentRoot protocolRoot metaRoot,
      RootParts s r utxoRoot licenseRoot paymentRoot protocolRoot metaRoot ∧
        root = stateRoot utxoRoot licenseRoot paymentRoot protocolRoot metaRoot := by
  simp only [computeStateRoot, ok_rules] at h
  rcases h with ⟨utxoRoot, hutxos, licenseRoot, hlicense, paymentRoot, hpayment, protocolRoot,
    hprotocol, rfl⟩
  exact ⟨utxoRoot, licenseRoot, paymentRoot, protocolRoot, _,
    ⟨hutxos, hlicense, hpayment, hprotocol, rfl⟩, rfl⟩

omit [Crypto] in
theorem message_roots_inj {domain : Bytes} {a b c d e a' b' c' d' e' : Bytes32} :
    message domain [Bytes.b32 a, Bytes.b32 b, Bytes.b32 c, Bytes.b32 d, Bytes.b32 e] =
        message domain [Bytes.b32 a', Bytes.b32 b', Bytes.b32 c', Bytes.b32 d', Bytes.b32 e'] ↔
      a = a' ∧ b = b' ∧ c = c' ∧ d = d' ∧ e = e' := by
  simp only [message, List.flatten_cons, List.flatten_nil, List.append_cancel_left_eq,
    Bytes.be_append_inj, Bytes.b32_inj, and_true]

section Binding

variable {s t : DevnetState} {r q : RootInputs} {root : Bytes32}

/-- One state root is made of the same five roots. -/
theorem parts_bound (hs : computeStateRoot s r = .ok root) (ht : computeStateRoot t q = .ok root) :
    (∃ utxoRoot licenseRoot paymentRoot protocolRoot metaRoot,
      RootParts s r utxoRoot licenseRoot paymentRoot protocolRoot metaRoot ∧
        RootParts t q utxoRoot licenseRoot paymentRoot protocolRoot metaRoot) ∨
      Collides (Hashed s r) (Hashed t q) := by
  rcases computeStateRoot_parts hs with ⟨a, b, c, d, e, hparts, hroot⟩
  rcases computeStateRoot_parts ht with ⟨a', b', c', d', e', hparts', hroot'⟩
  have hsame : Crypto.sha256 _ = Crypto.sha256 _ := hroot.symm.trans hroot'
  rcases (Hashed.root a b c d e (hroot ▸ hs)).eq_or_collides
    (Hashed.root a' b' c' d' e' (hroot' ▸ ht)) hsame with hmessage | hcollides
  · rcases message_roots_inj.mp hmessage with ⟨rfl, rfl, rfl, rfl, rfl⟩
    exact Or.inl ⟨a, b, c, d, e, hparts, hparts'⟩
  · exact Or.inr hcollides

/-- States with one root have the same registry, or two messages collide. -/
theorem licenses_bound (hs : computeStateRoot s r = .ok root) (ht : computeStateRoot t q = .ok root)
    (hsd : (s.licenses.map (·.licenseId)).Nodup) (htd : (t.licenses.map (·.licenseId)).Nodup) :
    (∀ l ∈ s.licenses, ∃ l' ∈ t.licenses, l'.licenseId = l.licenseId ∧ l'.record = l.record) ∨
      Collides (Hashed s r) (Hashed t q) := by
  rcases parts_bound hs ht with ⟨_, _, _, _, _, hparts, hparts'⟩ | hcollides
  swap
  · exact Or.inr hcollides
  have htrees := (computeLicenseRoot_eq hsd hparts.licenses).symm.trans
    (computeLicenseRoot_eq htd hparts'.licenses)
  rcases tree_bound licenseEntry licenseMessage (fun _ => rfl) (by rw [List.map_map]; exact hsd)
    (by rw [List.map_map]; exact htd) htrees (fun m => Hashed.licenseNode m)
    (fun m => Hashed.licenseNode m) Hashed.licenseLeaf Hashed.licenseLeaf Hashed.emptyLeaf
    (fun _ => message_ne 8 (by decide) (by decide) (by decide)) with hsame | hcollides
  · refine Or.inl fun l hl => ?_
    rcases hsame l hl with ⟨l', hl', hid, hmessage⟩
    refine ⟨l', hl', hid, ?_⟩
    simp only [licenseMessage, message, List.flatten_cons, List.flatten_nil, List.append_nil,
      List.append_cancel_left_eq, Bytes.be_append_inj] at hmessage
    exact LicenseRecordV1.toBytes_inj hmessage.2
  · exact Or.inr hcollides

/-- A root of the protocol state exists only if the treasury covers its reserve. -/
theorem treasury_mem_protocolObjects
    (h : computeProtocolStateRoot s r.utxos r.difficulty.count r.difficulty.bitmap = .ok root) :
    ∃ treasury : TreasuryStateV1,
      (psTreasuryState, 0, treasury.encode) ∈ protocolObjects s r := by
  simp only [computeProtocolStateRoot, bind_eq_ok] at h
  rcases h with ⟨treasury, htreasury, -⟩
  refine ⟨treasury, ?_⟩
  rw [protocolObjects, htreasury]
  exact List.mem_cons_self

omit [Crypto] in
theorem difficulty_mem_protocolObjects (t : DevnetState) (q : RootInputs) :
    (psDifficultyHistory, 0, difficultyValue q.difficulty.count q.difficulty.bitmap) ∈
      protocolObjects t q :=
  List.mem_append_right _ List.mem_cons_self

/-- States with one root have the same protocol state, or two messages collide. -/
theorem objects_bound (hs : computeStateRoot s r = .ok root) (ht : computeStateRoot t q = .ok root) :
    (∀ o ∈ protocolObjects s r, o ∈ protocolObjects t q) ∨
      Collides (Hashed s r) (Hashed t q) := by
  by_contra hnot
  rw [not_or] at hnot
  rcases hnot with ⟨hlost, hnone⟩
  rcases parts_bound hs ht with ⟨_, _, _, _, _, hparts, hparts'⟩ | hcollides
  swap
  · exact hnone hcollides
  have hroot := hparts.protocol
  have hroot' := hparts'.protocol
  have hkeys : protocolStateKey psTreasuryState 0 ≠ protocolStateKey psDifficultyHistory 0 := by
    intro hsame
    rcases treasury_mem_protocolObjects hroot with ⟨treasury, htreasury⟩
    rcases (Hashed.objectKey _ htreasury).eq_or_collides
      (Hashed.objectKey _ (difficulty_mem_protocolObjects t q)) hsame with heq | hcollides
    · simp only [message, List.flatten_cons, List.append_cancel_left_eq, Bytes.be_append_inj,
        Bytes.u16_inj] at heq
      exact absurd heq.1 (by decide)
    · exact hnone hcollides
  rcases computeProtocolStateRoot_eq hkeys hroot with ⟨hsd, hrootEq⟩
  rcases computeProtocolStateRoot_eq hkeys hroot' with ⟨htd, hrootEq'⟩
  rcases tree_bound objectEntry objectMessage (fun _ => rfl) hsd htd
    (hrootEq.symm.trans hrootEq') (fun m => Hashed.objectNode m) (fun m => Hashed.objectNode m)
    Hashed.objectLeaf Hashed.objectLeaf Hashed.emptyLeaf
    (fun _ => message_ne 8 (by decide) (by decide) (by decide)) with hsame | hcollides
  swap
  · exact hnone hcollides
  refine hlost fun o ho => ?_
  rcases hsame o ho with ⟨o', ho', hkey, hmessage⟩
  rcases (Hashed.objectKey o' ho').eq_or_collides (Hashed.objectKey o ho) hkey with
    hkeys | hcollides
  swap
  · exact absurd hcollides.symm hnone
  simp only [objectMessage, message, List.flatten_cons, List.flatten_nil, List.append_nil,
    List.append_cancel_left_eq, Bytes.be_append_inj, Bytes.u16_inj, Bytes.b32_inj]
    at hkeys hmessage
  have heq : o' = o := Prod.ext hkeys.1 (Prod.ext hkeys.2 hmessage.2)
  rw [← heq]
  exact ho'

end Binding

end Trees

/-! ## Another registry -/

section Registry

/-- A licence without strikes. -/
def LicenseState.Unpunished (l : LicenseState) : Prop :=
  l.status ≠ licenseStatusRevoked ∧ l.strikeWeight = 0 ∧ l.revocationEpoch = 0

instance : DecidablePred LicenseState.Unpunished := fun l => by
  unfold LicenseState.Unpunished
  infer_instance

variable [Crypto]

theorem exists_computeLicenseRoot {licenses : List LicenseState} {tree : TreeEntries}
    (h : ∀ l ∈ licenses, l.record.validate = .ok ()) :
    ∃ tree', licenses.foldlM insertLicenseEntry tree = .ok tree' := by
  induction licenses generalizing tree with
  | nil => exact ⟨tree, rfl⟩
  | cons l licenses ih =>
    rcases @ih (SortedMap.insert l.licenseId.toNat (licenseEntry l).2 tree)
      fun l' hl' => h l' (List.mem_cons_of_mem l hl') with ⟨tree', htree'⟩
    refine ⟨tree', ?_⟩
    rw [List.foldlM_cons, insertLicenseEntry_eq_ok.mpr ⟨h l List.mem_cons_self, rfl⟩, ok_bind,
      htree']

/-- Where nothing refers to the registry it may be replaced: with the root computed anew the
state is a checked one. -/
theorem CheckedState.exists_with_licenses {s : DevnetState} (h : CheckedState s)
    (hevents : s.offenseEvents = []) (haccounts : s.dividendAccounts = [])
    (hpresence : s.miningPresence = []) {licenses : List LicenseState}
    (htexts : (licenses.map (·.licenseIdText)).Nodup)
    (hentries : ∀ l ∈ licenses, ValidEntry l ∧ l.Unpunished) :
    ∃ root, CheckedState { s with licenses := licenses, currentStateRoot := root } := by
  have hpunishment : ∀ root, Punishment.checkState
      { s with licenses := licenses, currentStateRoot := root } = .ok () := by
    intro root
    rcases Punishment.checkState_eq_ok.mp h.punishment with ⟨hconsumed, -⟩
    refine Punishment.checkState_eq_ok.mpr ⟨hconsumed, by simp [hevents], by simp [hevents], [],
      by rw [hevents]; rfl, ?_⟩
    intro l hl
    rcases (hentries l hl).2 with ⟨hstatus, hstrikes, hrevoked⟩
    rw [Punishment.CarriesWeight, if_neg hstatus]
    exact ⟨hstrikes, hrevoked⟩
  have hdividends : ∀ root, Dividends.checkState
      { s with licenses := licenses, currentStateRoot := root } = .ok () := by
    intro root
    rcases Dividends.checkState_eq_ok.mp h.dividends with ⟨hbound, hbacked, -, -, hclaimable⟩
    exact Dividends.checkState_eq_ok.mpr
      ⟨hbound, hbacked, by simp [haccounts], by simp [haccounts], hclaimable⟩
  have hpresences : ∀ root, Presence.checkState
      { s with licenses := licenses, currentStateRoot := root } = .ok () := by
    intro root
    exact Presence.checkState_eq_ok.mpr ⟨by simp [hpresence], by simp [hpresence]⟩
  have hroot : ∃ root, computeStateRoot { s with licenses := licenses } s.rootInputs =
      .ok root := by
    have hold := h.root
    simp only [computeStateRoot, ok_rules] at hold ⊢
    rcases hold with ⟨utxoRoot, hutxos, -, -, paymentRoot, hpayment, protocolRoot, hprotocol, -⟩
    rcases exists_computeLicenseRoot fun l hl => (hentries l hl).1.record with ⟨tree, htree⟩
    refine ⟨_, utxoRoot, hutxos, sparseRoot tree, ?_, paymentRoot, hpayment, protocolRoot,
      hprotocol, rfl⟩
    rw [computeLicenseRoot]
    exact congrArg (· >>= _) htree
  rcases hroot with ⟨root, hroot⟩
  exact ⟨root, h.identity, h.words, h.tip, h.height, htexts, fun l hl => (hentries l hl).1,
    h.nativePayments, h.bitcoinPayments, h.bitcoinHeaders, hpunishment root, hdividends root,
    hpresences root, h.historical, h.supply, hroot⟩

end Registry

end Mutiny
