import Mutiny.Node.Dividends
import Mutiny.Node.Punishment
import Mutiny.Node.BitcoinPurchase

/-!
# State roots and the state check

The entries of the four sparse trees, the state root over them, and the check a
node runs on a state before it stores it and after it loads it.
-/

namespace Mutiny

open Result

/-- The entries of a sparse tree, as a map from the key read as a number. -/
abbrev TreeEntries := List (Nat × Bytes32)

/-- Insert a key that must be new. -/
def insertEntry (duplicate : String) (entries : TreeEntries) (entry : Bytes32 × Bytes32) :
    Except String TreeEntries :=
  okOr (SortedMap.insertNew entry.1.toNat entry.2 entries) duplicate

/-- A collection is inserted exactly when its keys are new and differ from each
other. -/
theorem insertEntries_eq_ok {duplicate : String} {entries : List (Bytes32 × Bytes32)}
    {tree tree' : TreeEntries} :
    entries.foldlM (insertEntry duplicate) tree = .ok tree' ↔
      (entries.map Prod.fst).Nodup ∧
        (∀ e ∈ entries, e.1.toNat ∉ tree.map Prod.fst) ∧
        tree' = entries.foldl (fun t e => SortedMap.insert e.1.toNat e.2 t) tree := by
  induction entries generalizing tree with
  | nil =>
    rw [List.foldlM_nil, pure_eq_ok, eq_comm]
    simp
  | cons entry entries ih =>
    rw [List.foldlM_cons, bind_eq_ok]
    simp only [insertEntry, okOr_eq_ok, SortedMap.insertNew_eq_some,
      SortedMap.contains_eq_false, List.map_cons, List.nodup_cons, List.forall_mem_cons,
      List.foldl_cons]
    constructor
    · rintro ⟨_, ⟨hnew, rfl⟩, hrest⟩
      rcases ih.mp hrest with ⟨hdistinct, hfresh, rfl⟩
      have hother : ∀ e ∈ entries, e.1 ≠ entry.1 ∧ e.1.toNat ∉ tree.map Prod.fst := by
        intro e he
        have hnot := hfresh e he
        rw [SortedMap.mem_keys_insert, not_or] at hnot
        exact ⟨fun heq => hnot.1 (congrArg BitVec.toNat heq), hnot.2⟩
      refine ⟨⟨?_, hdistinct⟩, ⟨hnew, fun e he => (hother e he).2⟩, rfl⟩
      intro hmem
      rcases List.mem_map.mp hmem with ⟨e, he, heq⟩
      exact (hother e he).1 heq
    · rintro ⟨⟨hdiffers, hdistinct⟩, ⟨hnew, hfresh⟩, rfl⟩
      refine ⟨_, ⟨hnew, rfl⟩, ih.mpr ⟨hdistinct, ?_, rfl⟩⟩
      intro e he hmem
      rcases SortedMap.mem_keys_insert.mp hmem with heq | hmem
      · exact hdiffers (BitVec.eq_of_toNat_eq heq ▸ List.mem_map_of_mem he)
      · exact hfresh e he hmem

section Roots

variable [Crypto]

/-- The key and the leaf of an unspent output. -/
def utxoEntry (u : UtxoState) : Bytes32 × Bytes32 :=
  let key := utxoKey u.txid.bytes u.outputIndex
  (key, utxoLeaf key u.value)

def computeUtxoRoot (utxos : List UtxoState) : Except String Bytes32 := do
  let entries ← (utxos.map utxoEntry).foldlM (insertEntry "duplicate UTXO key") []
  .ok (sparseRoot entries)

/-- A root exists only for distinct outpoints: equal ones have equal keys. -/
theorem nodup_of_computeUtxoRoot {utxos : List UtxoState} {root : Bytes32}
    (h : computeUtxoRoot utxos = .ok root) : (utxos.map UtxoState.outpoint).Nodup := by
  simp only [computeUtxoRoot, bind_eq_ok, insertEntries_eq_ok] at h
  rcases h with ⟨_, ⟨hdistinct, -, -⟩, -⟩
  have hkeys : (utxos.map utxoEntry).map Prod.fst =
      (utxos.map UtxoState.outpoint).map fun o =>
        utxoKey o.previousTxid o.previousOutputIndex := by
    simp only [List.map_map]
    rfl
  rw [hkeys] at hdistinct
  exact hdistinct.of_map

/-- A licence replaces an earlier one with the same identifier. -/
def insertLicenseEntry (entries : TreeEntries) (l : LicenseState) : Except String TreeEntries := do
  let leaf ← (licenseLeaf l.licenseId l.record).mapError StateError.message
  .ok (SortedMap.insert l.licenseId.toNat leaf entries)

def computeLicenseRoot (s : DevnetState) : Except String Bytes32 := do
  let entries ← s.licenses.foldlM insertLicenseEntry []
  .ok (sparseRoot entries)

def computeExternalPaymentRoot (s : DevnetState) : Except String Bytes32 := do
  let entries ← (s.consumedBitcoinPayments.map fun p =>
    (p.paymentId, externalPaymentLeaf p.paymentId p.valueBytes)).foldlM
      (insertEntry "duplicate BitcoinPaymentID ExternalPayment key") []
  .ok (sparseRoot entries)

/-- The entry of one object of the protocol state. -/
def protocolEntry (objectType : UInt16) (objectId : Bytes32) (value : Bytes) : Bytes32 × Bytes32 :=
  let key := protocolStateKey objectType objectId
  (key, protocolStateLeaf key value)

/-- The collections of the protocol state in the order they are inserted, each
with the error that a repeated key in it raises. -/
def protocolCollections (s : DevnetState) : List (String × List (UInt16 × Bytes32 × Bytes)) :=
  [("duplicate dividend-account protocol-state key",
      s.dividendAccounts.map fun a => (psDividendAccount, a.licenseId, a.account.encode)),
    ("duplicate consumed EvidenceID protocol-state key",
      s.consumedEvidence.map fun id => (psConsumedEvidence, id, [])),
    ("duplicate active-offense protocol-state key",
      s.offenseEvents.map fun e => (psOffenseEvent, e.evidenceId, e.valueBytes)),
    ("duplicate consumed NativePaymentID protocol-state key",
      s.consumedNativePayments.map fun id => (psConsumedNativePayment, id, [])),
    ("duplicate historical-license-key protocol-state key",
      s.historicalLicenseKeys.map fun h => (psHistoricalLicenseKey, h.operationId, h.valueBytes)),
    ("duplicate mining-presence protocol-state key",
      s.miningPresence.map fun p => (psMiningPresenceState, p.licenseId, p.valueBytes)),
    ("duplicate BITCOIN_HEADER ProtocolState key",
      s.bitcoinHeaders.map fun h => (psBitcoinHeader, h.blockHashInternal, h.valueBytes)),
    ("duplicate BITCOIN_BEST_CHAIN ProtocolState key",
      s.bitcoinBestChain.toList.map fun b => (psBitcoinBestChain, 0, b.valueBytes))]

/-- Insert one collection. -/
def insertCollection (entries : TreeEntries)
    (collection : String × List (UInt16 × Bytes32 × Bytes)) : Except String TreeEntries :=
  (collection.2.map fun (objectType, objectId, value) =>
    protocolEntry objectType objectId value).foldlM (insertEntry collection.1) entries

def difficultyValue (count : UInt8) (bitmap : UInt64) : Bytes := count :: Bytes.u64 bitmap

def computeProtocolStateRoot (s : DevnetState) (utxos : List UtxoState) (difficultyCount : UInt8)
    (difficultyBitmap : UInt64) : Except String Bytes32 := do
  let treasury ← Dividends.treasuryState s utxos
  let treasuryEntry := protocolEntry psTreasuryState 0 treasury.encode
  let difficultyEntry :=
    protocolEntry psDifficultyHistory 0 (difficultyValue difficultyCount difficultyBitmap)
  let entries := SortedMap.insert difficultyEntry.1.toNat difficultyEntry.2
    (SortedMap.insert treasuryEntry.1.toNat treasuryEntry.2 [])
  let entries ← (protocolCollections s).foldlM insertCollection entries
  .ok (sparseRoot entries)

/-- The values a root is computed for that are not read off the state. -/
structure RootInputs where
  utxos : List UtxoState
  height : UInt64
  totalIssued : UInt64
  difficulty : DifficultyHistory
  baseFeeRate : UInt64

def computeStateRoot (s : DevnetState) (r : RootInputs) : Except String Bytes32 := do
  let utxoRoot ← computeUtxoRoot r.utxos
  let licenseRoot ← computeLicenseRoot s
  let externalPaymentRoot ← computeExternalPaymentRoot s
  let protocolRoot ←
    computeProtocolStateRoot s r.utxos r.difficulty.count r.difficulty.bitmap
  let consensusMeta : ConsensusMetaV1 :=
    { blockHeight := r.height
      eligibleLicenseCount := eligibleLicenseCount s s.tipEpoch
      totalLicensesIssued := UInt64.ofNat s.licenses.length
      difficultyCorrectionQ32 := r.difficulty.correction
      baseFeeRateQ32 := r.baseFeeRate
      totalIssuedStrikes := r.totalIssued }
  .ok (stateRoot utxoRoot licenseRoot externalPaymentRoot protocolRoot consensusMeta.root)

/-- The root inputs of a state as it stands. -/
def DevnetState.rootInputs (s : DevnetState) : RootInputs where
  utxos := s.utxos
  height := s.height
  totalIssued := s.totalIssuedStrikes
  difficulty := s.difficultyHistory
  baseFeeRate := s.baseFeeRateQ32

/-- The stored root is computed anew. -/
def refreshCurrentStateRoot (s : DevnetState) : Except String DevnetState := do
  let root ← computeStateRoot s s.rootInputs
  .ok { s with currentStateRoot := root }

/-! ## The check of a whole state -/

/-- The network and genesis a state may belong to. -/
def validTuple (s : DevnetState) : Bool :=
  (s.networkId == devnetNetworkId &&
      (decide (s.formatVersion < 10) || s.genesisHash == devnetGenesisId)) ||
    (s.networkId == mainnetNetworkId && s.genesisHash == mainnetGenesisId)

/-- One licence of the registry; {lit}`seen` are the texts of the identifiers before it. -/
def checkLicenseEntry (seen : List HexText) (l : LicenseState) : Except String (List HexText) := do
  l.record.validate.mapError StateError.message
  reject (l.licenseIdText ∈ seen) "duplicate LicenseID in license registry"
  reject (l.paymentAddressId ≠ addressId l.ownerPublicKey)
    "Mining License payment address is not derived from current owner key"
  .ok (l.licenseIdText :: seen)

/-- The check of a loaded state. -/
def checkState (s : DevnetState) : Except String Unit := do
  reject (validTuple s = false ∨ s.motto ≠ motto) "network identity mismatch"
  reject (s.tipHash ≠ (s.blocks.getLast?.map (·.blockHash)).getD s.genesisHash)
    "tip hash does not match block history"
  reject (s.height ≠ UInt64.ofNat s.blocks.length) "height does not match block count"
  let _ ← s.licenses.foldlM checkLicenseEntry []
  reject (¬ s.consumedNativePayments.Nodup) "duplicate consumed NativePaymentID"
  BitcoinPurchase.checkState s
  BitcoinHeaders.checkState s
  Punishment.checkState s
  Dividends.checkState s
  Presence.checkState s
  reject (¬ (s.historicalLicenseKeys.map (·.operationId)).Nodup)
    "duplicate historical-license-key OperationID"
  reject (2 ^ 128 ≤ utxoSupply s.utxos) "UTXO supply overflow"
  reject (utxoSupply s.utxos ≠ s.totalIssuedStrikes.toNat)
    ("supply invariant failed: UTXOs=" ++ toString (utxoSupply s.utxos) ++ " Strikes, issued=" ++
      toString s.totalIssuedStrikes ++ " Strikes")
  let root ← computeStateRoot s s.rootInputs
  reject (root ≠ s.currentStateRoot) "current StateRoot mismatch"

end Roots

end Mutiny
