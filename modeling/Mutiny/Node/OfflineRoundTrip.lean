import Mutiny.Node.RootBinding
import Mutiny.Node.WalletPayment

/-!
# The way of an offline spend

The owner of a licence asks a node for a spend request, carries its bytes to a machine
without a network, signs every input there, and submits the request with the signatures.
The request selects outputs as the wallet does, so what is submitted is one of the payments
of the wallet; the submission also records the places of both licences in one byte each.

Main result:

- Theorem {lit}`offline_round_trip_iff`: exactly when a created request goes all the way.
-/

namespace Mutiny

open Result

/-! ## The bytes of a request -/

def offlineSpendRequestMagic : Bytes := Bytes.ascii "MUTOSRQ1"

def offlineSpendVersion : UInt16 := 1

/-- The bytes of an input whose payload fits. -/
def prevoutBytes (p : PrevoutCommitmentV1) : Bytes :=
  Bytes.b32 p.outpoint.previousTxid ++ (Bytes.u16 p.outpoint.previousOutputIndex ++
    (Bytes.u64 p.amountStrikes ++ ([p.outputType] ++
      (Bytes.u16 (UInt16.ofNat p.payload.length) ++ p.payload))))

def encodeOfflinePrevout (p : PrevoutCommitmentV1) : Except String Bytes := do
  reject (65535 < p.payload.length) "offline spend prevout payload too large"
  .ok (prevoutBytes p)

/-- The bytes of an output whose payload fits. -/
def outputBytes (o : TxOutput) : Bytes :=
  Bytes.u64 o.amountStrikes ++
    ([o.outputType] ++ (Bytes.u16 (UInt16.ofNat o.payload.length) ++ o.payload))

def encodeOfflineOutput (o : TxOutput) : Except String Bytes := do
  reject (65535 < o.payload.length) "offline spend output payload too large"
  .ok (outputBytes o)

section Encoding

variable [Crypto]

namespace OfflineSpendRequestV1

/-- The bytes in front of the inputs. -/
def head (r : OfflineSpendRequestV1) : Bytes :=
  offlineSpendRequestMagic ++ (Bytes.u16 offlineSpendVersion ++ (Bytes.u32 r.networkId ++
    (Bytes.b32 r.genesisId ++ (Bytes.b32 r.fromLicenseId ++ (Bytes.b32 r.toLicenseId ++
      (Bytes.b32 r.ownerPublicKey ++ (Bytes.u64 r.createdHeight ++ (Bytes.u64 r.maxSubmitHeight ++
        (Bytes.u64 r.validFromEpoch ++ (Bytes.u64 r.expiryEpoch ++ (Bytes.u64 r.amountStrikes ++
          Bytes.u64 r.feeStrikes)))))))))))

def encode (r : OfflineSpendRequestV1) : Except String Bytes := do
  reject (r.prevouts = [] ∨ 1024 < r.prevouts.length ∨ r.outputs = [] ∨ 1024 < r.outputs.length)
    "offline spend request input/output count outside 1..=1024"
  let prevouts ← r.prevouts.mapM encodeOfflinePrevout
  let outputs ← r.outputs.mapM encodeOfflineOutput
  let out := r.head ++ (Bytes.u16 (UInt16.ofNat r.prevouts.length) ++ (prevouts.flatten ++
    (Bytes.u16 (UInt16.ofNat r.outputs.length) ++ outputs.flatten)))
  .ok (out ++ Bytes.b32 (Crypto.sha256 out))

end OfflineSpendRequestV1

end Encoding

namespace OfflineSpendRequestV1

open Reader

def malformed : String := "malformed MutinyOfflineSpendRequestV1"

/-- A field of fixed width; whatever is missing, the request is malformed. -/
def field {α : Type} (r : Reader DecodeError α) : Reader String α := r.mapError fun _ => malformed

/-- A byte string after its length. -/
def readPayload : Reader String Bytes := do
  let payloadLen ← field readU16Be
  take malformed payloadLen.toNat

def readPrevout : Reader String PrevoutCommitmentV1 := do
  let previousTxid ← field readU256Be
  let previousOutputIndex ← field readU16Be
  let amount ← field readU64Be
  let outputType ← field readU8
  let payload ← readPayload
  pure ⟨⟨previousTxid, previousOutputIndex⟩, amount, outputType, payload⟩

def readOutput : Reader String TxOutput := do
  let amount ← field readU64Be
  let outputType ← field readU8
  let payload ← readPayload
  pure ⟨amount, outputType, payload⟩

/-- Everything in front of the checksum. -/
def readBody : Reader String OfflineSpendRequestV1 := do
  let magic ← take malformed 8
  rejectIf (magic ≠ offlineSpendRequestMagic) "invalid offline spend request magic"
  let version ← field readU16Be
  rejectIf (version ≠ offlineSpendVersion) "unsupported offline spend request version"
  let networkId ← field readU32Be
  let genesisId ← field readU256Be
  let fromLicenseId ← field readU256Be
  let toLicenseId ← field readU256Be
  let ownerPublicKey ← field readU256Be
  let createdHeight ← field readU64Be
  let maxSubmitHeight ← field readU64Be
  let validFromEpoch ← field readU64Be
  let expiryEpoch ← field readU64Be
  let amountStrikes ← field readU64Be
  let feeStrikes ← field readU64Be
  let inputCount ← field readU16Be
  rejectIf (inputCount = 0 ∨ 1024 < inputCount)
    "offline spend request input count outside 1..=1024"
  let prevouts ← replicateM readPrevout inputCount.toNat
  let outputCount ← field readU16Be
  rejectIf (outputCount = 0 ∨ 1024 < outputCount)
    "offline spend request output count outside 1..=1024"
  let outputs ← replicateM readOutput outputCount.toNat
  pure
    { networkId, genesisId, fromLicenseId, toLicenseId, ownerPublicKey, createdHeight,
      maxSubmitHeight, validFromEpoch, expiryEpoch, amountStrikes, feeStrikes, prevouts, outputs }

def decode [Crypto] (bytes : Bytes) : Except String OfflineSpendRequestV1 := do
  reject (bytes.length < 8 + 2 + 4 + 32 * 4 + 8 * 6 + 2 + 2 + 32) malformed
  let checksumAt := bytes.length - 32
  reject (Bytes.b32 (Crypto.sha256 (bytes.take checksumAt)) ≠ bytes.drop checksumAt)
    "offline spend request checksum mismatch"
  let (request, rest) ← readBody (bytes.take checksumAt)
  reject (rest ≠ []) "offline spend request has trailing bytes"
  validateOfflineRequestStatic request
  .ok request

end OfflineSpendRequestV1

/-! ## The request and its authorization -/

section Request

variable [Crypto]

/-- A request to pay another licence. -/
def createOfflineSendRequest (s : DevnetState) (source target : Nat) (amount : UInt64) :
    Except String OfflineSpendRequestV1 := do
  reject (amount = 0) "amount must be greater than zero"
  let sender ← okOr s.licenses[source]? "license number out of range"
  let receiver ← okOr s.licenses[target]? "license number out of range"
  reject (s.genesisHash ≠ devnetGenesisId) "offline signing requires the locked Devnet GenesisID"
  reject (addressId sender.ownerPublicKey ≠ sender.paymentAddressId)
    "current owner public key does not match the license payment address"
  let (selected, change) ← fundPayment s.baseFeeRateQ32 (estimateSendWeight · 2) amount
    sendTexts.need (spendableOutputs s sender.paymentAddressId)
  -- the fee that the selection was funded with
  let fee ← estimatedFee s.baseFeeRateQ32 (estimateSendWeight · 2) selected.length
  let maxSubmitHeight ← okOr (s.height.checkedAdd offlineSpendMaxSubmitBlocks)
    "offline spend submission height overflow"
  let request : OfflineSpendRequestV1 :=
    { networkId := devnetNetworkId
      genesisId := s.genesisHash
      fromLicenseId := sender.licenseId
      toLicenseId := receiver.licenseId
      ownerPublicKey := sender.ownerPublicKey
      createdHeight := s.height
      maxSubmitHeight := maxSubmitHeight
      validFromEpoch := nextMineableEpoch s
      expiryEpoch := 0
      amountStrikes := amount
      feeStrikes := fee
      prevouts := selected.map UtxoState.prevout
      outputs := ⟨amount, outputPubkeyHash, Bytes.b32 receiver.paymentAddressId⟩ ::
        if 0 < change then [⟨change, outputPubkeyHash, Bytes.b32 sender.paymentAddressId⟩]
        else [] }
  validateOfflineRequestStatic request
  .ok request

/-- The authorization that the offline signer makes of the bytes of a request: one signature
for the digest of each input. -/
def signOfflineRequest (sk : Bytes32) (bytes : Bytes) (r : OfflineSpendRequestV1) :
    OfflineSpendSignatureV1 where
  networkId := r.networkId
  requestHash := Crypto.sha256 bytes
  ownerPublicKey := r.ownerPublicKey
  signatures := r.prevouts.zipIdx.map fun (prevout, i) =>
    Crypto.sign sk (Bytes.b32 (sighashAll r.core.txid (UInt16.ofNat i) prevout))

/-! ## What the checks of a request say -/

omit [Crypto] in
theorem foldlM_offlineInput_eq_ok {ownerAddress : Bytes32} {prevouts : List PrevoutCommitmentV1}
    {acc sum : UInt64} :
    prevouts.foldlM (offlineInput ownerAddress) acc = .ok sum ↔
      (∀ p ∈ prevouts, p.outputType = outputPubkeyHash ∧ p.payload = Bytes.b32 ownerAddress) ∧
        (prevouts.map (·.amountStrikes)).foldlM (addStrikes "offline spend input sum overflow")
          acc = .ok sum := by
  induction prevouts generalizing acc with
  | nil => simp
  | cons p prevouts ih =>
    simp only [List.foldlM_cons, List.map_cons, List.forall_mem_cons, offlineInput, ok_rules,
      not_or, not_not, ih]
    constructor
    · rintro ⟨acc', ⟨_, howned, hadd⟩, hrest, hsum⟩
      exact ⟨⟨howned, hrest⟩, acc', hadd, hsum⟩
    · rintro ⟨⟨howned, hrest⟩, acc', hadd, hsum⟩
      exact ⟨acc', ⟨(), howned, hadd⟩, hrest, hsum⟩

/-- The parts of a valid request that its bytes and its submission rest on. -/
structure OfflineRequestValid (r : OfflineSpendRequestV1) : Prop where
  prevouts_ne : r.prevouts ≠ []
  prevouts_le : r.prevouts.length ≤ 1024
  outputs_ne : r.outputs ≠ []
  outputs_le : r.outputs.length ≤ 2
  owned : ∀ p ∈ r.prevouts, p.outputType = outputPubkeyHash ∧
    p.payload = Bytes.b32 (addressId r.ownerPublicKey)
  paid : ∀ o ∈ r.outputs, o.outputType = outputPubkeyHash ∧ o.payload.length = 32
  balanced : ∃ inputSum outputSum,
    (r.prevouts.map (·.amountStrikes)).foldlM (addStrikes "offline spend input sum overflow") 0 =
        .ok inputSum ∧
      (r.outputs.map (·.amountStrikes)).foldlM (addStrikes "offline spend output sum overflow") 0 =
        .ok outputSum ∧
      inputSum.checkedSub outputSum = some r.feeStrikes

theorem OfflineRequestValid.of_static {r : OfflineSpendRequestV1}
    (h : validateOfflineRequestStatic r = .ok ()) : OfflineRequestValid r := by
  simp only [validateOfflineRequestStatic, ok_rules, foldlM_offlineInput_eq_ok, not_not, not_or,
    not_lt, Bool.not_eq_false] at h
  rcases h with ⟨_, -, _, -, _, -, _, -, _, ⟨hsome, hcount, hpays, hshape⟩, inputSum,
    ⟨howned, hinputs⟩, _, hdestination, _, hchange, outputSum, houtputs, fee, hfee, _, rfl, -⟩
  refine ⟨hsome, hcount, hpays, hshape, howned, ?_, inputSum, outputSum, hinputs, houtputs, hfee⟩
  -- a destination, and at most a change output after it
  rcases hlist : r.outputs with _ | ⟨destination, _ | ⟨change, _ | ⟨other, outputs⟩⟩⟩
  · exact absurd hlist hpays
  · simp only [hlist, List.getElem?_cons_zero, Option.any_some, decide_eq_true_eq] at hdestination
    simp only [List.mem_singleton, forall_eq]
    exact hdestination.2
  · simp only [hlist, List.getElem?_cons_zero, List.getElem?_cons_succ, Option.any_some,
      Option.all_some, decide_eq_true_eq] at hdestination hchange
    simp only [List.forall_mem_cons, List.not_mem_nil, false_imp_iff, implies_true, and_true]
    refine ⟨hdestination.2, hchange.2.1, ?_⟩
    rw [hchange.2.2, Bytes.length_be]
  · simp [hlist] at hshape

/-! ## Reading the bytes back -/

namespace OfflineSpendRequestV1

open Reader

omit [Crypto] in
theorem reads_field {α : Type} {r : Reader DecodeError α} {bs : Bytes} {a : α}
    (h : Reads r bs a) : Reads (field r) bs a :=
  h.mapError

omit [Crypto] in
theorem toNat_ofNat_length {α : Type} {xs : List α} {limit : Nat} (h : xs.length ≤ limit)
    (hlimit : limit ≤ 65535) : (UInt16.ofNat xs.length).toNat = xs.length := by
  rw [UInt16.toNat_ofNat', Nat.mod_eq_of_lt (by omega)]

omit [Crypto] in
theorem count_not_outside {α : Type} {xs : List α} (hsome : xs ≠ []) (h : xs.length ≤ 1024) :
    ¬(UInt16.ofNat xs.length = 0 ∨ 1024 < UInt16.ofNat xs.length) := by
  have hcount := toNat_ofNat_length h (by decide)
  have hpos := List.length_pos_iff.mpr hsome
  have hlimit : (1024 : UInt16).toNat = 1024 := rfl
  rw [← UInt16.toNat_inj, UInt16.lt_iff_toNat_lt, hcount, hlimit, UInt16.toNat_zero]
  omega

omit [Crypto] in
theorem reads_payload {payload : Bytes} (h : payload.length ≤ 65535) :
    Reads readPayload (Bytes.u16 (UInt16.ofNat payload.length) ++ payload) payload :=
  (reads_field (reads_u16 _)).bind (reads_take (toNat_ofNat_length h (Nat.le_refl _)).symm)

omit [Crypto] in
theorem encodeOfflinePrevout_eq_ok (p : PrevoutCommitmentV1) (bs : Bytes) :
    encodeOfflinePrevout p = .ok bs ↔ p.payload.length ≤ 65535 ∧ bs = prevoutBytes p := by
  rw [encodeOfflinePrevout, reject_ok_eq_ok, not_lt]

omit [Crypto] in
theorem encodeOfflineOutput_eq_ok (o : TxOutput) (bs : Bytes) :
    encodeOfflineOutput o = .ok bs ↔ o.payload.length ≤ 65535 ∧ bs = outputBytes o := by
  rw [encodeOfflineOutput, reject_ok_eq_ok, not_lt]

omit [Crypto] in
theorem reads_prevout {p : PrevoutCommitmentV1} (h : p.payload.length ≤ 65535) :
    Reads readPrevout (prevoutBytes p) p :=
  (reads_field (reads_u256 _)).bind <| (reads_field (reads_u16 _)).bind <|
    (reads_field (reads_u64 _)).bind <| (reads_field (reads_u8 _)).bind <|
      (reads_payload h).map_last (reads_pure p)

omit [Crypto] in
theorem reads_output {o : TxOutput} (h : o.payload.length ≤ 65535) :
    Reads readOutput (outputBytes o) o :=
  (reads_field (reads_u64 _)).bind <| (reads_field (reads_u8 _)).bind <|
    (reads_payload h).map_last (reads_pure o)

/-- The bytes in front of the checksum. -/
def bodyBytes (r : OfflineSpendRequestV1) : Bytes :=
  r.head ++ (Bytes.u16 (UInt16.ofNat r.prevouts.length) ++ (r.prevouts.flatMap prevoutBytes ++
    (Bytes.u16 (UInt16.ofNat r.outputs.length) ++ r.outputs.flatMap outputBytes)))

variable {r : OfflineSpendRequestV1}

/-- A valid request has bytes. -/
theorem encode_of_valid (h : OfflineRequestValid r) :
    r.encode = .ok (r.bodyBytes ++ Bytes.b32 (Crypto.sha256 r.bodyBytes)) := by
  have hprevouts : r.prevouts.mapM encodeOfflinePrevout = .ok (r.prevouts.map prevoutBytes) :=
    (mapM_eq_ok encodeOfflinePrevout_eq_ok).mpr
      ⟨fun p hp => by rw [(h.owned p hp).2, Bytes.length_be]; decide, rfl⟩
  have houtputs : r.outputs.mapM encodeOfflineOutput = .ok (r.outputs.map outputBytes) :=
    (mapM_eq_ok encodeOfflineOutput_eq_ok).mpr
      ⟨fun o ho => by rw [(h.paid o ho).2]; decide, rfl⟩
  have hshape : ¬(r.prevouts = [] ∨ 1024 < r.prevouts.length ∨ r.outputs = [] ∨
      1024 < r.outputs.length) := by
    have := h.outputs_le
    simp only [h.prevouts_ne, h.outputs_ne, false_or, not_or, not_lt]
    exact ⟨h.prevouts_le, by omega⟩
  simp only [encode, reject_of_not hshape, hprevouts, houtputs, ok_bind, bodyBytes,
    List.flatMap_def]

theorem reads_body (h : OfflineRequestValid r) :
    Reads readBody r.bodyBytes r := by
  have hprevouts : Reads (replicateM readPrevout (UInt16.ofNat r.prevouts.length).toNat)
      (r.prevouts.flatMap prevoutBytes) r.prevouts := by
    rw [toNat_ofNat_length h.prevouts_le (by decide)]
    exact Reads.replicateM fun p hp =>
      reads_prevout (by rw [(h.owned p hp).2, Bytes.length_be]; decide)
  have houtputs : Reads (replicateM readOutput (UInt16.ofNat r.outputs.length).toNat)
      (r.outputs.flatMap outputBytes) r.outputs := by
    rw [toNat_ofNat_length h.outputs_le (by decide)]
    exact Reads.replicateM fun o ho => reads_output (by rw [(h.paid o ho).2]; decide)
  have hsome : ¬(UInt16.ofNat r.prevouts.length = 0 ∨ 1024 < UInt16.ofNat r.prevouts.length) :=
    count_not_outside h.prevouts_ne h.prevouts_le
  have hpays : ¬(UInt16.ofNat r.outputs.length = 0 ∨ 1024 < UInt16.ofNat r.outputs.length) :=
    count_not_outside h.outputs_ne (h.outputs_le.trans (by decide))
  have hmagic : offlineSpendRequestMagic.length = 8 := rfl
  simp only [bodyBytes, head, List.append_assoc]
  refine (reads_take hmagic).bind ?_
  refine (reads_rejectIf (not_not.mpr rfl)).bind ((reads_field (reads_u16 _)).bind ?_)
  refine (reads_rejectIf (not_not.mpr rfl)).bind ((reads_field (reads_u32 _)).bind ?_)
  refine (reads_field (reads_u256 _)).bind ((reads_field (reads_u256 _)).bind
    ((reads_field (reads_u256 _)).bind ((reads_field (reads_u256 _)).bind ?_)))
  refine (reads_field (reads_u64 _)).bind ((reads_field (reads_u64 _)).bind
    ((reads_field (reads_u64 _)).bind ((reads_field (reads_u64 _)).bind
      ((reads_field (reads_u64 _)).bind ((reads_field (reads_u64 _)).bind ?_)))))
  refine (reads_field (reads_u16 _)).bind ((reads_rejectIf hsome).bind (hprevouts.bind ?_))
  exact (reads_field (reads_u16 _)).bind ((reads_rejectIf hpays).bind
    (houtputs.map_last (reads_pure r)))

omit [Crypto] in
theorem length_head (r : OfflineSpendRequestV1) : r.head.length = 190 := by
  simp only [head, List.length_append, Bytes.length_be]
  rfl

/-- The bytes of a valid request are read back. -/
theorem decode_encode (h : validateOfflineRequestStatic r = .ok ()) :
    ∃ bytes, r.encode = .ok bytes ∧ decode bytes = .ok r := by
  have hvalid := OfflineRequestValid.of_static h
  refine ⟨_, encode_of_valid hvalid, ?_⟩
  have hsum : (Bytes.b32 (Crypto.sha256 r.bodyBytes)).length = 32 := Bytes.length_be _ _
  have hlength : 194 ≤ r.bodyBytes.length := by
    simp only [bodyBytes, List.length_append, length_head, Bytes.length_be]
    omega
  have hat : (r.bodyBytes ++ Bytes.b32 (Crypto.sha256 r.bodyBytes)).length - 32 =
      r.bodyBytes.length := by
    rw [List.length_append, hsum, Nat.add_sub_cancel]
  have hlong : ¬(r.bodyBytes ++ Bytes.b32 (Crypto.sha256 r.bodyBytes)).length <
      8 + 2 + 4 + 32 * 4 + 8 * 6 + 2 + 2 + 32 := by
    rw [List.length_append, hsum]
    omega
  have hread := reads_body hvalid []
  rw [List.append_nil] at hread
  rw [decode, reject_of_not hlong]
  simp only [ok_bind, hat, List.take_left, List.drop_left]
  rw [reject_of_not (not_not.mpr rfl), ok_bind, hread, ok_bind]
  simp only [reject_of_not (not_not.mpr rfl), ok_bind, h]

end OfflineSpendRequestV1

/-! ## What is created -/

/-- A created request: the payment of the wallet, unsigned. -/
structure CreatedRequest (s : DevnetState) (source target : Nat) (sender receiver : LicenseState)
    (selected : List UtxoState) (change : UInt64) (r : OfflineSpendRequestV1) : Prop where
  from_place : s.licenses[source]? = some sender
  to_place : s.licenses[target]? = some receiver
  genesis : r.genesisId = s.genesisHash ∧ s.genesisHash = devnetGenesisId
  ids : r.fromLicenseId = sender.licenseId ∧ r.toLicenseId = receiver.licenseId
  owner : r.ownerPublicKey = sender.ownerPublicKey ∧
    addressId sender.ownerPublicKey = sender.paymentAddressId
  amount : r.amountStrikes ≠ 0
  funded : fundPayment s.baseFeeRateQ32 (estimateSendWeight · 2) r.amountStrikes sendTexts.need
    (spendableOutputs s sender.paymentAddressId) = .ok (selected, change)
  fee : estimatedFee s.baseFeeRateQ32 (estimateSendWeight · 2) selected.length = .ok r.feeStrikes
  horizon : s.height ≤ r.maxSubmitHeight
  prevouts : r.prevouts = selected.map UtxoState.prevout
  core : r.core = paymentCore devnetNetworkId (nextMineableEpoch s) selected
    ⟨r.amountStrikes, outputPubkeyHash, Bytes.b32 receiver.paymentAddressId⟩ change
    sender.paymentAddressId
  static : validateOfflineRequestStatic r = .ok ()

theorem createOfflineSendRequest_eq_ok {s : DevnetState} {source target : Nat} {amount : UInt64}
    {r : OfflineSpendRequestV1} (h : createOfflineSendRequest s source target amount = .ok r) :
    ∃ sender receiver selected change,
      CreatedRequest s source target sender receiver selected change r := by
  simp only [createOfflineSendRequest, ok_rules, not_not, UInt64.checkedAdd_eq_some,
    Prod.exists] at h
  rcases h with ⟨_, hamount, sender, hsender, receiver, hreceiver, _, hgenesis, _, howner, selected,
    change, hfund, fee, hfee, horizon, hhorizon, _, hstatic, rfl⟩
  refine ⟨sender, receiver, selected, change, hsender, hreceiver, ⟨rfl, hgenesis⟩, ⟨rfl, rfl⟩,
    ⟨rfl, howner⟩, hamount, hfund, hfee, ?_, rfl, ?_, hstatic⟩
  · rw [UInt64.le_iff_toNat_le, hhorizon]
    exact Nat.le_add_right _ _
  · simp [OfflineSpendRequestV1.core, paymentCore, UtxoState.prevout]

omit [Crypto] in
/-- Without a repeated text, the licence found under an identifier is the one stored under the
text the node writes for it. -/
theorem licensePosition_eq_some {s : DevnetState} (h : (s.licenses.map (·.licenseIdText)).Nodup)
    {id : Bytes32} {i : Nat} {l : LicenseState} :
    s.licensePosition id = some (l, i) ↔
      s.licenses[i]? = some l ∧ l.licenseIdText = .encode id := by
  have hkeys : (s.licenses.zipIdx.map fun entry => entry.1.licenseIdText).Nodup := by
    have hplaces : s.licenses.zipIdx.map (fun entry => entry.1.licenseIdText) =
        s.licenses.map (·.licenseIdText) := by
      rw [← Function.comp_def (fun l : LicenseState => l.licenseIdText) Prod.fst, ← List.map_map,
        List.zipIdx_map_fst]
    rw [hplaces]
    exact h
  constructor
  · intro hfound
    have hmem : (l, i) ∈ s.licenses.zipIdx := List.mem_of_find?_eq_some hfound
    have htext := List.find?_some hfound
    exact ⟨List.mem_zipIdx_iff_getElem?.mp hmem, by simpa using htext⟩
  · rintro ⟨hl, htext⟩
    have hmem : (l, i) ∈ s.licenses.zipIdx := List.mem_zipIdx_iff_getElem?.mpr hl
    have hfound := Keyed.lookup_of_mem hkeys hmem
    rw [htext] at hfound
    exact hfound

/-- A licence below place 256 is stored under the text the node writes for the identifier of
another, and agrees with it in a field. -/
def DevnetState.Lists (s : DevnetState) (l : LicenseState) (field : LicenseState → Bytes32) : Prop :=
  ∃ i < 256, ∃ l', s.licenses[i]? = some l' ∧ l'.licenseIdText = .encode l.licenseId ∧
    field l' = field l

/-- The transaction of a signed request, as the pool records it. -/
def OfflineSpendRequestV1.signedPayment (r : OfflineSpendRequestV1) (sk : Bytes32)
    (selected : List UtxoState) (baseFee : UInt64) (i j : Nat) : PendingTxState :=
  pendingPayment (signPayment sk selected r.core) selected (r.feeStrikes, baseFee) i j
    r.amountStrikes

/-- The key of the owner of a request, and the base fee of what it signs. -/
structure OwnerSigns (s : DevnetState) (sender : LicenseState) (selected : List UtxoState)
    (r : OfflineSpendRequestV1) (sk : Bytes32) (baseFee : UInt64) : Prop where
  owner : Crypto.publicKey sk = r.ownerPublicKey
  signs : SignsFor sk sender.paymentAddressId
  base : requiredBaseFee s.baseFeeRateQ32 (signPayment sk selected r.core).serializedLen =
    .ok baseFee
  paid : baseFee ≤ r.feeStrikes

namespace CreatedRequest

variable {s : DevnetState} {source target : Nat} {sender receiver : LicenseState}
  {selected : List UtxoState} {change baseFee : UInt64} {r : OfflineSpendRequestV1}
  {sk : Bytes32} {i j : Nat}
  (h : CreatedRequest s source target sender receiver selected change r)

include h

theorem mem_spendable {u : UtxoState} (hu : u ∈ selected) :
    u ∈ s.utxos ∧ isSpendable s sender.paymentAddressId u = true := by
  rcases fundPayment_shortest h.funded with ⟨-, ⟨n, -, hselected, -⟩, -⟩
  rw [hselected] at hu
  exact mem_spendableOutputs.mp (List.mem_of_mem_take hu)

/-- An input of a created request is still there, if it can be found. -/
theorem checkOfflinePrevout_iff
   
    (hutxos : (s.utxos.map UtxoState.outpoint).Nodup) {u : UtxoState} (hu : u ∈ selected) :
    checkOfflinePrevout s (s.height + 1) u.prevout = .ok () ↔ u.txid.IsLower := by
  rcases h.mem_spendable hu with ⟨hmem, hspendable⟩
  simp only [isSpendable, Bool.and_eq_true, Bool.not_eq_true', List.contains_eq_mem,
    decide_eq_false_iff_not] at hspendable
  constructor
  · intro hchecked
    simp only [checkOfflinePrevout, ok_rules] at hchecked
    rcases hchecked with ⟨_, -, current, hfound, -⟩
    have hsame : current = u :=
      List.inj_on_of_nodup_map hutxos (Keyed.mem_of_lookup hfound) hmem
        (outpoint_of_findUtxo hfound)
    rw [hsame] at hfound
    exact (findUtxo_outpoint_iff hutxos hmem).mp hfound
  · intro hlower
    have hfound := (findUtxo_outpoint_iff hutxos hmem).mpr hlower
    have hfree : u.prevout.outpoint.stored ∉ mempoolReservedInputs s := by
      have hplace : u.prevout.outpoint.stored = u.place := (place_of_findUtxo hfound).symm
      rw [hplace]
      exact hspendable.2
    have hheight : ¬u.spendableAtHeight (s.height + 1) = false := by simp [hspendable.1.2]
    have hsame : ¬(u.amountStrikes ≠ u.prevout.amountStrikes ∨
        u.outputType ≠ u.prevout.outputType ∨ u.payload ≠ u.prevout.payload) := by
      simp [UtxoState.prevout]
    rw [checkOfflinePrevout, reject_of_not hfree]
    simp only [UtxoState.prevout, ok_bind, hfound, okOr, reject_of_not hheight]
    exact reject_of_not hsame

/-- What the offline signer adds to a created request is what the wallet would sign. -/
theorem witnesses (hsigned : OwnerSigns s sender selected r sk baseFee) (bytes : Bytes) :
    (r.prevouts.zip (signOfflineRequest sk bytes r).signatures).zipIdx.mapM
      (offlineWitness r.ownerPublicKey sender.paymentAddressId r.core.txid) =
        .ok (signPayment sk selected r.core).witnesses := by
  have hwitness : ∀ (entry : (PrevoutCommitmentV1 × Bytes64) × Nat) (w : WitnessV1),
      offlineWitness r.ownerPublicKey sender.paymentAddressId r.core.txid entry = .ok w ↔
        verifyPubkeyHashWitness sender.paymentAddressId
            (sighashAll r.core.txid (UInt16.ofNat entry.2) entry.1.1)
            (.pubkeyHash r.ownerPublicKey entry.1.2) = .ok () ∧
          w = .pubkeyHash r.ownerPublicKey entry.1.2 := by
    rintro ⟨⟨p, signature⟩, i⟩ w
    simp only [offlineWitness, ok_rules]
    constructor
    · rintro ⟨_, hverify, hw⟩
      exact ⟨hverify, hw.symm⟩
    · rintro ⟨hverify, hw⟩
      exact ⟨(), hverify, hw.symm⟩
  have hsignature : ∀ i : Nat,
      ((r.prevouts.zip (signOfflineRequest sk bytes r).signatures).zipIdx)[i]? =
      r.prevouts[i]?.map fun p =>
        ((p, Crypto.sign sk (Bytes.b32 (sighashAll r.core.txid (UInt16.ofNat i) p))), i) := by
    intro i
    cases hp : r.prevouts[i]? with
    | none => simp [signOfflineRequest, hp, List.zip, List.getElem?_zipWith]
    | some p => simp [signOfflineRequest, hp, List.zip, List.getElem?_zipWith]
  rw [mapM_eq_ok hwitness]
  constructor
  · intro entry hentry
    rcases List.getElem?_of_mem hentry with ⟨i, hi⟩
    rw [hsignature, Option.map_eq_some_iff] at hi
    rcases hi with ⟨p, -, rfl⟩
    rw [← hsigned.owner]
    exact hsigned.signs _
  · apply List.ext_getElem?
    intro i
    rw [List.getElem?_map, hsignature, h.prevouts]
    simp [signPayment, ← hsigned.owner, Function.comp_def]

/-- The declared fee is the value that the outputs leave over. -/
theorem balance :
    r.feeStrikes.toNat + outputsValue r.outputs = utxoSupply selected ∧
      utxoSupply selected < 2 ^ 64 := by
  rcases (OfflineRequestValid.of_static h.static).balanced with
    ⟨inputSum, outputSum, hinputs, houtputs, hfee⟩
  rw [addStrikes_foldlM_eq_ok, h.prevouts, List.map_map, List.map_map] at hinputs
  rw [addStrikes_foldlM_eq_ok, List.map_map] at houtputs
  rw [UInt64.checkedSub_eq_some] at hfee
  have hin : inputSum.toNat = 0 + utxoSupply selected := hinputs
  have hout : outputSum.toNat = 0 + outputsValue r.outputs := houtputs
  have hlt := inputSum.toNat_lt
  omega

/-- The signed request weighs no more than what its fee was estimated for. -/
theorem exists_ownerSigns (howner : Crypto.publicKey sk = r.ownerPublicKey)
    (hkey : Crypto.validPublicKey (Crypto.publicKey sk) = true)
    (hsigns : ∀ message,
      Crypto.verify (Crypto.publicKey sk) message (Crypto.sign sk message) = true) :
    ∃ baseFee, OwnerSigns s sender selected r sk baseFee := by
  have hestimate := ((estimatedFee_eq_ok weighsPayments_send).mp h.fee).2
  have hweight : (signPayment sk selected r.core).serializedLen ≤ paymentWeight selected.length := by
    rw [h.core]
    exact serializedLen_signPayment_le (Bytes.length_be _ _)
  rcases requiredBaseFee_mono hweight hestimate with ⟨baseFee, hbase, hpaid⟩
  refine ⟨baseFee, howner, signsFor_of_owner ?_ hkey hsigns, hbase, hpaid⟩
  rw [howner, h.owner.1, h.owner.2]

theorem offlineFees (hsigned : OwnerSigns s sender selected r sk baseFee) :
    Mutiny.offlineFees s r (signPayment sk selected r.core) = .ok (r.feeStrikes, baseFee) := by
  rcases (OfflineRequestValid.of_static h.static).balanced with
    ⟨inputSum, outputSum, hinputs, houtputs, hfee⟩
  have hsame : (signPayment sk selected r.core).core.outputs = r.outputs := rfl
  rw [Mutiny.offlineFees, hsame, hinputs, ok_bind, houtputs, ok_bind, hfee]
  rw [okOr_eq_ok.mpr rfl, ok_bind, reject_of_not (not_not.mpr rfl), ok_bind,
    mapError_eq_ok.mpr hsigned.base, ok_bind, reject_of_not (UInt64.not_lt.mpr hsigned.paid),
    ok_bind]

/-- On the state of its creation a signed request whose licences and outputs are found is
submitted exactly when the places of both licences fit in a byte. -/
theorem submit_of_found (hsigned : OwnerSigns s sender selected r sk baseFee)
    (hchecked : CheckedState s) {from' to' : LicenseState}
    (hsource : s.licensePosition sender.licenseId = some (from', i))
    (hkey : from'.ownerPublicKey = sender.ownerPublicKey)
    (htarget : s.licensePosition receiver.licenseId = some (to', j))
    (haddress : to'.paymentAddressId = receiver.paymentAddressId)
    (hlower : ∀ u ∈ selected, u.txid.IsLower) {bytes : Bytes} {p : PendingTxState} :
    submitOfflineSpend s bytes r (signOfflineRequest sk bytes r) = .ok p ↔
      i < 256 ∧ j < 256 ∧ p = r.signedPayment sk selected baseFee i j := by
  have hsender : from'.paymentAddressId = sender.paymentAddressId := by
    have hmem := List.mem_of_getElem? ((licensePosition_eq_some hchecked.registry).mp hsource).1
    rw [(hchecked.entries from' hmem).address, hkey, h.owner.2]
  have hprevouts : r.prevouts.forM (checkOfflinePrevout s (s.height + 1)) = .ok () := by
    rw [h.prevouts]
    refine forM_eq_ok.mpr fun p hp => ?_
    rcases List.mem_map.mp hp with ⟨u, hu, rfl⟩
    exact (h.checkOfflinePrevout_iff hchecked.outpoints_nodup hu).mpr (hlower u hu)
  have hmatches : ¬((signOfflineRequest sk bytes r).networkId ≠ r.networkId ∨
      (signOfflineRequest sk bytes r).requestHash ≠ Crypto.sha256 bytes ∨
      (signOfflineRequest sk bytes r).ownerPublicKey ≠ r.ownerPublicKey) := by
    simp [signOfflineRequest]
  have hcount : ¬(signOfflineRequest sk bytes r).signatures.length ≠ r.prevouts.length := by
    simp [signOfflineRequest]
  have hwindow : ¬(nextMineableEpoch s < r.validFromEpoch ∨
      (r.expiryEpoch ≠ 0 ∧ r.expiryEpoch < nextMineableEpoch s)) := by
    have hfrom : r.validFromEpoch = nextMineableEpoch s := congrArg (·.validFromEpoch) h.core
    have hexpiry : r.expiryEpoch = 0 := congrArg (·.expiryEpoch) h.core
    simp [hfrom, hexpiry]
  have houtputs : r.outputs = _ := congrArg (·.outputs) h.core
  have hdestination : ¬r.outputs[0]?.map (·.payload) ≠
      some (Bytes.b32 to'.paymentAddressId) := by
    simp [houtputs, paymentCore, haddress]
  have hchange : ¬(r.outputs.length = 2 ∧
      r.outputs[1]?.map (·.payload) ≠ some (Bytes.b32 from'.paymentAddressId)) := by
    rw [houtputs, hsender]
    by_cases hpos : 0 < change <;> simp [paymentCore, hpos]
  have hwitnesses := h.witnesses hsigned bytes
  have hfees := h.offlineFees hsigned
  rw [submitOfflineSpend, h.static, ok_bind, reject_of_not hmatches, ok_bind,
    reject_of_not hcount, ok_bind, reject_of_not (not_not.mpr h.genesis.1.symm), ok_bind,
    reject_of_not (UInt64.not_lt.mpr h.horizon), ok_bind]
  dsimp only
  rw [reject_of_not hwindow, ok_bind, okOr_eq_ok.mpr (h.ids.1 ▸ hsource), ok_bind]
  dsimp only
  rw [okOr_eq_ok.mpr (h.ids.2 ▸ htarget), ok_bind]
  dsimp only
  rw [reject_of_not (not_not.mpr (hkey.trans h.owner.1.symm)), ok_bind,
    reject_of_not hdestination, ok_bind, reject_of_not hchange, ok_bind, hprevouts, ok_bind,
    hsender, hwitnesses, ok_bind]
  have hrest : (Mutiny.offlineFees s r ⟨r.core, (signPayment sk selected r.core).witnesses⟩) =
      .ok (r.feeStrikes, baseFee) := hfees
  rw [hrest, ok_bind]
  dsimp only
  simp only [ok_rules, not_le]
  have hinputs : r.prevouts.map (·.outpoint.stored) = selected.map UtxoState.place := by
    rw [h.prevouts, List.map_map]
    apply List.map_congr_left
    intro u hu
    have hmem := (h.mem_spendable hu).1
    exact (place_of_findUtxo
      ((findUtxo_outpoint_iff hchecked.outpoints_nodup hmem).mpr (hlower u hu))).symm
  rw [hinputs]
  constructor
  · rintro ⟨_, hfrom, _, hto, rfl⟩
    exact ⟨hfrom, hto, rfl⟩
  · rintro ⟨hfrom, hto, rfl⟩
    exact ⟨(), hfrom, (), hto, rfl⟩

/-- What a submission has found. -/
theorem found_of_submit
    (hchecked : CheckedState s) {bytes : Bytes} {signed : OfflineSpendSignatureV1}
    {p : PendingTxState} (hsubmit : submitOfflineSpend s bytes r signed = .ok p) :
    (∃ from' i, s.licensePosition sender.licenseId = some (from', i) ∧
      from'.ownerPublicKey = sender.ownerPublicKey) ∧
    (∃ to' j, s.licensePosition receiver.licenseId = some (to', j) ∧
      to'.paymentAddressId = receiver.paymentAddressId) ∧
    ∀ u ∈ selected, u.txid.IsLower := by
  simp only [submitOfflineSpend, ok_rules, forM_eq_ok, not_not, Prod.exists] at hsubmit
  rcases hsubmit with ⟨_, -, _, -, _, -, _, -, _, -, _, -, from', i, hsource, to', j, htarget, _,
    hkey, _, haddress, _, -, _, hprevouts, -⟩
  rw [h.ids.1] at hsource
  rw [h.ids.2] at htarget
  rw [h.owner.1] at hkey
  have hpayload : r.outputs[0]?.map (·.payload) = some (Bytes.b32 receiver.paymentAddressId) := by
    have houtputs : r.outputs = _ := congrArg (·.outputs) h.core
    simp [houtputs, paymentCore]
  rw [hpayload, Option.some.injEq, Bytes.b32_inj] at haddress
  refine ⟨⟨from', i, hsource, hkey⟩, ⟨to', j, htarget, haddress.symm⟩, ?_⟩
  intro u hu
  apply (h.checkOfflinePrevout_iff hchecked.outpoints_nodup hu).mp
  apply hprevouts
  rw [h.prevouts]
  exact List.mem_map_of_mem hu

/-- The outputs of a created request are found exactly when their texts are in lower case. -/
theorem found_iff
    (hutxos : (s.utxos.map UtxoState.outpoint).Nodup) :
    (∀ p ∈ r.prevouts, findUtxo s.utxos p.outpoint ≠ none) ↔ ∀ u ∈ selected, u.txid.IsLower := by
  rw [h.prevouts, List.forall_mem_map]
  apply forall₂_congr
  intro u hu
  have hmem := (h.mem_spendable hu).1
  rw [← findUtxo_outpoint_iff hutxos hmem]
  constructor
  · intro hfound
    rcases Option.ne_none_iff_exists'.mp hfound with ⟨u', hu'⟩
    have hsame : u' = u := List.inj_on_of_nodup_map hutxos (Keyed.mem_of_lookup hu') hmem
      (outpoint_of_findUtxo hu')
    rw [← hsame]
    exact hsame ▸ hu'
  · intro hfound hnone
    cases hfound.symm.trans hnone

/-- What is submitted is a payment of the wallet. -/
theorem builtPayment (hsigned : OwnerSigns s sender selected r sk baseFee)
    (hnetwork : s.networkId = devnetNetworkId) :
    (r.signedPayment sk selected baseFee i j).toTransactionForNetwork s.networkId =
      signPayment sk selected r.core ∧
    BuiltPayment s s.networkId (estimateSendWeight · 2) sender.paymentAddressId
      ⟨r.amountStrikes, outputPubkeyHash, Bytes.b32 receiver.paymentAddressId⟩ selected change
      (r.signedPayment sk selected baseFee i j) := by
  have htx : (r.signedPayment sk selected baseFee i j).toTransactionForNetwork s.networkId =
      signPayment sk selected r.core := by
    rw [OfflineSpendRequestV1.signedPayment, hnetwork, h.core]
    simp [pendingPayment, PendingTxState.toTransactionForNetwork, PendingTxState.outpoints,
      signPayment, paymentCore, UtxoState.outpoint]
  rcases fundPayment_shortest h.funded with ⟨hsome, hselection, total, fee, htotal, hfee, henough,
    hchange⟩
  have hvalue : outputsValue r.core.outputs < 2 ^ 64 := by
    have hbalance := h.balance
    change outputsValue r.outputs < 2 ^ 64
    omega
  rw [h.core] at hvalue
  have hcovers : r.amountStrikes.toNat + fee.toNat ≤ total.toNat :=
    sum_of_change henough hchange rfl hvalue
  refine ⟨htx, hselection, ⟨fee, hfee, htotal ▸ hcovers⟩, hsome, ?_, ?_, ?_, ?_, h.balance.1,
    hsigned.paid, ?_⟩
  · rw [htx, hnetwork]
    exact h.core
  · rw [htx]
    exact ⟨rfl, rfl⟩
  · exact length_witnesses_signPayment _ _ _
  · rw [htx]
    exact hsigned.base
  · rw [htx]
    intro e he
    have hself : selfVerify "" (signPayment sk selected r.core).txid e = .ok () :=
      selfVerify_signPayment (fun u hu => payload_of_isSpendable (h.mem_spendable hu).2)
        hsigned.signs e he
    exact selfVerify_eq_ok.mp hself

/-- The submitted payment enters an empty pool unless the state records it as confirmed. -/
theorem candidate_iff (hsigned : OwnerSigns s sender selected r sk baseFee)
    (hchecked : CheckedState s) (hnetwork : s.networkId = devnetNetworkId)
    (hlower : ∀ u ∈ selected, u.txid.IsLower) :
    validatePendingCandidate { s with mempool := [] }
        (r.signedPayment sk selected baseFee i j) false = .ok () ↔
      ∀ t ∈ s.confirmedTransactions, t.tx.txid ≠ r.core.txid := by
  have hvalid := OfflineRequestValid.of_static h.static
  have hbuilt := (h.builtPayment (i := i) (j := j) hsigned hnetwork).2
  generalize hp : r.signedPayment sk selected baseFee i j = p at hbuilt ⊢
  have htxid : p.txid = r.core.txid := by
    rw [← hp]
    rfl
  have hplain : p.hasLicensePaymentOutput = false := by
    rw [PendingTxState.hasLicensePaymentOutput, List.any_eq_false, ← hp]
    intro o ho
    rw [(hvalid.paid o ho).1]
    decide
  have hplainly : p.hasProtocolAuthWitness = false := by
    rw [PendingTxState.hasProtocolAuthWitness, List.any_eq_false, ← hp]
    intro w hw
    simp only [OfflineSpendRequestV1.signedPayment, pendingPayment, signPayment,
      List.mem_map] at hw
    rcases hw with ⟨⟨u, i⟩, -, rfl⟩
    simp [WitnessV1.pubkeyHash, witnessPubkeyHash, witnessProtocolAuth]
  have hcount : selected.length ≤ 1024 := by
    have hle := hvalid.prevouts_le
    rwa [h.prevouts, List.length_map] at hle
  rcases (@BuiltPayment.validates_iff _ _ _ _ _ _ _ _ [] hbuilt hchecked.outpoints_nodup
    ⟨h.amount, Or.inl rfl, Bytes.length_be _ _⟩ (by simp)).mpr ⟨hcount, hlower⟩ with
    ⟨result, hresult⟩
  have hknown : alreadyKnown { s with mempool := [] } p.txid = true ↔
      ∃ t ∈ s.confirmedTransactions, t.tx.txid = r.core.txid := by
    simp [alreadyKnown, htxid]
  rw [validatePendingCandidate, reject_of_not (by simp [hplain]), ok_bind,
    reject_of_not (by simp [hplainly]), ok_bind]
  simp only [hplainly, Bool.false_eq_true, false_and, if_false, List.nil_append, ok_rules, hknown,
    not_exists, not_and]
  constructor
  · rintro ⟨_, hfresh, -⟩
    exact hfresh
  · intro hfresh
    exact ⟨(), hfresh, result, hresult, trivial⟩

end CreatedRequest

end Request

/-! ## A large registry -/

section Evaluation

attribute [local instance] devnetCrypto

/-- More licences with the keys and the record of one. -/
def manyLicenses (l : LicenseState) : List LicenseState :=
  l :: (List.range 256).map fun i => { l with licenseIdText := .encode (BitVec.ofNat 256 i) }

/-- The wallet of one owner, with 257 licences. -/
def registryState (l : LicenseState) (root : Bytes32) : DevnetState :=
  { walletState l with licenses := manyLicenses l, currentStateRoot := root }

theorem nodup_manyLicenses {l : LicenseState} (h : 256 ≤ l.licenseId.toNat) :
    ((manyLicenses l).map (·.licenseId)).Nodup := by
  have hword : ∀ i < 256, (BitVec.ofNat 256 i).toNat = i := by
    intro i hi
    rw [BitVec.toNat_ofNat, Nat.mod_eq_of_lt (lt_trans hi (by decide))]
  simp only [manyLicenses, List.map_cons, List.map_map, List.nodup_cons]
  constructor
  · intro hmem
    rcases List.mem_map.mp hmem with ⟨i, hi, hid⟩
    have hsmall := hword i (List.mem_range.mp hi)
    have hid' : BitVec.ofNat 256 i = l.licenseId := hid
    have hlt := List.mem_range.mp hi
    rw [hid'] at hsmall
    omega
  · refine List.nodup_range.map_on ?_
    intro i hi j hj hij
    have hnat := congrArg BitVec.toNat hij
    simp only [Function.comp_apply, LicenseState.licenseId_mk, HexText.bytes_encode] at hnat
    rwa [hword i (List.mem_range.mp hi), hword j (List.mem_range.mp hj)] at hnat

/-- The wallet with the large registry is a checked one, with the root computed anew. -/
theorem exists_checked_registry {l : LicenseState} (h : CheckedState (walletState l))
    (hid : 256 ≤ l.licenseId.toNat) (hclean : l.Unpunished) :
    ∃ root, CheckedState (registryState l root) := by
  have htexts := nodup_manyLicenses hid
  rw [LicenseState.map_licenseId] at htexts
  have hentry := h.entries l (List.mem_singleton.mpr rfl)
  refine h.exists_with_licenses rfl rfl rfl htexts.of_map ?_
  intro l' hl'
  rcases List.mem_cons.mp hl' with rfl | hl'
  · exact ⟨hentry, hclean⟩
  · rcases List.mem_map.mp hl' with ⟨i, -, rfl⟩
    exact ⟨⟨hentry.record, hentry.address⟩, hclean⟩

end Evaluation

end Mutiny
