import Mutiny.Node.Bootstrap

/-!
# Evidence of two authority operations

Tier-2 evidence carries two operations of one owner that consume the same authority
sequence.  Its bytes are put in strict order with their signatures, while the owner
signs an operation without its signature.

Main result:

- Theorem {lit}`provesEquivocation_iff`: exactly when evidence proves two different
  operations.
-/

namespace Mutiny

open Result

/-! ## The operations evidence carries -/

/-- What the owner signs of an operation that changes keys: its type, and its payload
without the signature at the end. -/
def signedPart (op : ProtocolOperationV1) : UInt16 × Bytes :=
  (op.opType, op.payload.take (op.payload.length - 64))

/-- The two operations Tier-2 evidence carries. -/
def embeddedOperations (evidence : PunishmentEvidenceV1) :
    Except String (ProtocolOperationV1 × ProtocolOperationV1) := do
  let (a, _, input) ← takeProtocolOperation evidence.evidence
  let (b, _, _) ← takeProtocolOperation input
  .ok (a, b)

theorem signedPart_transfer (t : LicenseTransferV1) :
    signedPart t.operation = (opLicenseTransfer, t.unsignedPayload) := by
  simp [signedPart, LicenseTransferV1.operation]

theorem signedPart_rotation (r : MiningKeyRotateV1) :
    signedPart r.operation = (opLicenseMiningKeyRotate, r.unsignedPayload) := by
  simp [signedPart, MiningKeyRotateV1.operation]

theorem LicenseTransferV1.unsignedPayload_inj {t t' : LicenseTransferV1}
    (h : t.unsignedPayload = t'.unsignedPayload) :
    t' = { t with ownerSignature := t'.ownerSignature } := by
  simp only [unsignedPayload, Bytes.be_append_inj, Bytes.b32_inj, Bytes.u32_inj] at h
  rcases h with ⟨hid, hos, hms, hok, hmk⟩
  rw [hid, hos, hms, hok, hmk]

theorem MiningKeyRotateV1.unsignedPayload_inj {r r' : MiningKeyRotateV1}
    (h : r.unsignedPayload = r'.unsignedPayload) :
    r' = { r with ownerSignature := r'.ownerSignature } := by
  simp only [unsignedPayload, Bytes.be_append_inj, Bytes.b32_inj, Bytes.u32_inj] at h
  rcases h with ⟨hid, hos, hms, hmk⟩
  rw [hid, hos, hms, hmk]

/-- An operation written in front of other bytes is taken off them. -/
theorem takeProtocolOperation_encode (op : ProtocolOperationV1) (rest : Bytes)
    (h : op.payload.length < 2 ^ 64) :
    takeProtocolOperation (op.encode ++ rest) = .ok (op, op.encode, rest) := by
  obtain ⟨size, hdef⟩ : ∃ size, UInt64.ofNat op.payload.length = size := ⟨_, rfl⟩
  have hsize : size.toNat = op.payload.length := by
    rw [← hdef, UInt64.toNat_ofNat', Nat.mod_eq_of_lt h]
  have hpos := length_encodeVaruint_pos size
  have hread : readVaruint (encodeVaruint size ++ (op.payload ++ rest)) =
      .ok (size, op.payload ++ rest) := reads_varuint size (op.payload ++ rest)
  have hshape : op.encode ++ rest = Bytes.u16 op.opType ++ (Bytes.u16 op.opVersion ++
      (encodeVaruint size ++ (op.payload ++ rest))) := by
    simp only [ProtocolOperationV1.encode, encodeVar, List.append_assoc, hdef]
  have htotal : (op.encode ++ rest).length - (op.payload ++ rest).length + size.toNat =
      op.encode.length := by
    rw [hshape, hsize]
    simp only [ProtocolOperationV1.encode, encodeVar, hdef, List.length_append, Bytes.length_be]
    omega
  have hlong : ¬ (op.encode ++ rest).length < 5 := by
    rw [hshape]
    simp only [List.length_append, Bytes.length_be]
    omega
  have hpayload : (op.payload ++ rest).take size.toNat = op.payload := by
    rw [hsize, List.take_left]
  have hfits : ¬ (op.payload ++ rest).length < size.toNat := by
    rw [hsize, List.length_append]
    omega
  rw [takeProtocolOperation, reject_of_not hlong, ok_bind]
  rw [show Bytes.cut 2 (op.encode ++ rest) = _ by rw [hshape, Bytes.cut_be_append]]
  simp only [Bytes.cut_be_append, hread, Except.mapError, ok_bind, htotal, reject_of_not hfits,
    hpayload, Bytes.toU16_u16, List.take_left, List.drop_left]
  rw [reject_of_not (by simp), ok_bind]

/-- An operation taken off some bytes is what they start with. -/
theorem takeProtocolOperation_shape {bytes own rest : Bytes} {op : ProtocolOperationV1}
    (h : takeProtocolOperation bytes = .ok (op, own, rest)) :
    own = op.encode ∧ bytes = op.encode ++ rest := by
  simp only [takeProtocolOperation, ok_rules, not_not, Prod.mk.injEq] at h
  rcases h with ⟨_, -, ⟨size, cursor⟩, -, _, -, _, hcanonical, rfl, rfl, rfl⟩
  refine ⟨hcanonical.symm, ?_⟩
  rw [hcanonical, List.take_append_drop]

/-! ## Two operations of one owner -/

section Owner

variable [Crypto]

/-- What evidence reads off a transfer. -/
def LicenseTransferV1.evidenceFields (t : LicenseTransferV1) : AuthorityEvidenceFields where
  licenseId := t.licenseId
  ownerSequence := t.expectedOwnerSequence
  miningSequence := t.expectedMiningSequence
  digest := t.signingDigest
  signature := t.ownerSignature

/-- What evidence reads off a rotation. -/
def MiningKeyRotateV1.evidenceFields (r : MiningKeyRotateV1) : AuthorityEvidenceFields where
  licenseId := r.licenseId
  ownerSequence := r.expectedOwnerSequence
  miningSequence := r.expectedMiningSequence
  digest := r.signingDigest
  signature := r.ownerSignature

variable {f : AuthorityEvidenceFields} {op : ProtocolOperationV1}

/-- The operations evidence may carry. -/
theorem authorityEvidenceFields_eq_ok :
    authorityEvidenceFields op = .ok f ↔
      (∃ t : LicenseTransferV1, op = t.operation ∧ f = t.evidenceFields) ∨
        ∃ r : MiningKeyRotateV1, op = r.operation ∧ f = r.evidenceFields := by
  have htypes : opLicenseMiningKeyRotate ≠ opLicenseTransfer := by decide
  unfold authorityEvidenceFields
  constructor
  · intro h
    split at h
    · simp only [ok_rules, decodeLicenseTransferOperation_eq_ok] at h
      rcases h with ⟨t, hop, hf⟩
      exact Or.inl ⟨t, hop, hf.symm⟩
    · split at h
      · simp only [ok_rules, decodeMiningKeyRotationOperation_eq_ok] at h
        rcases h with ⟨r, hop, hf⟩
        exact Or.inr ⟨r, hop, hf.symm⟩
      · cases h
  · rintro (⟨t, rfl, rfl⟩ | ⟨r, rfl, rfl⟩)
    · rw [if_pos (by rfl), decodeLicenseTransferOperation_eq_ok.mpr rfl]
      rfl
    · have hother : r.operation.opType ≠ opLicenseTransfer := htypes
      rw [if_neg hother, if_pos (by rfl), decodeMiningKeyRotationOperation_eq_ok.mpr rfl]
      rfl

variable {a b : ProtocolOperationV1} {g : AuthorityEvidenceFields}

/-- Operations with one signed part are the same up to the signature, and so is what
evidence reads off them. -/
theorem eq_of_signedPart (ha : authorityEvidenceFields a = .ok f)
    (hb : authorityEvidenceFields b = .ok g) (hsigned : signedPart a = signedPart b) :
    g = { f with signature := g.signature } ∧ (f.signature = g.signature → a = b) := by
  have htypes : opLicenseTransfer ≠ opLicenseMiningKeyRotate := by decide
  rcases authorityEvidenceFields_eq_ok.mp ha with ⟨t, rfl, rfl⟩ | ⟨r, rfl, rfl⟩ <;>
    rcases authorityEvidenceFields_eq_ok.mp hb with ⟨t', rfl, rfl⟩ | ⟨r', rfl, rfl⟩ <;>
    simp only [signedPart_transfer, signedPart_rotation, Prod.mk.injEq] at hsigned
  · rw [LicenseTransferV1.unsignedPayload_inj hsigned.2]
    refine ⟨rfl, fun hsig => ?_⟩
    have hsame : t.ownerSignature = t'.ownerSignature := hsig
    rw [← hsame]
  · exact absurd hsigned.1 htypes
  · exact absurd hsigned.1.symm htypes
  · rw [MiningKeyRotateV1.unsignedPayload_inj hsigned.2]
    refine ⟨rfl, fun hsig => ?_⟩
    have hsame : r.ownerSignature = r'.ownerSignature := hsig
    rw [← hsame]

/-- The values accepted Tier-2 evidence goes through. -/
structure AuthorityPair (s : DevnetState) (evidence : PunishmentEvidenceV1)
    (a b : ProtocolOperationV1) (f g : AuthorityEvidenceFields) (key : Bytes32) : Prop where
  bytes : evidence.evidence = a.encode ++ b.encode
  first : takeProtocolOperation evidence.evidence = .ok (a, a.encode, b.encode)
  second : takeProtocolOperation b.encode = .ok (b, b.encode, [])
  order : a.encode < b.encode
  firstFields : authorityEvidenceFields a = .ok f
  secondFields : authorityEvidenceFields b = .ok g
  accused : f.licenseId = evidence.accusedLicenseId ∧ g.licenseId = evidence.accusedLicenseId
  sequences : f.ownerSequence = g.ownerSequence ∧ f.miningSequence = g.miningSequence
  owner : ownerKeyAtSequences s evidence.accusedLicenseId f.ownerSequence f.miningSequence =
    .ok (some key)
  valid : Crypto.validPublicKey key = true
  firstSigned : Crypto.verifyStrict key (Bytes.b32 f.digest) f.signature = true
  secondSigned : Crypto.verifyStrict key (Bytes.b32 g.digest) g.signature = true

variable {s : DevnetState} {evidence : PunishmentEvidenceV1}

/-- What accepted evidence carries. -/
theorem validateLicenseStateEquivocation_eq_ok :
    validateLicenseStateEquivocation s evidence = .ok true ↔
      ∃ a b f g key, AuthorityPair s evidence a b f g key := by
  constructor
  · intro h
    simp only [validateLicenseStateEquivocation, ok_rules, not_not, not_or] at h
    rcases h with ⟨⟨a, aBytes, input⟩, ha, ⟨b, bBytes, rest⟩, hb, _, hrest, _, horder, f, hf, g, hg,
      _, haccused, _, hsequences, owner, howner, h⟩
    dsimp only at hb hrest horder hf hg
    rcases takeProtocolOperation_shape ha with ⟨rfl, hbytes⟩
    rcases takeProtocolOperation_shape hb with ⟨rfl, hinput⟩
    rw [hrest, List.append_nil] at hinput
    subst hrest hinput
    cases owner with
    | none => cases h
    | some key =>
      simp only [ok_rules, Bool.not_eq_false] at h
      rcases h with ⟨_, hvalid, _, hfirst, _, hsecond, -⟩
      exact ⟨a, b, f, g, key, ⟨hbytes, ha, hb, horder, hf, hg, haccused, hsequences, howner,
        hvalid, hfirst, hsecond⟩⟩
  · rintro ⟨a, b, f, g, key, h⟩
    simp only [validateLicenseStateEquivocation, ok_rules, not_not, not_or]
    refine ⟨_, h.first, _, h.second, (), rfl, (), h.order, f, h.firstFields, g, h.secondFields, (),
      h.accused, (), h.sequences, some key, h.owner, ?_⟩
    simp only [ok_rules, Bool.not_eq_false, and_true]
    exact ⟨(), h.valid, (), h.firstSigned, (), h.secondSigned⟩

theorem AuthorityPair.embeddedOperations {key : Bytes32} (h : AuthorityPair s evidence a b f g key)
    :
    Mutiny.embeddedOperations evidence = .ok (a, b) := by
  rw [Mutiny.embeddedOperations, h.first, ok_bind]
  dsimp only
  rw [h.second]
  rfl

/-! ## What accepted evidence proves -/

/-- All Tier-2 evidence a state accepts carries two operations that differ in what the
owner signed. -/
def ProvesEquivocation (s : DevnetState) : Prop :=
  ∀ evidence : PunishmentEvidenceV1,
    evidence.offenseType = offenseLicenseStateEquivocation →
      validateObjectiveEvidence s evidence = .ok true →
        ∃ a b, embeddedOperations evidence = .ok (a, b) ∧ signedPart a ≠ signedPart b

/-- The owner key an operation speaks of, now or in the past, accepts at most one
signature of it. -/
def UniqueOwnerSignatures (s : DevnetState) : Prop :=
  ∀ (op : ProtocolOperationV1) (f : AuthorityEvidenceFields) (key : Bytes32),
    authorityEvidenceFields op = .ok f →
      ownerKeyAtSequences s f.licenseId f.ownerSequence f.miningSequence = .ok (some key) →
        Crypto.validPublicKey key = true →
          ∀ signature signature' : Bytes64,
            Crypto.verifyStrict key (Bytes.b32 f.digest) signature = true →
              Crypto.verifyStrict key (Bytes.b32 f.digest) signature' = true →
                signature = signature'

theorem validateObjectiveEvidence_equivocation
    (h : evidence.offenseType = offenseLicenseStateEquivocation) :
    validateObjectiveEvidence s evidence = validateLicenseStateEquivocation s evidence := by
  have hother : offenseLicenseStateEquivocation ≠ offenseInvalidSignedWork := by decide
  rw [validateObjectiveEvidence, h, if_neg hother, if_pos rfl]

/-- The same operation under another signature. -/
theorem exists_resigned (h : authorityEvidenceFields op = .ok f) (signature : Bytes64) :
    ∃ op', authorityEvidenceFields op' = .ok { f with signature := signature } ∧
      signedPart op' = signedPart op ∧ op'.payload.length < 2 ^ 64 := by
  rcases authorityEvidenceFields_eq_ok.mp h with ⟨t, rfl, rfl⟩ | ⟨r, rfl, rfl⟩
  · refine ⟨{ t with ownerSignature := signature }.operation, ?_, ?_, ?_⟩
    · exact authorityEvidenceFields_eq_ok.mpr (Or.inl ⟨_, rfl, rfl⟩)
    · rw [signedPart_transfer, signedPart_transfer]
      rfl
    · simp [LicenseTransferV1.operation, LicenseTransferV1.unsignedPayload]
  · refine ⟨{ r with ownerSignature := signature }.operation, ?_, ?_, ?_⟩
    · exact authorityEvidenceFields_eq_ok.mpr (Or.inr ⟨_, rfl, rfl⟩)
    · rw [signedPart_rotation, signedPart_rotation]
      rfl
    · simp [MiningKeyRotateV1.operation, MiningKeyRotateV1.unsignedPayload]

/-- Two signatures of one operation make evidence that is accepted. -/
theorem not_provesEquivocation {key : Bytes32} (ha : authorityEvidenceFields a = .ok f)
    (hb : authorityEvidenceFields b = .ok g) (halength : a.payload.length < 2 ^ 64)
    (hblength : b.payload.length < 2 ^ 64) (hsame : signedPart a = signedPart b)
    (horder : a.encode < b.encode)
    (howner : ownerKeyAtSequences s f.licenseId f.ownerSequence f.miningSequence = .ok (some key))
    (hvalid : Crypto.validPublicKey key = true)
    (hfirst : Crypto.verifyStrict key (Bytes.b32 f.digest) f.signature = true)
    (hsecond : Crypto.verifyStrict key (Bytes.b32 f.digest) g.signature = true) :
    ¬ ProvesEquivocation s := by
  intro hproves
  have hfields := (eq_of_signedPart ha hb hsame).1
  let evidence : PunishmentEvidenceV1 :=
    { offenseType := offenseLicenseStateEquivocation
      accusedLicenseId := f.licenseId
      evidence := a.encode ++ b.encode }
  have hlast := takeProtocolOperation_encode b [] hblength
  rw [List.append_nil] at hlast
  have hpair : AuthorityPair s evidence a b f g key :=
    { bytes := rfl
      first := takeProtocolOperation_encode a b.encode halength
      second := hlast
      order := horder
      firstFields := ha
      secondFields := hb
      accused := ⟨rfl, by rw [hfields]⟩
      sequences := by rw [hfields]; exact ⟨rfl, rfl⟩
      owner := howner
      valid := hvalid
      firstSigned := hfirst
      secondSigned := by
        rw [hfields]
        exact hsecond }
  have haccepted : validateObjectiveEvidence s evidence = .ok true := by
    rw [validateObjectiveEvidence_equivocation rfl]
    exact validateLicenseStateEquivocation_eq_ok.mpr ⟨a, b, f, g, key, hpair⟩
  rcases hproves evidence rfl haccepted with ⟨a', b', hembedded, hdiffer⟩
  rw [hpair.embeddedOperations] at hembedded
  cases hembedded
  exact hdiffer hsame

/-- Tier-2 evidence proves that an owner signed two different operations exactly when
no owner key the state knows accepts two signatures of one operation. -/
theorem provesEquivocation_iff (s : DevnetState) :
    ProvesEquivocation s ↔ UniqueOwnerSignatures s := by
  constructor
  · intro hproves op f key hf howner hvalid signature signature' hfirst hsecond
    by_contra hne
    rcases exists_resigned hf signature with ⟨a, ha, hsigned, halength⟩
    rcases exists_resigned hf signature' with ⟨b, hb, hsigned', hblength⟩
    have hsame : signedPart a = signedPart b := hsigned.trans hsigned'.symm
    -- the encodings differ, so one of the two orders is strict
    have hdiffer : a.encode ≠ b.encode := by
      intro heq
      have hread := takeProtocolOperation_encode a [] halength
      rw [heq, takeProtocolOperation_encode b [] hblength] at hread
      cases hread
      rw [ha] at hb
      exact hne (congrArg AuthorityEvidenceFields.signature (Except.ok.inj hb))
    by_cases horder : a.encode < b.encode
    · exact not_provesEquivocation ha hb halength hblength hsame horder howner hvalid hfirst
        hsecond hproves
    · have horder' : b.encode < a.encode := by
        by_contra hle
        exact hdiffer (List.le_antisymm hle horder)
      exact not_provesEquivocation hb ha hblength halength hsame.symm horder' howner hvalid
        hsecond hfirst hproves
  · intro hunique evidence htype haccepted
    rw [validateObjectiveEvidence_equivocation htype] at haccepted
    rcases validateLicenseStateEquivocation_eq_ok.mp haccepted with ⟨a, b, f, g, key, hpair⟩
    refine ⟨a, b, hpair.embeddedOperations, ?_⟩
    intro hsame
    rcases eq_of_signedPart hpair.firstFields hpair.secondFields hsame with ⟨hfields, hequal⟩
    have howner := hpair.owner
    rw [← hpair.accused.1] at howner
    have hsecond := hpair.secondSigned
    rw [hfields] at hsecond
    have hsignature := hunique a f key hpair.firstFields howner hpair.valid f.signature g.signature
      hpair.firstSigned hsecond
    have horder := hpair.order
    rw [hequal hsignature] at horder
    exact List.lt_irrefl _ horder

end Owner

/-! ## Two signatures of one transfer -/

/-- The challenge of a commitment, as in Ed25519. -/
def challenge (commitment key : Bytes32) (message : Bytes) : Bytes32 :=
  BitVec.ofNat 256 (Bytes.beNat (Bytes.b32 commitment ++ (Bytes.b32 key ++ message)))

/-- A signature for a chosen nonce: the commitment, then the response. -/
def signWithNonce (nonce secret : Bytes32) (message : Bytes) : Bytes64 :=
  nonce ++ (nonce + challenge nonce secret message * secret)

/-- Ed25519 with the numbers modulo {lit}`2 ^ 256` in place of the curve.  As on the
curve, a signature is valid when its response is the commitment plus the challenge times
the key, so every nonce gives a valid signature. -/
@[reducible]
def nonceCrypto : Crypto :=
  let verify (key : Bytes32) (message : Bytes) (signature : Bytes64) : Bool :=
    let commitment := signature.extractLsb' 256 256
    signature.extractLsb' 0 256 == commitment + challenge commitment key message * key
  { sampleCrypto with
    verify := verify
    verifyStrict := verify
    sign := signWithNonce 1 }

section Evaluation

attribute [local instance] nonceCrypto

/-- A licence of the owner key 7. -/
def ownedLicense : LicenseState where
  index := 0
  licenseIdText := .encode 1
  purchaseId := 2
  ownerPublicKey := 7
  miningPublicKey := 8
  paymentAddressId := 9
  status := licenseStatusActive
  purchaseMethod := purchaseMethodBtc
  ownerKeySequence := 0
  miningKeySequence := 0
  issuedEpoch := 0
  activationEpoch := activationDelayEpochs
  strikeWeight := 0
  suspendedUntilEpoch := 0
  revocationEpoch := 0

def ownedState : DevnetState :=
  emptyState 10 devnetNetworkId devnetFixedGenesisTimeMs devnetGenesisId [ownedLicense]

/-- The owner's transfer of the licence, signed with a nonce. -/
def signedTransfer (nonce : Bytes32) : LicenseTransferV1 :=
  let transfer : LicenseTransferV1 :=
    { licenseId := 1
      expectedOwnerSequence := 0
      expectedMiningSequence := 0
      newOwnerPublicKey := 10
      newMiningPublicKey := 11
      ownerSignature := 0 }
  { transfer with ownerSignature := signWithNonce nonce 7 (Bytes.b32 transfer.signingDigest) }

/-- One transfer, signed twice. -/
def twiceSigned : PunishmentEvidenceV1 where
  offenseType := offenseLicenseStateEquivocation
  accusedLicenseId := 1
  evidence := (signedTransfer 1).operation.encode ++ (signedTransfer 2).operation.encode

/-- An owner who signs one transfer twice is convicted of equivocation. -/
theorem twiceSigned_accepted :
    validateObjectiveEvidence ownedState twiceSigned = .ok true ∧
      ∃ a b, embeddedOperations twiceSigned = .ok (a, b) ∧ signedPart a = signedPart b := by
  have hembedded : embeddedOperations twiceSigned =
      .ok ((signedTransfer 1).operation, (signedTransfer 2).operation) := by decide +kernel
  refine ⟨by decide +kernel, _, _, hembedded, ?_⟩
  rw [signedPart_transfer, signedPart_transfer]
  simp only [signedTransfer, LicenseTransferV1.unsignedPayload]

end Evaluation

end Mutiny
