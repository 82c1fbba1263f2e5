import Mutiny.Node.KeyHistory

/-!
# One offence, one punishment

A piece of evidence is consumed by its identifier, a hash of all its bytes.  Those bytes
hold the mining sequence under which the accused key signed, and the signatures, neither
of which is part of the offence.  So an offence is punished once as long as the headers
in evidence verify under one sequence and one signature only.

Main results:

- Theorem {lit}`punished_once`: no chain punishes an offence twice while headers leave no
  choice.
- Theorem {lit}`rekeyed_punished_twice`: a licence that rotates to its own key is punished
  twice.
-/

namespace Mutiny

open Result Lists

/-! ## Offences -/

/-- Evidence of two headers signed for one ticket. -/
def sameTicketEvidence (accused : Bytes32) (miningSequence : UInt32) (a b : HeaderV1) :
    PunishmentEvidenceV1 where
  offenseType := offenseSameTicketEquivocation
  accusedLicenseId := accused
  evidence := Bytes.u32 miningSequence ++ (a.encode ++ b.encode)

/-- Two pieces of evidence against one licence that rest on the same signed header, or on
the same pair of signed header cores. -/
inductive SameOffense : PunishmentEvidenceV1 → PunishmentEvidenceV1 → Prop
  | header (accused : Bytes32) (q q' : UInt32) (h : HeaderV1) :
      SameOffense (invalidWorkEvidence accused q h) (invalidWorkEvidence accused q' h)
  | pair (accused : Bytes32) (q q' : UInt32) (a b a' b' : HeaderV1)
      (hcores : a.core = a'.core ∧ b.core = b'.core ∨ a.core = b'.core ∧ b.core = a'.core) :
      SameOffense (sameTicketEvidence accused q a b) (sameTicketEvidence accused q' a' b')

/-- Evidence of a known kind is read back from its operation. -/
theorem decodePunishmentOperation_operation {e : PunishmentEvidenceV1} {weight : UInt8}
    (hweight : offenseWeight e.offenseType = .ok weight) (hlength : e.evidence.length < 2 ^ 64) :
    decodePunishmentOperation e.operation = .ok e := by
  have hsize : (UInt64.ofNat e.evidence.length).toNat = e.evidence.length := by
    rw [UInt64.toNat_ofNat', Nat.mod_eq_of_lt hlength]
  have hread := reads_varuint (UInt64.ofNat e.evidence.length) e.evidence
  have hlong : ¬ e.operation.payload.length < 35 := by
    simp only [PunishmentEvidenceV1.operation, PunishmentEvidenceV1.canonicalEvidence, encodeVar,
      List.length_append, Bytes.length_be]
    have hpos := length_encodeVaruint_pos (UInt64.ofNat e.evidence.length)
    omega
  rw [decodePunishmentOperation, reject_of_not (by simp [PunishmentEvidenceV1.operation]),
    ok_bind, reject_of_not hlong, ok_bind]
  simp only [PunishmentEvidenceV1.operation, PunishmentEvidenceV1.canonicalEvidence, encodeVar,
    Bytes.cut_be_append, Bytes.toU16_u16, Bytes.toB32_b32, hweight, hread, Except.mapError, ok_bind]
  rw [reject_of_not (by rw [hsize]; simp), ok_bind, reject_of_not (by simp), ok_bind]

theorem decode_invalidWorkEvidence (accused : Bytes32) (q : UInt32) (h : HeaderV1) :
    decodePunishmentOperation (invalidWorkEvidence accused q h).operation =
      .ok (invalidWorkEvidence accused q h) := by
  refine decodePunishmentOperation_operation (show offenseWeight _ = .ok 1 from rfl) ?_
  simp only [invalidWorkEvidence, List.length_append, Bytes.length_be, HeaderV1.length_encode]
  decide

/-- Two operations that punish one offence. -/
def PunishSameOffense (op op' : ProtocolOperationV1) : Prop :=
  ∃ e e', decodePunishmentOperation op = .ok e ∧ decodePunishmentOperation op' = .ok e' ∧
    SameOffense e e'

section Evidence

variable [Crypto]

/-- The mining key that was in force at a sequence of a licence verifies a header. -/
def SignedInForce (visited : List DevnetState) (id : Bytes32) (sequence : UInt32)
    (h : HeaderV1) : Prop :=
  ∃ v ∈ visited, ∃ l, v.findLicense id = some l ∧ l.miningKeySequence = sequence ∧
    Crypto.verifyStrict l.miningPublicKey (Bytes.b32 (blockSigningDigest h.core)) h.signature =
      true

/-- A header that stands alone in some evidence against a licence. -/
def PresentedAlone (ops : List ProtocolOperationV1) (id : Bytes32) (h : HeaderV1) : Prop :=
  ∃ op ∈ ops, ∃ q, decodePunishmentOperation op = .ok (invalidWorkEvidence id q h)

/-- A header that is one of the two in some evidence against a licence. -/
def PresentedInPair (ops : List ProtocolOperationV1) (id : Bytes32) (h : HeaderV1) : Prop :=
  ∃ op ∈ ops, ∃ q other, decodePunishmentOperation op = .ok (sameTicketEvidence id q h other) ∨
    decodePunishmentOperation op = .ok (sameTicketEvidence id q other h)

/-- The headers in evidence leave no choice: each verifies under the key of one mining
sequence of the accused licence, and headers of one core in pairs carry one signature. -/
structure SoleAuthority (visited : List DevnetState) (ops : List ProtocolOperationV1) : Prop where
  sequence : ∀ id h, PresentedAlone ops id h ∨ PresentedInPair ops id h → ∀ q q',
    SignedInForce visited id q h → SignedInForce visited id q' h → q = q'
  signature : ∀ id h h', PresentedInPair ops id h → PresentedInPair ops id h' →
    h.core = h'.core → ∀ q q', SignedInForce visited id q h → SignedInForce visited id q' h' →
    h = h'

/-- What accepted evidence of each kind rests on. -/
inductive Justified (visited : List DevnetState) : PunishmentEvidenceV1 → Prop
  | work (id : Bytes32) (q : UInt32) (h : HeaderV1) (hsigned : SignedInForce visited id q h) :
      Justified visited (invalidWorkEvidence id q h)
  | owner (e : PunishmentEvidenceV1) (htype : e.offenseType = offenseLicenseStateEquivocation) :
      Justified visited e
  | pair (id : Bytes32) (q : UInt32) (a b : HeaderV1) (horder : a.encode < b.encode)
      (ha : SignedInForce visited id q a) (hb : SignedInForce visited id q b) :
      Justified visited (sameTicketEvidence id q a b)

variable {visited : List DevnetState} {id : Bytes32} {q : UInt32} {visited' : List DevnetState}
  {h : HeaderV1}

theorem SignedInForce.mono (hsub : visited ⊆ visited') (hsigned : SignedInForce visited id q h) :
    SignedInForce visited' id q h := by
  rcases hsigned with ⟨v, hv, hrest⟩
  exact ⟨v, hsub hv, hrest⟩

variable {e : PunishmentEvidenceV1}

theorem Justified.mono (hsub : visited ⊆ visited') (h : Justified visited e) :
    Justified visited' e := by
  cases h with
  | work id q h hsigned => exact .work id q h (hsigned.mono hsub)
  | owner e htype => exact .owner e htype
  | pair id q a b horder ha hb => exact .pair id q a b horder (ha.mono hsub) (hb.mono hsub)

/-! ## What the validator has seen -/

variable {ops : List ProtocolOperationV1} {s : DevnetState}

theorem signedInForce_of_ok (hist : KeyHistory visited ops s) {accused : Bytes32} {bytes : Bytes}
    {core : HeaderCoreV1} (h : validateSignedHeader s accused q bytes = .ok (some core)) :
    ∃ header : HeaderV1, bytes = header.encode ∧ SignedInForce visited accused q header := by
  simp only [validateSignedHeader, parseSignedHeader, ok_rules, not_not] at h
  rcases h with ⟨header, ⟨_, hlength, _, -, _, -, rfl⟩, _, -, found, hfound, h⟩
  cases found with
  | none => cases h
  | some key =>
    simp only [ok_rules, Bool.not_eq_false] at h
    rcases h with ⟨_, -, _, hverify, -⟩
    rcases hist.visited_of_lookup hfound with ⟨v, hv, l, hl, hq, rfl⟩
    exact ⟨_, (HeaderV1.encode_decode hlength).symm, v, hv, l, hl, hq, hverify⟩

omit [Crypto] in
/-- A sequence number and what follows it. -/
theorem eq_cut_four (bytes : Bytes) (h : 4 ≤ bytes.length) :
    bytes = Bytes.u32 (Bytes.toU32 (Bytes.cut 4 bytes).1) ++ (Bytes.cut 4 bytes).2 := by
  rw [Bytes.cut, Bytes.u32_take h]

theorem justified_of_invalidWork (hist : KeyHistory visited ops s)
    (htype : e.offenseType = offenseInvalidSignedWork)
    (h : validateInvalidSignedWork s e = .ok true) : Justified visited e := by
  simp only [validateInvalidSignedWork, ok_rules, not_not] at h
  rcases h with ⟨_, hlength, found, hsigned, h⟩
  cases found with
  | none => cases h
  | some core =>
    rcases signedInForce_of_ok hist hsigned with ⟨header, hbytes, hinForce⟩
    have hevidence := eq_cut_four e.evidence (by omega)
    rw [hbytes] at hevidence
    have hform : e = invalidWorkEvidence e.accusedLicenseId
        (Bytes.toU32 (Bytes.cut 4 e.evidence).1) header := by
      cases e
      simp only [invalidWorkEvidence, PunishmentEvidenceV1.mk.injEq]
      exact ⟨htype, trivial, hevidence⟩
    rw [hform]
    exact .work _ _ header hinForce

theorem justified_of_sameTicket (hist : KeyHistory visited ops s)
    (htype : e.offenseType = offenseSameTicketEquivocation)
    (h : validateSameTicketEquivocation s e = .ok true) : Justified visited e := by
  simp only [validateSameTicketEquivocation, ok_rules, not_not] at h
  rcases h with ⟨_, hlength, _, horder, found, hfirst, h⟩
  cases found with
  | none => cases h
  | some core =>
    simp only [bind_eq_ok] at h
    rcases h with ⟨found', hsecond, h⟩
    cases found' with
    | none => cases h
    | some core' =>
      rcases signedInForce_of_ok hist hfirst with ⟨a, ha, hsignedA⟩
      rcases signedInForce_of_ok hist hsecond with ⟨b, hb, hsignedB⟩
      have hevidence := eq_cut_four e.evidence (by omega)
      have hrest : (Bytes.cut 4 e.evidence).2 = a.encode ++ b.encode := by
        rw [← ha, ← hb]
        exact (List.take_append_drop 272 _).symm
      rw [hrest] at hevidence
      rw [ha, hb] at horder
      have hform : e = sameTicketEvidence e.accusedLicenseId
          (Bytes.toU32 (Bytes.cut 4 e.evidence).1) a b := by
        cases e
        simp only [sameTicketEvidence, PunishmentEvidenceV1.mk.injEq]
        exact ⟨htype, trivial, hevidence⟩
      rw [hform]
      exact .pair _ _ a b horder hsignedA hsignedB

theorem justified_of_ok (hist : KeyHistory visited ops s)
    (h : validateObjectiveEvidence s e = .ok true) : Justified visited e := by
  unfold validateObjectiveEvidence at h
  by_cases hwork : e.offenseType = offenseInvalidSignedWork
  · rw [if_pos hwork] at h
    exact justified_of_invalidWork hist hwork h
  rw [if_neg hwork] at h
  by_cases howner : e.offenseType = offenseLicenseStateEquivocation
  · exact .owner e howner
  rw [if_neg howner] at h
  by_cases hpair : e.offenseType = offenseSameTicketEquivocation
  · rw [if_pos hpair] at h
    exact justified_of_sameTicket hist hpair h
  rw [if_neg hpair] at h
  cases h

/-! ## The evidence of a chain -/

/-- The evidence among the operations of a chain is consumed, justified, and consumed
once. -/
structure EvidenceLog (visited : List DevnetState) (ops : List ProtocolOperationV1)
    (s : DevnetState) : Prop where
  consumed : ∀ op ∈ ops, ∀ e, decodePunishmentOperation op = .ok e →
    e.evidenceId ∈ s.consumedEvidence
  justified : ∀ op ∈ ops, ∀ e, decodePunishmentOperation op = .ok e → Justified visited e
  distinct : ops.Pairwise fun op op' => ∀ e e', decodePunishmentOperation op = .ok e →
    decodePunishmentOperation op' = .ok e' → e.evidenceId ≠ e'.evidenceId

variable {op : ProtocolOperationV1}

/-- An operation that is not evidence consumes none. -/
theorem OperationStep.evidence_or_other {txs : List TransactionV1} {epoch : UInt64}
    {s' : DevnetState} (h : OperationStep txs epoch s op s') :
    (∃ e old event record, EvidenceStep s op epoch e old event record s') ∨
      op.opType ≠ opPunishmentEvidence ∧ s'.consumedEvidence = s.consumedEvidence := by
  cases h with
  | headers htype h =>
    rcases licenses_headers h with ⟨headers, best, rfl⟩
    exact Or.inr ⟨by rw [htype]; decide, rfl⟩
  | purchase htype h =>
    rcases h.result with ⟨issued, native, bitcoin, -, -, -, rfl⟩
    refine Or.inr ⟨?_, rfl⟩
    rcases htype with htype | htype
    · rw [htype]
      decide
    · rw [htype]
      decide
  | transfer t old new h =>
    refine Or.inr ⟨?_, by rw [h.result]⟩
    rw [h.operation]
    exact (by decide : opLicenseTransfer ≠ opPunishmentEvidence)
  | rotation r old new h =>
    refine Or.inr ⟨?_, by rw [h.result]⟩
    rw [h.operation]
    exact (by decide : opLicenseMiningKeyRotate ≠ opPunishmentEvidence)
  | evidence e old event record h => exact Or.inl ⟨e, old, event, record, h⟩
  | claim c license account reserved h =>
    refine Or.inr ⟨?_, by rw [h.result]⟩
    rw [opType_of_claim h.operation]
    decide
  | presence htype h =>
    rcases presence_eq_ok h with ⟨presences, rfl⟩
    exact Or.inr ⟨by rw [htype]; decide, rfl⟩

namespace EvidenceLog

variable {visited : List DevnetState} {ops : List ProtocolOperationV1} {s s' : DevnetState}

/-- Operations that are not evidence, and that consume none. -/
theorem append_other (log : EvidenceLog visited ops s) {more : List ProtocolOperationV1}
    (hother : ∀ op ∈ more, op.opType ≠ opPunishmentEvidence)
    (hsame : s'.consumedEvidence = s.consumedEvidence) :
    EvidenceLog (visited ++ [s']) (ops ++ more) s' := by
  have hold : ∀ op ∈ ops ++ more, ∀ e, decodePunishmentOperation op = .ok e → op ∈ ops := by
    intro op hop e he
    rcases List.mem_append.mp hop with hop | hop
    · exact hop
    · exact absurd (opType_of_evidence he) (hother op hop)
  constructor
  · intro op hop e he
    rw [hsame]
    exact log.consumed op (hold op hop e he) e he
  · intro op hop e he
    exact (log.justified op (hold op hop e he) e he).mono (List.subset_append_left _ _)
  · refine List.pairwise_append.mpr ⟨log.distinct, ?_, ?_⟩
    · apply List.pairwise_of_forall_mem_list
      intro op hop op' _ e _ he
      exact absurd (opType_of_evidence he) (hother op hop)
    · intro op _ op' hop' e e' _ he'
      exact absurd (opType_of_evidence he') (hother op' hop')

/-- A piece of evidence: its identifier is new, and it is justified by the history. -/
theorem append_evidence (log : EvidenceLog visited ops s) (hist : KeyHistory visited ops s)
    {op : ProtocolOperationV1} {epoch : UInt64} {e : PunishmentEvidenceV1} {old : LicenseState}
    {event : OffenseEventState} {record : LicenseRecordV1}
    (h : EvidenceStep s op epoch e old event record s') :
    EvidenceLog (visited ++ [s']) (ops ++ [op]) s' := by
  have hconsumed : ∀ id, id ∈ s'.consumedEvidence ↔ id ∈ s.consumedEvidence ∨ id = e.evidenceId := by
    intro id
    rw [h.result, mem_sortByKey, List.mem_append, List.mem_singleton]
  have hself : ∀ e', decodePunishmentOperation op = .ok e' → e' = e := by
    intro e' he'
    rw [h.operation, Except.ok.injEq] at he'
    exact he'.symm
  constructor
  · intro op' hop' e' he'
    rw [hconsumed]
    rcases List.mem_append.mp hop' with hop' | hop'
    · exact Or.inl (log.consumed op' hop' e' he')
    · rw [List.mem_singleton.mp hop'] at he'
      exact Or.inr (by rw [hself e' he'])
  · intro op' hop' e' he'
    rcases List.mem_append.mp hop' with hop' | hop'
    · exact (log.justified op' hop' e' he').mono (List.subset_append_left _ _)
    · rw [List.mem_singleton.mp hop'] at he'
      rw [hself e' he']
      exact (justified_of_ok hist h.proves).mono (List.subset_append_left _ _)
  · refine List.pairwise_append.mpr ⟨log.distinct, List.pairwise_singleton _ _, ?_⟩
    intro op' hop' op'' hop'' e' e'' he' he'' hsame
    rw [List.mem_singleton.mp hop''] at he''
    rw [hself e'' he''] at hsame
    exact h.unconsumed (hsame ▸ log.consumed op' hop' e' he')

theorem of_run {s₀ : DevnetState} (hfresh : FreshKeys s₀) (h : RegistryRun s₀ visited ops s) :
    EvidenceLog visited ops s := by
  induction h with
  | start => exact ⟨by simp, by simp, List.Pairwise.nil⟩
  | quiet _ _ hevidence hfounding ih =>
    refine ih.append_other (fun op hop => ?_) hevidence
    rw [hfounding op hop]
    decide
  | operation hrun hstep ih =>
    rcases hstep.evidence_or_other with ⟨e, old, event, record, hevidence⟩ | ⟨hother, hsame⟩
    · exact ih.append_evidence (.of_run hfresh hrun) hevidence
    · refine ih.append_other (fun op' hop' => ?_) hsame
      rw [List.mem_singleton.mp hop']
      exact hother

end EvidenceLog

/-! ## Justified evidence of one offence -/

omit [Crypto] in
theorem invalidWorkEvidence_inj {id' : Bytes32} {q' : UInt32} {h' : HeaderV1} :
    invalidWorkEvidence id q h = invalidWorkEvidence id' q' h' ↔ id = id' ∧ q = q' ∧ h = h' := by
  simp only [invalidWorkEvidence, PunishmentEvidenceV1.mk.injEq, true_and, Bytes.be_append_inj,
    Bytes.u32_inj, HeaderV1.encode_inj]

omit [Crypto] in
theorem sameTicketEvidence_inj {id' : Bytes32} {q' : UInt32} {a b a' b' : HeaderV1} :
    sameTicketEvidence id q a b = sameTicketEvidence id' q' a' b' ↔
      id = id' ∧ q = q' ∧ a = a' ∧ b = b' := by
  have hpair : a.encode ++ b.encode = a'.encode ++ b'.encode ↔ a = a' ∧ b = b' := by
    rw [← HeaderV1.encode_inj (a := a), ← HeaderV1.encode_inj (a := b)]
    constructor
    · intro h
      exact List.append_inj h (by rw [HeaderV1.length_encode, HeaderV1.length_encode])
    · rintro ⟨ha, hb⟩
      rw [ha, hb]
  simp only [sameTicketEvidence, PunishmentEvidenceV1.mk.injEq, true_and, Bytes.be_append_inj,
    Bytes.u32_inj, hpair]

theorem Justified.signed_work (hjust : Justified visited e) (he : e = invalidWorkEvidence id q h) :
    SignedInForce visited id q h := by
  cases hjust with
  | work id' q' h' hsigned =>
    rcases invalidWorkEvidence_inj.mp he with ⟨rfl, rfl, rfl⟩
    exact hsigned
  | owner _ htype =>
    rw [he] at htype
    exact absurd htype (by decide : offenseInvalidSignedWork ≠ offenseLicenseStateEquivocation)
  | pair id' q' a b horder ha hb =>
    have htype := congrArg PunishmentEvidenceV1.offenseType he
    exact absurd htype (by decide : offenseSameTicketEquivocation ≠ offenseInvalidSignedWork)

theorem Justified.signed_pair (hjust : Justified visited e) {a b : HeaderV1}
    (he : e = sameTicketEvidence id q a b) :
    a.encode < b.encode ∧ SignedInForce visited id q a ∧ SignedInForce visited id q b := by
  cases hjust with
  | work id' q' h' hsigned =>
    have htype := congrArg PunishmentEvidenceV1.offenseType he
    exact absurd htype (by decide : offenseInvalidSignedWork ≠ offenseSameTicketEquivocation)
  | owner _ htype =>
    rw [he] at htype
    exact absurd htype
      (by decide : offenseSameTicketEquivocation ≠ offenseLicenseStateEquivocation)
  | pair id' q' a' b' horder ha hb =>
    rcases sameTicketEvidence_inj.mp he with ⟨rfl, rfl, rfl, rfl⟩
    exact ⟨horder, ha, hb⟩

/-- Under one sequence and one signature, evidence of one offence is one piece. -/
theorem SoleAuthority.eq_of_sameOffense (hsole : SoleAuthority visited ops)
    {op' : ProtocolOperationV1} (hop : op ∈ ops) (hop' : op' ∈ ops) {e' : PunishmentEvidenceV1}
    (he : decodePunishmentOperation op = .ok e) (he' : decodePunishmentOperation op' = .ok e')
    (hjust : Justified visited e) (hjust' : Justified visited e') (hsame : SameOffense e e') :
    e = e' := by
  cases hsame with
  | header id q q' h =>
    have hq := hsole.sequence id h (Or.inl ⟨op, hop, q, he⟩) q q' (hjust.signed_work rfl)
      (hjust'.signed_work rfl)
    rw [hq]
  | pair id q q' a b a' b' hcores =>
    rcases hjust.signed_pair rfl with ⟨horder, ha, hb⟩
    rcases hjust'.signed_pair rfl with ⟨horder', ha', hb'⟩
    have pa : PresentedInPair ops id a := ⟨op, hop, q, b, Or.inl he⟩
    have pb : PresentedInPair ops id b := ⟨op, hop, q, a, Or.inr he⟩
    have pa' : PresentedInPair ops id a' := ⟨op', hop', q', b', Or.inl he'⟩
    have pb' : PresentedInPair ops id b' := ⟨op', hop', q', a', Or.inr he'⟩
    rcases hcores with ⟨hca, hcb⟩ | ⟨hca, hcb⟩
    · have heqa := hsole.signature id a a' pa pa' hca q q' ha ha'
      have heqb := hsole.signature id b b' pb pb' hcb q q' hb hb'
      subst heqa heqb
      rw [hsole.sequence id a (Or.inr pa) q q' ha ha']
    · -- the two headers stand in one order, so they cannot have changed places
      have heqa := hsole.signature id a b' pa pb' hca q q' ha hb'
      have heqb := hsole.signature id b a' pb pa' hcb q q' hb ha'
      subst heqa heqb
      exact absurd horder' (List.lt_asymm horder)

/-- A chain that starts without recorded keys punishes an offence at most once, while
every header in its evidence verifies under one mining sequence and, in pairs, with one
signature. -/
theorem punished_once {s₀ s : DevnetState} {visited : List DevnetState}
    {ops : List ProtocolOperationV1} (hfresh : FreshKeys s₀)
    (htrace : ChainTrace s₀ visited ops s) (hsole : SoleAuthority visited ops) :
    ops.Pairwise fun op op' => ¬ PunishSameOffense op op' := by
  have log := EvidenceLog.of_run hfresh htrace.registryRun
  refine log.distinct.imp_of_mem ?_
  intro op op' hop hop' hdistinct hsame
  rcases hsame with ⟨e, e', he, he', hoffense⟩
  apply hdistinct e e' he he'
  rw [hsole.eq_of_sameOffense hop hop' he he' (log.justified op hop e he)
    (log.justified op' hop' e' he') hoffense]

/-- The same header for the next ticket. -/
def HeaderV1.nextTicket (header : HeaderV1) : HeaderV1 :=
  { header with core := { header.core with ticketIndex := header.core.ticketIndex + 1 } }

/-- The evidence of invalid work for two tickets, as operations. -/
def accusations (id : Bytes32) (header : HeaderV1) : List ProtocolOperationV1 :=
  [(invalidWorkEvidence id 0 header).operation, (invalidWorkEvidence id 0 header.nextTicket).operation]

/-- A Devnet chain on which a licence is accused of two invalid headers: the genesis, the
first header, the operations of the last block and the state after it. -/
def accusedChain :
    Except String (DevnetState × HeaderV1 × Bytes32 × List ProtocolOperationV1 × DevnetState) := do
  let (genesis, s) ← devnetBootstrapped
  let l ← okOr s.licenses.head? "no licence"
  let header := invalidHeader s l
  let (operations, s) ← receiveMined s [] (accusations l.licenseId header)
  .ok (genesis, header, l.licenseId, operations, s)

/-- A chain whose licences have their first keys and whose evidence is of single headers
leaves no choice. -/
theorem SoleAuthority.of_first_keys (hist : KeyHistory visited ops s)
    (hfirst : ∀ l ∈ s.licenses, l.miningKeySequence = 0)
    (halone : ∀ id h, ¬ PresentedInPair ops id h) : SoleAuthority visited ops := by
  have hzero : ∀ id q h, SignedInForce visited id q h → q = 0 := by
    rintro id q h ⟨v, hv, l, hl, rfl, -⟩
    have hrank := hist.rank_le hv id
    rw [miningRank_of_some (keysInForce_of_find hl)] at hrank
    cases hcurrent : s.findLicense id with
    | none =>
      rw [miningRank, DevnetState.keysInForce, hcurrent] at hrank
      cases hrank
    | some current =>
      have hsequence := hfirst current (List.mem_of_find?_eq_some hcurrent)
      rw [miningRank_of_some (keysInForce_of_find hcurrent)] at hrank
      apply UInt32.toNat_inj.mp
      have hnat : current.miningKeySequence.toNat = 0 := congrArg UInt32.toNat hsequence
      exact Nat.le_zero.mp ((Nat.le_of_succ_le_succ hrank).trans hnat.le)
  constructor
  · intro id h _ q q' hq hq'
    rw [hzero id q h hq, hzero id q' h hq']
  · intro id h h' hpair
    exact absurd hpair (halone id h)

end Evidence

section Evaluation

attribute [local instance] devnetCrypto

/-- What the chain with two accusations ends with. -/
theorem accusedChain_trace :
    ∃ (genesis s : DevnetState) (header : HeaderV1) (id : Bytes32) (visited : List DevnetState)
      (ops : List ProtocolOperationV1), FreshKeys genesis ∧
      (Punishment.checkState genesis = .ok () ∧ genesis.offenseEvents = [] ∧
        genesis.licenses = []) ∧
      (∀ l ∈ s.licenses, l.miningKeySequence = 0) ∧ (∃ l ∈ s.licenses, l.strikeWeight = 2) ∧
      (∀ op ∈ ops, op.opType = opBootstrapCommitment) ∧
      ChainTrace genesis visited (ops ++ accusations id header) s := by
  have hcheck : okAnd accusedChain (fun r =>
      (r.1.historicalLicenseKeys == [] && r.1.licenses == [] && r.1.offenseEvents == [] &&
        okAnd (Punishment.checkState r.1) fun _ => true) &&
        (r.2.2.2.2.licenses.all (·.miningKeySequence == 0) &&
          r.2.2.2.2.licenses.any (·.strikeWeight == 2)) &&
        r.2.2.2.1 == accusations r.2.2.1 r.2.1) = true := by
    decide +kernel
  rcases exists_of_okAnd hcheck with ⟨⟨genesis, header, id, operations, s⟩, hrun, htest⟩
  simp only [Bool.and_eq_true, beq_iff_eq, List.all_eq_true, List.any_eq_true] at htest
  rcases htest with ⟨⟨⟨⟨⟨hhistory, hlicenses⟩, hoffenses⟩, hpunishment⟩, hfirst, hstruck⟩, hlast⟩
  rcases exists_of_okAnd hpunishment with ⟨_, hpunishment, -⟩
  simp only [accusedChain, ok_rules, Prod.mk.injEq] at hrun
  rcases hrun with ⟨⟨genesis, s₁⟩, hboot, l, -, ⟨ops₂, s₂⟩, hpunish, rfl, rfl, rfl, rfl, rfl⟩
  dsimp only at hhistory hlicenses hoffenses hpunishment hlast hfirst hstruck
  rcases ChainTrace.of_devnetBootstrapped hboot with ⟨visited₁, ops₁, trace₁, hfounding⟩
  rcases trace₁.receiveMined hpunish with ⟨visited₂, trace₂⟩
  rw [hlast] at trace₂
  refine ⟨_, _, _, _, visited₂, ops₁, ⟨hhistory, ?_⟩, ⟨hpunishment, hoffenses, hlicenses⟩, hfirst,
    hstruck, hfounding, trace₂⟩
  rw [hlicenses]
  exact fun l hl => absurd hl List.not_mem_nil

/-- A licence punished for two headers, each of them once. -/
theorem punished_once_accused :
    ∃ (genesis s : DevnetState) (visited : List DevnetState) (ops : List ProtocolOperationV1)
      (id : Bytes32) (header : HeaderV1), FreshKeys genesis ∧ ChainTrace genesis visited ops s ∧
      PresentedAlone ops id header ∧ PresentedAlone ops id header.nextTicket ∧
      (∃ l ∈ s.licenses, l.strikeWeight = 2) ∧ SoleAuthority visited ops ∧
      ops.Pairwise fun op op' => ¬ PunishSameOffense op op' := by
  rcases accusedChain_trace with
    ⟨genesis, s, header, id, visited, ops, hfresh, -, hfirst, hstruck, hfounding, htrace⟩
  have hdecode := fun h => decode_invalidWorkEvidence id 0 h
  have halone : ∀ id' h, ¬ PresentedInPair (ops ++ accusations id header) id' h := by
    rintro id' h ⟨op, hop, q, other, hpair⟩
    have htype : op.opType = opPunishmentEvidence := by
      rcases hpair with hpair | hpair
      · exact opType_of_evidence hpair
      · exact opType_of_evidence hpair
    rcases List.mem_append.mp hop with hop | hop
    · rw [hfounding op hop] at htype
      exact absurd htype (by decide)
    · have hwork : ∃ h', decodePunishmentOperation op = .ok (invalidWorkEvidence id 0 h') := by
        rcases List.mem_pair.mp hop with rfl | rfl
        · exact ⟨header, hdecode header⟩
        · exact ⟨header.nextTicket, hdecode header.nextTicket⟩
      rcases hwork with ⟨h', hwork⟩
      rw [hwork, Except.ok.injEq, Except.ok.injEq] at hpair
      have htypes : offenseInvalidSignedWork ≠ offenseSameTicketEquivocation := by decide
      rcases hpair with hpair | hpair
      · exact absurd (congrArg PunishmentEvidenceV1.offenseType hpair) htypes
      · exact absurd (congrArg PunishmentEvidenceV1.offenseType hpair) htypes
  have hsole := SoleAuthority.of_first_keys (keyHistory_of_trace hfresh htrace) hfirst halone
  refine ⟨genesis, s, visited, _, id, header, hfresh, htrace, ⟨_, ?_, 0, hdecode header⟩,
    ⟨_, ?_, 0, hdecode header.nextTicket⟩, hstruck, hsole, punished_once hfresh htrace hsole⟩
  · exact List.mem_append_right ops (List.mem_cons_self ..)
  · exact List.mem_append_right ops (List.mem_cons_of_mem _ (List.mem_singleton.mpr rfl))

/-- A licence that rotates its mining key to the same key is punished for one header
under both sequences. -/
theorem rekeyed_punished_twice :
    ∃ (genesis s : DevnetState) (visited : List DevnetState) (ops : List ProtocolOperationV1),
      FreshKeys genesis ∧ ChainTrace genesis visited ops s ∧
        ¬ ops.Pairwise fun op op' => ¬ PunishSameOffense op op' := by
  rcases rekeyedChain_trace with ⟨genesis, s, header, l, l', visited, ops, hfresh, -, -, htrace⟩
  refine ⟨genesis, s, visited, _, hfresh, htrace, ?_⟩
  intro hpairwise
  have hlast := (List.pairwise_append.mp hpairwise).2.1
  apply List.rel_of_pairwise_cons hlast (List.mem_singleton.mpr rfl)
  exact ⟨_, _, decode_invalidWorkEvidence l.licenseId 0 header,
    decode_invalidWorkEvidence l.licenseId 1 header, .header l.licenseId 0 1 header⟩

end Evaluation

end Mutiny
