import Mutiny.Node.BlockSync

/-!
# The count a block is mined against

The target and the number of tickets of a block depend on how many licences take part.
A miner chooses the operations of its block; the count reads nothing of them but the
miner's own presence.

Main result:

- Theorem {lit}`candidate_count_manipulation_free`: the count of a candidate block.
-/

namespace Mutiny

open Result Lists

namespace Presence

/-! ## Own presence -/

/-- The operation shows presence for a licence. -/
def isOwnPresence (licenseId : Bytes32) (op : ProtocolOperationV1) : Bool :=
  op.opType == opMiningPresence &&
    okAnd (decodeOperation op) fun presence => presence.licenseId == licenseId

section Operations

variable [Crypto]

/-- Every presence operation of the list is valid against the parent, and no licence shows
presence twice. -/
structure Prevalidated (parent : DevnetState) (epoch : UInt64)
    (operations : List ProtocolOperationV1) : Prop where
  valid : ∀ op ∈ operations, op.opType = opMiningPresence →
    ∃ presence, validateOperationAgainstParent parent op epoch = .ok presence
  once : ∀ licenseId, (operations.filter (isOwnPresence licenseId)).length ≤ 1

variable {parent : DevnetState} {op : ProtocolOperationV1} {epoch : UInt64}
  {presence : MiningPresenceV1}

theorem decodeOperation_of_validate
    (h : validateOperationAgainstParent parent op epoch = .ok presence) :
    decodeOperation op = .ok presence := by
  simp only [validateOperationAgainstParent, ok_rules] at h
  rcases h with ⟨_, hdecode, _, -, _, -, rfl⟩
  exact hdecode

omit [Crypto] in
theorem isOwnPresence_of_decode (htype : op.opType = opMiningPresence)
    (h : decodeOperation op = .ok presence) (licenseId : Bytes32) :
    isOwnPresence licenseId op = (presence.licenseId == licenseId) := by
  rw [isOwnPresence, htype, h]
  simp [okAnd]

omit [Crypto] in
theorem isOwnPresence_of_type (htype : op.opType ≠ opMiningPresence) (licenseId : Bytes32) :
    isOwnPresence licenseId op = false := by
  simp [isOwnPresence, htype]

omit [Crypto] in
theorem any_isOwnPresence (licenseId : Bytes32) (operations : List ProtocolOperationV1) :
    operations.any (isOwnPresence licenseId) =
      !(operations.filter (isOwnPresence licenseId)).isEmpty := by
  rw [Bool.eq_iff_iff]
  simp [List.filter_eq_nil_iff]

variable {operations : List ProtocolOperationV1}

theorem prevalidated_of_foldlM {authority : List Bytes32} {seen seen' : List Bytes32}
    (h : operations.foldlM (prevalidatePresence parent authority epoch) seen = .ok seen') :
    Prevalidated parent epoch operations ∧
      ∀ licenseId ∈ seen, operations.filter (isOwnPresence licenseId) = [] := by
  induction operations generalizing seen with
  | nil => exact ⟨⟨by simp, by simp⟩, by simp⟩
  | cons op operations ih =>
    rw [List.foldlM_cons, bind_eq_ok] at h
    rcases h with ⟨seen₁, hhead, htail⟩
    rcases ih htail with ⟨⟨hvalid, honce⟩, hseen⟩
    unfold prevalidatePresence at hhead
    split at hhead
    next htype =>
      cases hhead
      have hskip : ∀ licenseId, (op :: operations).filter (isOwnPresence licenseId) =
          operations.filter (isOwnPresence licenseId) := fun licenseId =>
        List.filter_cons_of_neg (by rw [isOwnPresence_of_type htype]; exact Bool.false_ne_true)
      refine ⟨⟨?_, fun licenseId => by rw [hskip]; exact honce licenseId⟩,
        fun licenseId hmem => by rw [hskip]; exact hseen licenseId hmem⟩
      intro op' hop' htype'
      rcases List.mem_cons.mp hop' with rfl | hop'
      · exact absurd htype' htype
      · exact hvalid op' hop' htype'
    next htype =>
      rw [not_not] at htype
      simp only [ok_rules] at hhead
      rcases hhead with ⟨presence, hpresence, _, hnew, _, -, rfl⟩
      have hown := isOwnPresence_of_decode htype (decodeOperation_of_validate hpresence)
      refine ⟨⟨?_, ?_⟩, ?_⟩
      · intro op' hop' htype'
        rcases List.mem_cons.mp hop' with rfl | hop'
        · exact ⟨presence, hpresence⟩
        · exact hvalid op' hop' htype'
      · intro licenseId
        by_cases hid : presence.licenseId = licenseId
        · rw [List.filter_cons_of_pos (by rw [hown]; exact beq_iff_eq.mpr hid),
            hseen licenseId (by rw [← hid]; exact List.mem_cons_self)]
          exact Nat.le_refl 1
        · rw [List.filter_cons_of_neg (by rw [hown, beq_iff_eq]; exact hid)]
          exact honce licenseId
      · intro licenseId hmem
        have hid : presence.licenseId ≠ licenseId := fun hid => hnew (hid ▸ hmem)
        rw [List.filter_cons_of_neg (by rw [hown, beq_iff_eq]; exact hid)]
        exact hseen licenseId (List.mem_cons_of_mem _ hmem)

theorem prevalidated_of_ok (h : prevalidateBlockOperations parent operations epoch = .ok ()) :
    Prevalidated parent epoch operations := by
  simp only [prevalidateBlockOperations, bind_eq_ok] at h
  rcases h with ⟨authority, -, seen, hfold, -⟩
  exact (prevalidated_of_foldlM hfold).1

variable {licenseId : Bytes32}

/-- The search for the miner's own presence skips every other operation. -/
theorem foldlM_matchSelfPresence (h : Prevalidated parent epoch operations) (found : Bool) :
    operations.foldlM (matchSelfPresence parent epoch licenseId) found =
      (operations.filter (isOwnPresence licenseId)).foldlM
        (matchSelfPresence parent epoch licenseId) found := by
  rcases h with ⟨hvalid, -⟩
  induction operations generalizing found with
  | nil => rfl
  | cons op operations ih =>
    rcases List.forall_mem_cons.mp hvalid with ⟨hhead, htail⟩
    by_cases hown : isOwnPresence licenseId op = true
    · rw [List.filter_cons_of_pos hown, List.foldlM_cons, List.foldlM_cons]
      congr 1
      funext found'
      exact ih found' htail
    · -- another operation leaves the search where it was
      have hskip : matchSelfPresence parent epoch licenseId found op = .ok found := by
        unfold matchSelfPresence
        by_cases htype : op.opType = opMiningPresence
        · rcases hhead htype with ⟨presence, hpresence⟩
          have hdecode := decodeOperation_of_validate hpresence
          rw [isOwnPresence_of_decode htype hdecode, beq_iff_eq] at hown
          simp [htype, hdecode, hown, bind, Except.bind]
        · rw [if_pos htype]
      rw [List.filter_cons_of_neg hown, List.foldlM_cons, hskip]
      exact ih found htail

/-- The state after the miner's own presence operation, if the list has one. -/
def applyOwnPresence (parent : DevnetState) (licenseId : Bytes32)
    (operations : List ProtocolOperationV1) : Except String DevnetState :=
  match operations.find? (isOwnPresence licenseId) with
  | none => .ok parent
  | some op => applyValidatedOperation parent op

/-! ## The count after own presence -/

omit [Crypto] in
/-- What is found after an entry is recorded. -/
theorem find?_recordPresence (value : MiningPresenceState) (entries : List MiningPresenceState)
    (k : HexText) :
    (recordPresence value entries).find? (fun e => e.licenseIdText == k) =
      if k = value.licenseIdText then some value else entries.find? fun e => e.licenseIdText == k := by
  unfold recordPresence
  split
  next hknown =>
    -- only the entry of the licence itself is replaced, so the keys stay
    let replace (e : MiningPresenceState) : MiningPresenceState :=
      if e.licenseIdText = value.licenseIdText then value else e
    have hreplace : updateFirst (fun e => e.licenseIdText == value.licenseIdText) (fun _ => value) entries =
        updateFirst (fun e => e.licenseIdText == value.licenseIdText) replace entries := by
      apply updateFirst_congr
      intro e he
      exact (if_pos (by simpa using List.find?_some he)).symm
    have hkeys (e : MiningPresenceState) : (replace e).licenseIdText = e.licenseIdText := by
      by_cases he : e.licenseIdText = value.licenseIdText
      · simp [replace, he]
      · simp [replace, he]
    rw [hreplace, find?_updateFirst MiningPresenceState.licenseIdText hkeys]
    by_cases hk : k = value.licenseIdText
    · rcases List.any_eq_true.mp hknown with ⟨e, he, hsame⟩
      rcases hfound : entries.find? (fun e => e.licenseIdText == value.licenseIdText) with - | first
      · exact absurd hsame (List.find?_eq_none.mp hfound e he)
      · have hfirst : first.licenseIdText = value.licenseIdText := by simpa using List.find?_some hfound
        rw [if_pos hk, if_pos hk]
        exact (congrArg (Option.map replace) hfound).trans (congrArg some (if_pos hfirst))
    · rw [if_neg hk, if_neg hk]
  next hnew =>
    have hsorted := find?_sortByKey (fun e => e.licenseIdText.text) (k := k.text) (le_refl _)
      (p := fun e => e.licenseIdText == k) (fun e he => by rw [beq_iff_eq.mp he])
      (entries ++ [value])
    rw [hsorted, List.find?_append]
    by_cases hk : k = value.licenseIdText
    · have hnone : entries.find? (fun e => e.licenseIdText == k) = none := by
        rw [List.find?_eq_none]
        intro e he hsame
        exact hnew (List.any_eq_true.mpr ⟨e, he, hk ▸ hsame⟩)
      rw [hnone, if_pos hk, hk]
      simp
    · have hother : (value.licenseIdText == k) = false := by simpa using Ne.symm hk
      simp [hk, hother]

omit [Crypto] in
/-- Freshness after an entry is recorded: that of its licence is decided by the entry. -/
theorem licenseHasFreshPresence_record {s : DevnetState} (hactive : active s epoch = true)
    (value : MiningPresenceState) (l : LicenseState) :
    licenseHasFreshPresence
        { s with miningPresence := recordPresence value s.miningPresence } l epoch =
      if l.licenseIdText = value.licenseIdText then
        value.miningKeySequence == l.miningKeySequence &&
          decide (value.lastPresenceEpoch ≤ epoch) &&
          decide (epoch - value.lastPresenceEpoch < miningPresenceWindowEpochs)
      else licenseHasFreshPresence s l epoch := by
  have hactive' : active { s with miningPresence := recordPresence value s.miningPresence } epoch =
      true := hactive
  unfold licenseHasFreshPresence
  simp only [hactive, hactive', find?_recordPresence, Bool.true_eq_false, if_false]
  by_cases hl : l.licenseIdText = value.licenseIdText
  · simp only [hl, if_true]
  · simp only [hl, if_false]

variable {license : LicenseState}

omit [Crypto] in
/-- A current entry makes its licence fresh and leaves all others as they are. -/
theorem participationEligibleCount_record {s : DevnetState} {value : MiningPresenceState}
    (hids : (s.licenses.map (·.licenseIdText)).Nodup) (hactive : active s epoch = true)
    {id : Bytes32} (hvalue : value.licenseIdText = .encode id)
    (hfound : s.findLicense id = some license)
    (heligible : license.isEligible epoch = true)
    (hsequence : value.miningKeySequence = license.miningKeySequence)
    (hepoch : value.lastPresenceEpoch = epoch) :
    participationEligibleCount
        { s with miningPresence := recordPresence value s.miningPresence } epoch =
      if licenseHasFreshPresence s license epoch then participationEligibleCount s epoch
      else participationEligibleCount s epoch + 1 := by
  have hactive' : active { s with miningPresence := recordPresence value s.miningPresence } epoch =
      true := hactive
  have hid : license.licenseIdText = value.licenseIdText := by
    simpa [hvalue] using List.find?_some hfound
  have hwindow : 0 < miningPresenceWindowEpochs := by decide
  have hcount := countP_of_find LicenseState.licenseIdText hids hfound
    (p := fun l => l.isEligible epoch && licenseHasFreshPresence s l epoch)
    (q := fun l => l.isEligible epoch && licenseHasFreshPresence
      { s with miningPresence := recordPresence value s.miningPresence } l epoch)
    (fun l _ hl => by
      rw [licenseHasFreshPresence_record hactive, if_neg (by rw [hvalue]; exact hl)])
    (by simp [licenseHasFreshPresence_record hactive, hid, heligible, hsequence, hepoch, hwindow])
  unfold participationEligibleCount
  simp only [hactive, hactive', Bool.true_eq_false, if_false, hcount, heligible, Bool.true_and]
  cases licenseHasFreshPresence s license epoch
  · rw [if_neg Bool.false_ne_true, if_neg Bool.false_ne_true, UInt64.ofNat_add]
    rfl
  · rw [if_pos rfl, if_pos rfl, Nat.add_zero]

/-- The miner's own presence operation makes its licence fresh. -/
theorem participation_after_own {own : DevnetState}
    (hids : (parent.licenses.map (·.licenseIdText)).Nodup) (hactive : active parent epoch = true)
    (hfound : parent.findLicense presence.licenseId = some license)
    (heligible : license.isEligible epoch = true)
    (hvalid : validateOperationAgainstParent parent op epoch = .ok presence)
    (happly : applyValidatedOperation parent op = .ok own) :
    participationEligibleCount own epoch =
      if licenseHasFreshPresence parent license epoch then participationEligibleCount parent epoch
      else participationEligibleCount parent epoch + 1 := by
  have hdecode := decodeOperation_of_validate hvalid
  simp only [validateOperationAgainstParent, ok_rules] at hvalid
  rcases hvalid with ⟨presence', -, license', hfound', _, hverified, rfl⟩
  rw [hfound, Option.some.injEq] at hfound'
  subst hfound'
  simp only [MiningPresenceV1.verifyAgainst, ok_rules, not_not] at hverified
  rcases hverified with ⟨_, -, _, -, _, -, _, hepoch, _, -, _, hsequence, -⟩
  simp only [applyValidatedOperation, hdecode, ok_rules, exists_eq_left'] at happly
  subst happly
  exact participationEligibleCount_record hids hactive rfl hfound heligible hsequence.symm hepoch

/-- The miner's own presence changes nothing but the recorded presences. -/
theorem applyOwnPresence_frame (parent : DevnetState) (licenseId : Bytes32)
    (operations : List ProtocolOperationV1) :
    ∃ presences, applyOwnPresence parent licenseId operations =
      .ok { parent with miningPresence := presences } := by
  unfold applyOwnPresence
  split
  next => exact ⟨parent.miningPresence, rfl⟩
  next op hop =>
    have hown := List.find?_some hop
    simp only [isOwnPresence, Bool.and_eq_true, beq_iff_eq] at hown
    rcases exists_of_okAnd hown.2 with ⟨presence, hdecode, -⟩
    simp only [applyValidatedOperation, hdecode]
    exact ⟨_, rfl⟩

/-- In a list that passed its checks, what applying the miner's own presence gives. -/
theorem applyOwnPresence_count (hids : (parent.licenses.map (·.licenseIdText)).Nodup)
    (hactive : active parent epoch = true) (hpre : Prevalidated parent epoch operations)
    (hfound : parent.findLicense licenseId = some license)
    (heligible : license.isEligible epoch = true) :
    ∃ own, applyOwnPresence parent licenseId operations = .ok own ∧
      participationEligibleCount own epoch =
        if operations.any (isOwnPresence licenseId) ∧
            licenseHasFreshPresence parent license epoch = false then
          participationEligibleCount parent epoch + 1
        else participationEligibleCount parent epoch := by
  unfold applyOwnPresence
  split
  next hnone =>
    have hany : operations.any (isOwnPresence licenseId) = false := by
      rw [List.any_eq_false]
      exact List.find?_eq_none.mp hnone
    exact ⟨parent, rfl, by simp [hany]⟩
  next op hop =>
    have hmem := List.mem_of_find?_eq_some hop
    have hown := List.find?_some hop
    have hany : operations.any (isOwnPresence licenseId) = true :=
      List.any_eq_true.mpr ⟨op, hmem, hown⟩
    have htype : op.opType = opMiningPresence := by
      simp only [isOwnPresence, Bool.and_eq_true, beq_iff_eq] at hown
      exact hown.1
    rcases hpre.valid op hmem htype with ⟨presence, hvalid⟩
    have hdecode := decodeOperation_of_validate hvalid
    rw [isOwnPresence_of_decode htype hdecode, beq_iff_eq] at hown
    subst hown
    have happly : ∃ own, applyValidatedOperation parent op = .ok own := by
      simp [applyValidatedOperation, hdecode, bind, Except.bind]
    rcases happly with ⟨own, happly⟩
    refine ⟨own, happly, ?_⟩
    rw [participation_after_own hids hactive hfound heligible hvalid happly]
    cases licenseHasFreshPresence parent license epoch <;> simp [hany]

/-- The search succeeds in a list that passed its checks exactly if the miner shows
presence. -/
theorem foldlM_matchSelfPresence_false (hpre : Prevalidated parent epoch operations) :
    operations.foldlM (matchSelfPresence parent epoch licenseId) false =
      .ok (operations.any (isOwnPresence licenseId)) := by
  rw [foldlM_matchSelfPresence hpre]
  have hany := any_isOwnPresence licenseId operations
  have honce := hpre.once licenseId
  rcases hfilter : operations.filter (isOwnPresence licenseId) with - | ⟨op, - | ⟨op', rest⟩⟩
  · rw [hany, hfilter]
    rfl
  · -- the one own operation is valid
    have hop : op ∈ operations ∧ isOwnPresence licenseId op = true := by
      rw [← List.mem_filter, hfilter]
      exact List.mem_singleton_self op
    have htype : op.opType = opMiningPresence := by
      simp only [isOwnPresence, Bool.and_eq_true, beq_iff_eq] at hop
      exact hop.2.1
    rcases hpre.valid op hop.1 htype with ⟨presence, hvalid⟩
    have hdecode := decodeOperation_of_validate hvalid
    have hid : presence.licenseId = licenseId := by
      have hown := hop.2
      rwa [isOwnPresence_of_decode htype hdecode, beq_iff_eq] at hown
    rw [hany, hfilter]
    simp [matchSelfPresence, htype, hdecode, hid, hvalid, reject, bind, Except.bind, pure,
      Except.pure]
  · rw [hfilter] at honce
    simp at honce

/-- Of a list that passed its checks the count of a candidate block reads no more than
whether the miner shows presence. -/
theorem candidateEligibleCount_eq_ok (hpre : Prevalidated parent epoch operations) {n : UInt64} :
    candidateEligibleCount parent epoch licenseId operations = .ok n ↔
      ∃ license, parent.findLicense licenseId = some license ∧ license.isEligible epoch = true ∧
        if active parent epoch = false then n = baseEligibleCount parent epoch
        else if licenseHasFreshPresence parent license epoch = true then
          n = participationEligibleCount parent epoch
        else operations.any (isOwnPresence licenseId) = true ∧
          (participationEligibleCount parent epoch).checkedAdd 1 = some n := by
  simp only [candidateEligibleCount, ok_rules, Bool.not_eq_false]
  constructor
  · rintro ⟨license, hfound, _, heligible, h⟩
    refine ⟨license, hfound, heligible, ?_⟩
    split at h
    next hinactive =>
      rw [if_pos hinactive]
      exact (Except.ok.inj h).symm
    next hactive =>
      rw [if_neg hactive]
      split at h
      next hfresh =>
        rw [if_pos hfresh]
        exact (Except.ok.inj h).symm
      next hstale =>
        rw [if_neg hstale]
        simpa only [foldlM_matchSelfPresence_false hpre, ok_rules, Bool.not_eq_false,
          exists_eq_left', exists_const] using h
  · rintro ⟨license, hfound, heligible, h⟩
    refine ⟨license, hfound, (), heligible, ?_⟩
    split at h
    next hinactive =>
      rw [if_pos hinactive, h]
    next hactive =>
      rw [if_neg hactive]
      split at h
      next hfresh =>
        rw [if_pos hfresh, h]
      next hstale =>
        rw [if_neg hstale]
        simpa only [foldlM_matchSelfPresence_false hpre, ok_rules, Bool.not_eq_false,
          exists_eq_left', exists_const] using h

/-- The count of a candidate block is that of its parent after the miner's own presence
operation, if the list has one, and it is positive; every other list with the same own
presence that passes the checks gives the same count, and so the same number of tickets
and the same target. -/
theorem candidate_count_manipulation_free {parent : DevnetState} {epoch n : UInt64}
    {licenseId : Bytes32} {operations : List ProtocolOperationV1}
    (hids : (parent.licenses.map (·.licenseIdText)).Nodup) (hlength : parent.licenses.length < 2 ^ 64)
    (hpre : prevalidateBlockOperations parent operations epoch = .ok ())
    (hcount : candidateEligibleCount parent epoch licenseId operations = .ok n) :
    (∃ own, applyOwnPresence parent licenseId operations = .ok own ∧
        n = participationEligibleCount own epoch) ∧
      1 ≤ n ∧
      ∀ operations', prevalidateBlockOperations parent operations' epoch = .ok () →
        operations'.filter (isOwnPresence licenseId) =
          operations.filter (isOwnPresence licenseId) →
        candidateEligibleCount parent epoch licenseId operations' = .ok n := by
  have hpre := prevalidated_of_ok hpre
  have hpositive {p : LicenseState → Bool} (h : 0 < parent.licenses.countP p) :
      1 ≤ UInt64.ofNat (parent.licenses.countP p) := by
    have hlt : parent.licenses.countP p < 2 ^ 64 := List.countP_le_length.trans_lt hlength
    rw [UInt64.le_iff_toNat_le, UInt64.toNat_ofNat_of_lt' hlt]
    exact h
  rcases (candidateEligibleCount_eq_ok hpre).mp hcount with ⟨license, hfound, heligible, hn⟩
  have hmem : license ∈ parent.licenses := List.mem_of_find?_eq_some hfound
  refine ⟨?_, ?_, ?_⟩
  · by_cases hactive : active parent epoch = false
    · rcases applyOwnPresence_frame parent licenseId operations with ⟨presences, happly⟩
      refine ⟨_, happly, ?_⟩
      have hinactive : active { parent with miningPresence := presences } epoch = false := hactive
      rw [if_pos hactive] at hn
      rw [hn, participationEligibleCount, if_pos hinactive]
      rfl
    · rcases applyOwnPresence_count hids (Bool.not_eq_false _ ▸ hactive) hpre hfound heligible with
        ⟨own, happly, hown⟩
      refine ⟨own, happly, ?_⟩
      rw [if_neg hactive] at hn
      rw [hown]
      split at hn
      next hfresh => simpa [hfresh] using hn
      next hstale =>
        have hsum := hn.2
        rw [UInt64.checkedAdd] at hsum
        split at hsum
        · rw [if_pos ⟨hn.1, by simpa using hstale⟩]
          exact (Option.some.inj hsum).symm
        · cases hsum
  · split at hn
    next =>
      rw [hn]
      exact hpositive (List.countP_pos_iff.mpr ⟨license, hmem, heligible⟩)
    next hactive =>
      split at hn
      next hfresh =>
        rw [hn, participationEligibleCount, if_neg hactive]
        exact hpositive (List.countP_pos_iff.mpr ⟨license, hmem, by rw [heligible, hfresh]; rfl⟩)
      next =>
        have hsum := UInt64.checkedAdd_eq_some.mp hn.2
        rw [UInt64.le_iff_toNat_le, hsum]
        exact Nat.le_add_left _ _
  · intro operations' hpre' hsame
    have hany : operations'.any (isOwnPresence licenseId) =
        operations.any (isOwnPresence licenseId) := by
      rw [any_isOwnPresence, any_isOwnPresence, hsame]
    rw [candidateEligibleCount_eq_ok (prevalidated_of_ok hpre'), hany]
    exact ⟨license, hfound, heligible, hn⟩

end Operations

section Evaluation

attribute [local instance] sampleCrypto

/-- A miner without presence, and another licence. -/
def staleMiner (licenseId : Bytes32) : LicenseState where
  index := 0
  licenseIdText := .encode licenseId
  purchaseId := 1
  ownerPublicKey := 2
  miningPublicKey := 3
  paymentAddressId := 4
  status := licenseStatusActive
  purchaseMethod := purchaseMethodBtc
  ownerKeySequence := 0
  miningKeySequence := 0
  issuedEpoch := 10
  activationEpoch := 74
  strikeWeight := 0
  suspendedUntilEpoch := 0
  revocationEpoch := 0

def staleParent : DevnetState :=
  emptyState 10 devnetNetworkId 0 devnetGenesisId [staleMiner 5, staleMiner 6]

def showPresence (licenseId : Bytes32) : ProtocolOperationV1 :=
  MiningPresenceV1.operation
    { networkId := devnetNetworkId
      genesisId := devnetGenesisId
      licenseId := licenseId
      expectedMiningSequence := 0
      presenceEpoch := 2000
      miningSignature := 0 }

/-- With its own presence a stale miner counts one licence, whether or not the block also
shows the presence of another one. -/
theorem candidate_count_own_presence :
    candidateEligibleCount staleParent 2000 5 [showPresence 5] = .ok 1 ∧
      candidateEligibleCount staleParent 2000 5 [showPresence 5, showPresence 6] = .ok 1 := by
  have hpre : prevalidateBlockOperations staleParent [showPresence 5] 2000 = .ok () := by
    decide +kernel
  have hpre' : prevalidateBlockOperations staleParent [showPresence 5, showPresence 6] 2000 =
      .ok () := by
    decide +kernel
  have hcount : candidateEligibleCount staleParent 2000 5 [showPresence 5] = .ok 1 := by
    decide +kernel
  have hsame : [showPresence 5, showPresence 6].filter (isOwnPresence 5) =
      [showPresence 5].filter (isOwnPresence 5) := by
    decide +kernel
  exact ⟨hcount, (candidate_count_manipulation_free (by decide) (by decide) hpre hcount).2.2 _
    hpre' hsame⟩

end Evaluation

end Presence

end Mutiny
