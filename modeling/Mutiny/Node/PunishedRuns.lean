import Mutiny.Node.RepeatedOffenses
import Mutiny.Node.Supply

/-!
# Strikes and revocation over whole chains

A licence carries the weight of its active offences until they expire, and at sixteen it
is revoked for good.  The invariant below holds at every point of a chain: after each
empty epoch, at the start of a block, and after each of its operations.

Main result:

- Theorem {lit}`punishment_accounting`: what the invariant says about a run.
-/

namespace Mutiny

open Result Lists Punishment

/-! ## Weights of active offences -/

/-- The sum of the weights of the offences of a licence. -/
def activeWeight (events : List OffenseEventState) (id : Bytes32) : Nat :=
  ((events.filter fun e => e.licenseId == id).map (·.weight.toNat)).sum

theorem activeWeight_append (xs ys : List OffenseEventState) (id : Bytes32) :
    activeWeight (xs ++ ys) id = activeWeight xs id + activeWeight ys id := by
  simp [activeWeight]

variable {xs ys : List OffenseEventState}

theorem activeWeight_perm (h : xs.Perm ys) (id : Bytes32) :
    activeWeight xs id = activeWeight ys id :=
  ((h.filter _).map _).sum_eq

theorem activeWeight_sublist (h : List.Sublist xs ys) (id : Bytes32) :
    activeWeight xs id ≤ activeWeight ys id :=
  List.Sublist.sum_le_sum ((h.filter _).map _) (fun _ _ => Nat.zero_le _)

variable {events : List OffenseEventState}

theorem activeWeight_eq_zero {id : Bytes32} (h : ∀ e ∈ events, e.licenseId ≠ id) :
    activeWeight events id = 0 := by
  have hnone : events.filter (fun e => e.licenseId == id) = [] := by
    simpa [List.filter_eq_nil_iff] using h
  rw [activeWeight, hnone]
  rfl

/-- The sum of the weights of the offences stored under a text. -/
def storedWeight (events : List OffenseEventState) (t : HexText) : Nat :=
  ((events.filter fun e => e.licenseIdText == t).map (·.weight.toNat)).sum

theorem storedWeight_cons (e : OffenseEventState) (events : List OffenseEventState) (t : HexText) :
    storedWeight (e :: events) t =
      (if e.licenseIdText = t then e.weight.toNat else 0) + storedWeight events t := by
  by_cases h : e.licenseIdText = t
  · simp [storedWeight, h]
  · simp [storedWeight, h]

/-- Other texts of the same identifier can only add to the sum. -/
theorem storedWeight_le (events : List OffenseEventState) (t : HexText) :
    storedWeight events t ≤ activeWeight events t.bytes := by
  refine List.Sublist.sum_le_sum (List.Sublist.map _ ?_) fun _ _ => Nat.zero_le _
  refine List.monotone_filter_right events fun e he => ?_
  rw [beq_iff_eq] at he ⊢
  exact congrArg HexText.bytes he

/-- An identifier with one text. -/
theorem storedWeight_eq {t : HexText}
    (h : ∀ e ∈ events, e.licenseId = t.bytes → e.licenseIdText = t) :
    storedWeight events t = activeWeight events t.bytes := by
  have hsame : ∀ e ∈ events, (e.licenseIdText == t) = (e.licenseId == t.bytes) := by
    intro e he
    rw [Bool.eq_iff_iff, beq_iff_eq, beq_iff_eq]
    exact ⟨fun htext => congrArg HexText.bytes htext, h e he⟩
  rw [storedWeight, activeWeight, List.filter_congr hsame]

theorem weightOf_cons (t t' : HexText) (w : UInt8) (table : List (HexText × UInt8)) :
    weightOf ((t', w) :: table) t = if t' = t then w else weightOf table t := by
  by_cases h : t' = t
  · simp [weightOf, h]
  · simp [weightOf, h]

variable {table : List (HexText × UInt8)}

/-- The table a loop over offences builds holds their sums. -/
theorem weightOf_of_foldlM {table' : List (HexText × UInt8)}
    (h : events.foldlM addWeight table = .ok table') (t : HexText) :
    (weightOf table' t).toNat = (weightOf table t).toNat + storedWeight events t := by
  induction events generalizing table with
  | nil =>
    rw [List.foldlM_nil, pure_eq_ok] at h
    rw [h]
    rfl
  | cons e events ih =>
    rw [List.foldlM_cons, bind_eq_ok] at h
    rcases h with ⟨table₁, hfirst, hrest⟩
    simp only [addWeight, ok_rules, not_le] at hfirst
    rcases hfirst with ⟨_, hbound, rfl⟩
    rw [ih hrest, weightOf_cons, storedWeight_cons]
    by_cases hid : e.licenseIdText = t
    · subst hid
      rw [if_pos rfl, if_pos rfl, UInt8.toNat_add, Nat.mod_eq_of_lt hbound, Nat.add_assoc]
    · rw [if_neg hid, if_neg hid, Nat.zero_add]

/-- Sums that stay below 256 are computed. -/
theorem exists_foldlM_addWeight
    (h : ∀ t, (weightOf table t).toNat + storedWeight events t < 256) :
    ∃ table', events.foldlM addWeight table = .ok table' := by
  induction events generalizing table with
  | nil => exact ⟨table, rfl⟩
  | cons e events ih =>
    have hbound : (weightOf table e.licenseIdText).toNat + e.weight.toNat < 256 := by
      have := h e.licenseIdText
      rw [storedWeight_cons, if_pos rfl] at this
      omega
    have hfirst : addWeight table e =
        .ok ((e.licenseIdText, weightOf table e.licenseIdText + e.weight) :: table) := by
      rw [addWeight, reject_of_not (not_le.mpr hbound)]
      rfl
    rw [List.foldlM_cons, hfirst, ok_bind]
    apply ih
    intro t
    have ht := h t
    rw [storedWeight_cons] at ht
    rw [weightOf_cons]
    by_cases hsame : e.licenseIdText = t
    · subst hsame
      rw [if_pos rfl] at ht
      rw [if_pos rfl, UInt8.toNat_add, Nat.mod_eq_of_lt hbound]
      omega
    · rw [if_neg hsame] at ht
      rw [if_neg hsame]
      omega

/-- The table of a list of offences. -/
theorem weightOf_activeWeights (h : activeWeights events = .ok table) (t : HexText) :
    (weightOf table t).toNat = storedWeight events t := by
  have hsum := weightOf_of_foldlM h t
  have hzero : (weightOf [] t).toNat = 0 := rfl
  omega

theorem exists_activeWeights (h : ∀ id, activeWeight events id < 256) :
    ∃ table, activeWeights events = .ok table := by
  apply exists_foldlM_addWeight
  intro t
  have hzero : (weightOf [] t).toNat = 0 := rfl
  have hle := storedWeight_le events t
  have := h t.bytes
  omega

/-! ## The invariant -/

/-- A licence that carries the weight of its offences below sixteen, or the mark of its
revocation. -/
inductive Carries (events : List OffenseEventState) (l : LicenseState) : Prop
  | revoked (hstatus : l.status = licenseStatusRevoked)
      (hweight : l.strikeWeight = revocationThreshold) (hepoch : l.revocationEpoch ≠ 0)
  | live (hstatus : l.status ≠ licenseStatusRevoked)
      (hweight : l.strikeWeight.toNat = activeWeight events l.licenseId)
      (hbound : activeWeight events l.licenseId < 16) (hepoch : l.revocationEpoch = 0)

/-- Offences and strike weights agree, and no licence has more than an offence can add
to a weight below sixteen. -/
structure PunishmentSound (s : DevnetState) : Prop where
  ids : (s.licenses.map (·.licenseId)).Nodup
  consumed : s.consumedEvidence.Nodup
  distinct : (s.offenseEvents.map (·.evidenceId)).Nodup
  valid : ∀ e ∈ s.offenseEvents, ValidEvent s e
  bounded : ∀ id, activeWeight s.offenseEvents id < 20
  carries : ∀ l ∈ s.licenses, Carries s.offenseEvents l

namespace PunishmentSound

variable {s s' : DevnetState} {events : List OffenseEventState} (h : PunishmentSound s)

include h

theorem exists_weights (hsub : List.Sublist events s.offenseEvents) :
    ∃ table, activeWeights events = .ok table := by
  apply exists_activeWeights
  intro id
  have hle := activeWeight_sublist hsub id
  have hbound := h.bounded id
  omega

/-- The offences of a licence are stored under its text. -/
theorem storedWeight_eq (hsub : events ⊆ s.offenseEvents)
    {l : LicenseState} (hl : l ∈ s.licenses) :
    storedWeight events l.licenseIdText = activeWeight events l.licenseId := by
  refine Mutiny.storedWeight_eq fun e he hid => ?_
  rcases List.mem_map.mp (h.valid e (hsub he)).known with ⟨l', hl', htext⟩
  have hsame : l'.licenseId = l.licenseId := (congrArg HexText.bytes htext).trans hid
  rw [← htext, List.inj_on_of_nodup_map h.ids hl' hl hsame]

theorem checkState : Punishment.checkState s = .ok () := by
  rcases h.exists_weights (List.Sublist.refl _) with ⟨table, htable⟩
  refine Punishment.checkState_eq_ok.mpr
    ⟨h.consumed, h.distinct, h.valid, table, htable, fun l hl => ?_⟩
  unfold CarriesWeight
  cases h.carries l hl with
  | revoked hstatus hweight hepoch =>
    rw [if_pos hstatus]
    exact ⟨hweight, hepoch⟩
  | live hstatus hweight hbound hepoch =>
    rw [if_neg hstatus]
    refine ⟨UInt8.toNat_inj.mp ?_, hepoch⟩
    rw [hweight, weightOf_activeWeights htable, h.storedWeight_eq (List.Subset.refl _) hl]

theorem soundWeight (hsub : List.Sublist events s.offenseEvents)
    {table : List (HexText × UInt8)} (htable : activeWeights events = .ok table) :
    ∀ l ∈ s.licenses, SoundWeight table l := by
  intro l hl
  unfold SoundWeight
  cases h.carries l hl with
  | revoked hstatus hweight _ =>
    rw [if_pos hstatus]
    exact hweight
  | live hstatus hweight hbound _ =>
    rw [if_neg hstatus, UInt8.lt_iff_toNat_lt, weightOf_activeWeights htable]
    exact ((storedWeight_le events l.licenseIdText).trans (activeWeight_sublist hsub _)).trans_lt
      hbound

/-- Expiry never fails, whatever the epoch. -/
theorem expireEvents (epoch : UInt64) : ∃ s', Punishment.expireEvents s epoch = .ok s' := by
  have hsub : List.Sublist (liveEvents s.offenseEvents epoch) s.offenseEvents :=
    List.filter_sublist
  rcases h.exists_weights hsub with ⟨table, htable⟩
  exact ⟨_, expireEvents_eq_ok.mpr ⟨table, htable, h.soundWeight hsub htable, rfl⟩⟩

end PunishmentSound

/-- A licence of a state is revoked. -/
def RevokedIn (s : DevnetState) (id : Bytes32) : Prop :=
  ∃ l ∈ s.licenses, l.licenseId = id ∧ l.status = licenseStatusRevoked

/-! ## Scheduled transitions -/

theorem status_scheduled (epoch : UInt64) (weights : List (HexText × UInt8)) (l : LicenseState) :
    (scheduledLicense epoch weights l).status = licenseStatusRevoked ↔
      l.status = licenseStatusRevoked := by
  rcases scheduledLicense_cases epoch weights l with
    ⟨-, hsame⟩ | ⟨hrevoked, status, -, hlive, hsame⟩
  · rw [hsame]
  · rw [hsame]
    exact iff_of_false hlive hrevoked

variable {epoch : UInt64}

theorem Carries.scheduled {live : List OffenseEventState} {weights : List (HexText × UInt8)}
    {l : LicenseState} (h : Carries events l) (hsub : List.Sublist live events)
    (hweights : activeWeights live = .ok weights)
    (hstored : storedWeight live l.licenseIdText = activeWeight live l.licenseId) :
    Carries live (scheduledLicense epoch weights l) := by
  rcases scheduledLicense_cases epoch weights l with
    ⟨hrevoked, hsame⟩ | ⟨hrevoked, status, -, hlive, hsame⟩
  · rw [hsame]
    cases h with
    | revoked hstatus hweight hepoch => exact .revoked hstatus hweight hepoch
    | live hstatus _ _ _ => exact absurd hrevoked hstatus
  · rw [hsame]
    cases h with
    | revoked hstatus _ _ => exact absurd hstatus hrevoked
    | live _ _ hbound hepoch =>
      exact .live hlive ((weightOf_activeWeights hweights _).trans hstored)
        ((activeWeight_sublist hsub _).trans_lt hbound) hepoch

variable {s s' : DevnetState}

/-- Scheduled transitions and the move to their epoch keep the invariant and revoke no
licence. -/
theorem PunishmentSound.scheduled {t : DevnetState} (h : PunishmentSound s)
    (hs : applyScheduledLicenseTransitions s epoch = .ok s') (hlicenses : t.licenses = s'.licenses)
    (hevents : t.offenseEvents = s'.offenseEvents)
    (hconsumed : t.consumedEvidence = s.consumedEvidence) (htip : t.tipEpoch = epoch) :
    PunishmentSound t ∧ (∀ id, RevokedIn t id ↔ RevokedIn s id) ∧
      t.offenseEvents = liveEvents s.offenseEvents epoch := by
  rcases applyScheduledLicenseTransitions_parts hs with
    ⟨weights, reserved, hsettles, hlicenses', hevents', -⟩
  rw [hlicenses'] at hlicenses
  rw [hevents'] at hevents
  have hsub : List.Sublist t.offenseEvents s.offenseEvents := hevents ▸ List.filter_sublist
  refine ⟨?_, ?_, hevents⟩
  · constructor
    · rw [hlicenses, map_licenseId_scheduled]
      exact h.ids
    · exact hconsumed ▸ h.consumed
    · exact h.distinct.sublist (hsub.map _)
    · intro e he
      have hold := h.valid e (hsub.subset he)
      rw [hevents] at he
      refine ⟨hconsumed ▸ hold.consumed, hold.weight, hold.expiry, ?_, ?_⟩
      · rw [htip]
        exact of_decide_eq_true (List.mem_filter.mp he).2
      · rw [hlicenses, map_licenseIdText_scheduled]
        exact hold.known
    · exact fun id => (activeWeight_sublist hsub id).trans_lt (h.bounded id)
    · intro l hl
      rw [hlicenses] at hl
      rcases List.mem_map.mp hl with ⟨l, hmem, rfl⟩
      exact (h.carries l hmem).scheduled hsub (hevents ▸ hsettles.weighed)
        (h.storedWeight_eq hsub.subset hmem)
  · intro id
    rw [RevokedIn, hlicenses]
    constructor
    · rintro ⟨l', hl', hid, hrevoked⟩
      rcases List.mem_map.mp hl' with ⟨l, hmem, rfl⟩
      rw [scheduledLicense_frame] at hid
      exact ⟨l, hmem, hid, (status_scheduled epoch weights l).mp hrevoked⟩
    · rintro ⟨l, hmem, hid, hrevoked⟩
      refine ⟨_, List.mem_map_of_mem hmem, ?_, (status_scheduled epoch weights l).mpr hrevoked⟩
      rw [scheduledLicense_frame]
      exact hid

/-! ## Operations -/

/-- What punishment reads off a licence. -/
def LicenseState.standing (l : LicenseState) : HexText × UInt8 × UInt8 × UInt64 :=
  (l.licenseIdText, l.status, l.strikeWeight, l.revocationEpoch)

theorem Carries.of_standing {l l' : LicenseState} (h : Carries events l)
    (hsame : l'.standing = l.standing) : Carries events l' := by
  simp only [LicenseState.standing, Prod.mk.injEq] at hsame
  rcases hsame with ⟨htext, hstatus, hweight, hepoch⟩
  have hid : l'.licenseId = l.licenseId := congrArg HexText.bytes htext
  cases h with
  | revoked h₁ h₂ h₃ =>
    exact .revoked (hstatus.trans h₁) (hweight.trans h₂) (hepoch ▸ h₃)
  | live h₁ h₂ h₃ h₄ =>
    exact .live (hstatus ▸ h₁) (by rw [hweight, hid, h₂]) (by rw [hid]; exact h₃)
      (hepoch.trans h₄)

/-- A step that leaves the standing of all licences and the offences alone. -/
theorem PunishmentSound.of_same (h : PunishmentSound s)
    (hlicenses : s'.licenses.map (·.standing) = s.licenses.map (·.standing))
    (hevents : s'.offenseEvents = s.offenseEvents)
    (hconsumed : s'.consumedEvidence = s.consumedEvidence) (htip : s'.tipEpoch = s.tipEpoch) :
    PunishmentSound s' ∧ ∀ id, RevokedIn s' id ↔ RevokedIn s id := by
  have htexts : s'.licenses.map (·.licenseIdText) = s.licenses.map (·.licenseIdText) := by
    have hproj := congrArg (List.map Prod.fst) hlicenses
    rw [List.map_map, List.map_map] at hproj
    exact hproj
  have hids : s'.licenses.map (·.licenseId) = s.licenses.map (·.licenseId) := by
    rw [LicenseState.map_licenseId, htexts, ← LicenseState.map_licenseId]
  have hback : ∀ l' ∈ s'.licenses, ∃ l ∈ s.licenses, l'.standing = l.standing := by
    intro l' hl'
    have hmem := List.mem_map_of_mem (f := LicenseState.standing) hl'
    rw [hlicenses] at hmem
    rcases List.mem_map.mp hmem with ⟨l, hl, heq⟩
    exact ⟨l, hl, heq.symm⟩
  have hforth : ∀ l ∈ s.licenses, ∃ l' ∈ s'.licenses, l'.standing = l.standing := by
    intro l hl
    have hmem := List.mem_map_of_mem (f := LicenseState.standing) hl
    rw [← hlicenses] at hmem
    exact List.mem_map.mp hmem
  constructor
  · constructor
    · rw [hids]
      exact h.ids
    · rw [hconsumed]
      exact h.consumed
    · rw [hevents]
      exact h.distinct
    · intro e he
      rw [hevents] at he
      have hold := h.valid e he
      exact ⟨hconsumed ▸ hold.consumed, hold.weight, hold.expiry, htip ▸ hold.active,
        htexts ▸ hold.known⟩
    · rw [hevents]
      exact h.bounded
    · intro l' hl'
      rcases hback l' hl' with ⟨l, hl, hsame⟩
      rw [hevents]
      exact (h.carries l hl).of_standing hsame
  · intro id
    constructor
    · rintro ⟨l', hl', hid, hrevoked⟩
      rcases hback l' hl' with ⟨l, hl, hsame⟩
      simp only [LicenseState.standing, Prod.mk.injEq] at hsame
      exact ⟨l, hl, (congrArg HexText.bytes hsame.1).symm.trans hid, hsame.2.1 ▸ hrevoked⟩
    · rintro ⟨l, hl, hid, hrevoked⟩
      rcases hforth l hl with ⟨l', hl', hsame⟩
      simp only [LicenseState.standing, Prod.mk.injEq] at hsame
      exact ⟨l', hl', (congrArg HexText.bytes hsame.1).trans hid, hsame.2.1.trans hrevoked⟩

/-- A purchase: the new licences have no offences. -/
theorem PunishmentSound.issues (h : PunishmentSound s) (hissues : Issues s epoch s') :
    PunishmentSound s' ∧ ∀ id, RevokedIn s' id ↔ RevokedIn s id := by
  rcases hissues.result with ⟨issued, native, bitcoin, hissued, hnodup, hnew, rfl⟩
  have hlive : ∀ l ∈ issued, l.status ≠ licenseStatusRevoked := by
    intro l hl
    rw [(hissued l hl).status]
    decide
  constructor
  · constructor
    · rw [List.map_append, List.nodup_append']
      refine ⟨h.ids, hnodup, ?_⟩
      intro id hold hissuedId
      rcases List.mem_map.mp hissuedId with ⟨l, hl, rfl⟩
      exact hnew l hl hold
    · exact h.consumed
    · exact h.distinct
    · intro e he
      have hold := h.valid e he
      refine ⟨hold.consumed, hold.weight, hold.expiry, hold.active, ?_⟩
      rw [List.map_append]
      exact List.mem_append_left _ hold.known
    · exact h.bounded
    · intro l hl
      rcases List.mem_append.mp hl with hl | hl
      · exact h.carries l hl
      · have hzero : activeWeight s.offenseEvents l.licenseId = 0 := by
          apply activeWeight_eq_zero
          intro e he hid
          rcases List.mem_map.mp (h.valid e he).known with ⟨l', hl', htext⟩
          refine hnew l hl ?_
          rw [← hid, OffenseEventState.licenseId, ← htext]
          exact List.mem_map_of_mem hl'
        refine .live (hlive l hl) ?_ ?_ (hissued l hl).revocation
        · rw [(hissued l hl).strikes, hzero]
          rfl
        · rw [hzero]
          decide
  · intro id
    constructor
    · rintro ⟨l, hl, hid, hrevoked⟩
      rcases List.mem_append.mp hl with hl | hl
      · exact ⟨l, hl, hid, hrevoked⟩
      · exact absurd hrevoked (hlive l hl)
    · rintro ⟨l, hl, hid, hrevoked⟩
      exact ⟨l, List.mem_append_left _ hl, hid, hrevoked⟩

theorem offenseWeight_le {offenseType : UInt16} {weight : UInt8}
    (h : offenseWeight offenseType = .ok weight) : weight.toNat ≤ 4 := by
  unfold offenseWeight at h
  split at h
  · cases h
    decide
  · split at h
    · cases h
      decide
    · split at h
      · cases h
        decide
      · cases h

section Evidence

variable [Crypto] {s s' : DevnetState} {op : ProtocolOperationV1} {epoch : UInt64}
  {e : PunishmentEvidenceV1} {old : LicenseState} {event : OffenseEventState}
  {record : LicenseRecordV1}

/-- The offences after a piece of evidence. -/
theorem EvidenceStep.events_perm (h : EvidenceStep s op epoch e old event record s') :
    s'.offenseEvents.Perm (s.offenseEvents ++ [event]) := by
  rw [h.result]
  exact sortByKey_perm _ _

theorem EvidenceStep.activeWeight_eq (h : EvidenceStep s op epoch e old event record s')
    (id : Bytes32) :
    activeWeight s'.offenseEvents id = activeWeight s.offenseEvents id +
      if e.accusedLicenseId = id then event.weight.toNat else 0 := by
  have haccused : event.licenseId = e.accusedLicenseId := congrArg HexText.bytes h.accused
  rw [activeWeight_perm h.events_perm, activeWeight_append]
  congr 1
  by_cases hid : e.accusedLicenseId = id
  · simp [activeWeight, haccused, hid]
  · simp [activeWeight, haccused, hid]

section Step

variable (hs : PunishmentSound s) (h : EvidenceStep s op epoch e old event record s')

include hs h

/-- The licence that evidence punishes is not revoked and carries its weight. -/
theorem PunishmentSound.accused :
    old ∈ s.licenses ∧ old.licenseId = e.accusedLicenseId ∧
      old.strikeWeight.toNat = activeWeight s.offenseEvents e.accusedLicenseId ∧
      activeWeight s.offenseEvents e.accusedLicenseId < 16 ∧ old.revocationEpoch = 0 := by
  have hmem := List.mem_of_find?_eq_some h.found
  have hid : old.licenseId = e.accusedLicenseId := s.licenseId_of_findLicense h.found
  cases hs.carries old hmem with
  | revoked hstatus _ _ => exact absurd hstatus h.live
  | live _ hweight hbound hepoch =>
    rw [hid] at hweight hbound
    exact ⟨hmem, hid, hweight, hbound, hepoch⟩

/-- The registry after a piece of evidence: only the accused licence changes. -/
theorem PunishmentSound.licenses_evidence :
    s'.licenses = s.licenses.map fun l =>
      if l.licenseId = e.accusedLicenseId then setOffenseFields record l else l := by
  rcases hs.accused h with ⟨hmem, hold, -⟩
  have htext := s.text_of_findLicense h.found
  have hupdate := updateFirst_eq_map (k := .encode e.accusedLicenseId)
    (f := setOffenseFields record) (LicenseState.nodup_texts hs.ids)
  rw [h.result]
  refine hupdate.trans (List.map_congr_left fun l hl => ?_)
  have hiff : l.licenseIdText = .encode e.accusedLicenseId ↔ l.licenseId = e.accusedLicenseId := by
    refine ⟨congrArg HexText.bytes, fun hid => ?_⟩
    rw [List.inj_on_of_nodup_map hs.ids hl hmem (hid.trans hold.symm), htext]
  simp only [hiff]

/-- The accused licence after its punishment. -/
theorem PunishmentSound.carries_punished (hepoch : epoch ≠ 0) :
    Carries s'.offenseEvents (setOffenseFields record old) := by
  rcases hs.accused h with ⟨-, hid, hweight, -, hzero⟩
  have hsum := h.activeWeight_eq e.accusedLicenseId
  rw [if_pos rfl, ← hweight, ← hid] at hsum
  cases h.punished with
  | revoked _ hstatus hsixteen hrevocation _ =>
    exact .revoked hstatus hsixteen fun hzero => hepoch (hrevocation.symm.trans hzero)
  | suspended hsmall hstatus hnew hrevocation =>
    refine .live (fun hrevoked => h.live (hstatus ▸ hrevoked)) ?_ ?_ (hrevocation.trans hzero)
    · exact hnew.trans hsum.symm
    · exact lt_of_eq_of_lt hsum hsmall

theorem PunishmentSound.evidence (htip : s.tipEpoch = epoch)
    (hepoch : epoch ≠ 0) : PunishmentSound s' := by
  rcases hs.accused h with ⟨hmem, hid, -, hsmall, -⟩
  have hlicenses := hs.licenses_evidence h
  have htexts : s'.licenses.map (·.licenseIdText) = s.licenses.map (·.licenseIdText) := by
    rw [h.result]
    exact map_key_updateFirst (f := setOffenseFields record) (fun _ => rfl) s.licenses
  have hconsumed : s'.consumedEvidence.Perm (s.consumedEvidence ++ [e.evidenceId]) := by
    rw [h.result]
    exact sortByKey_perm _ _
  have hexpiry : event.expiryEpoch.toNat = epoch.toNat + strikeDecayEpochs.toNat :=
    UInt64.checkedAdd_eq_some.mp h.expiry
  constructor
  · rw [LicenseState.map_licenseId, htexts, ← LicenseState.map_licenseId]
    exact hs.ids
  · rw [hconsumed.nodup_iff, List.nodup_append_comm, List.singleton_append, List.nodup_cons]
    exact ⟨h.unconsumed, hs.consumed⟩
  · rw [(h.events_perm.map _).nodup_iff, List.map_append, List.map_singleton, h.identifier,
      List.nodup_append_comm, List.singleton_append, List.nodup_cons]
    refine ⟨fun hold => ?_, hs.distinct⟩
    rcases List.mem_map.mp hold with ⟨e', he', hsame⟩
    exact h.unconsumed (hsame ▸ (hs.valid e' he').consumed)
  · intro e' he'
    rcases List.mem_append.mp (h.events_perm.mem_iff.mp he') with hold | hnew
    · have hvalid := hs.valid e' hold
      refine ⟨hconsumed.mem_iff.mpr (List.mem_append_left _ hvalid.consumed), hvalid.weight,
        hvalid.expiry, ?_, htexts ▸ hvalid.known⟩
      rw [h.result]
      exact hvalid.active
    · rw [List.mem_singleton.mp hnew]
      refine ⟨?_, ?_, ?_, ?_, ?_⟩
      · rw [h.identifier, hconsumed.mem_iff]
        exact List.mem_append_right _ (List.mem_singleton.mpr rfl)
      · rw [h.offense]
        exact h.weight
      · rw [h.applied]
        exact hexpiry
      · have htip' : s'.tipEpoch = epoch := by rw [h.result, ← htip]
        have hpos : 0 < strikeDecayEpochs.toNat := by decide
        rw [htip', UInt64.lt_iff_toNat_lt]
        omega
      · rw [h.accused, htexts, ← s.text_of_findLicense h.found]
        exact List.mem_map_of_mem hmem
  · intro id
    rw [h.activeWeight_eq id]
    split
    next hsame =>
      have hle := offenseWeight_le h.weight
      subst hsame
      omega
    next => exact hs.bounded id
  · intro l' hl'
    rw [hlicenses] at hl'
    rcases List.mem_map.mp hl' with ⟨l, hl, rfl⟩
    by_cases hsame : l.licenseId = e.accusedLicenseId
    · have heq : l = old := List.inj_on_of_nodup_map hs.ids hl hmem (hsame.trans hid.symm)
      rw [if_pos hsame, heq]
      exact hs.carries_punished h hepoch
    · rw [if_neg hsame]
      have hweight := h.activeWeight_eq l.licenseId
      rw [if_neg (Ne.symm hsame), Nat.add_zero] at hweight
      cases hs.carries l hl with
      | revoked h₁ h₂ h₃ => exact .revoked h₁ h₂ h₃
      | live h₁ h₂ h₃ h₄ => exact .live h₁ (h₂.trans hweight.symm) (lt_of_eq_of_lt hweight h₃) h₄

/-- Evidence revokes the accused licence exactly when it brings the sum to sixteen. -/
theorem PunishmentSound.revoked_evidence :
    (∀ id, RevokedIn s id → RevokedIn s' id) ∧
      ∀ id, RevokedIn s' id → RevokedIn s id ∨ 16 ≤ activeWeight s'.offenseEvents id := by
  rcases hs.accused h with ⟨hmem, hid, hweight, -, -⟩
  have hlicenses := hs.licenses_evidence h
  constructor
  · rintro id ⟨l, hl, rfl, hrevoked⟩
    refine ⟨l, ?_, rfl, hrevoked⟩
    rw [hlicenses, List.mem_map]
    refine ⟨l, hl, if_neg ?_⟩
    intro hsame
    have heq : l = old := List.inj_on_of_nodup_map hs.ids hl hmem (hsame.trans hid.symm)
    exact h.live (heq ▸ hrevoked)
  · rintro id ⟨l', hl', rfl, hrevoked⟩
    rw [hlicenses] at hl'
    rcases List.mem_map.mp hl' with ⟨l, hl, rfl⟩
    by_cases hsame : l.licenseId = e.accusedLicenseId
    · right
      rw [if_pos hsame] at hrevoked ⊢
      have hsum := h.activeWeight_eq l.licenseId
      rw [if_pos hsame.symm, hsame, ← hweight] at hsum
      have hgoal : (setOffenseFields record l).licenseId = e.accusedLicenseId := hsame
      rw [hgoal, hsum]
      cases h.punished with
      | revoked hsixteen _ _ _ _ => exact hsixteen
      | suspended _ hstatus _ _ => exact absurd (hstatus.symm.trans hrevoked) h.live
    · rw [if_neg hsame] at hrevoked ⊢
      exact Or.inl ⟨l, hl, rfl, hrevoked⟩

end Step

/-- The offence a piece of evidence records at an epoch. -/
def offenseOf (epoch : UInt64) (op : ProtocolOperationV1) : Option OffenseEventState :=
  match decodePunishmentOperation op with
  | .error _ => none
  | .ok e =>
    some
      { evidenceId := e.evidenceId
        licenseIdText := .encode e.accusedLicenseId
        offenseType := e.offenseType
        weight := (offenseWeight e.offenseType).toOption.getD 0
        appliedEpoch := epoch
        expiryEpoch := epoch + strikeDecayEpochs }

/-- The licence an operation of its owner or its miner, or evidence, is about. -/
def targetLicense (op : ProtocolOperationV1) : Option Bytes32 :=
  if op.opType = opLicenseTransfer then
    (decodeLicenseTransferOperation op).toOption.map (·.licenseId)
  else if op.opType = opLicenseMiningKeyRotate then
    (decodeMiningKeyRotationOperation op).toOption.map (·.licenseId)
  else if op.opType = opMiningPresence then
    (Presence.decodeOperation op).toOption.map (·.licenseId)
  else if op.opType = opDividendClaim then
    (Dividends.decodeClaimOperation op).toOption.map (·.licenseId)
  else if op.opType = opPunishmentEvidence then
    (decodePunishmentOperation op).toOption.map (·.accusedLicenseId)
  else none

/-- What one operation of a block does to the standing of licences. -/
structure KeepsStanding (s : DevnetState) (added : List OffenseEventState) (s' : DevnetState) :
    Prop where
  sound : PunishmentSound s'
  tip : s'.tipEpoch = s.tipEpoch
  stays : ∀ id, RevokedIn s id → RevokedIn s' id
  only : ∀ id, RevokedIn s' id → RevokedIn s id ∨ 16 ≤ activeWeight s'.offenseEvents id
  events : s'.offenseEvents.Perm (s.offenseEvents ++ added)

omit [Crypto] in
theorem KeepsStanding.of_same (h : PunishmentSound s)
    (hlicenses : s'.licenses.map (·.standing) = s.licenses.map (·.standing))
    (hevents : s'.offenseEvents = s.offenseEvents)
    (hconsumed : s'.consumedEvidence = s.consumedEvidence) (htip : s'.tipEpoch = s.tipEpoch) :
    KeepsStanding s [] s' := by
  rcases h.of_same hlicenses hevents hconsumed htip with ⟨hsound, hrevoked⟩
  refine ⟨hsound, htip, fun id => (hrevoked id).mpr, fun id h => Or.inl ((hrevoked id).mp h), ?_⟩
  rw [hevents, List.append_nil]

theorem EvidenceStep.offenseOf_eq (h : EvidenceStep s op epoch e old event record s') :
    offenseOf epoch op = some event := by
  have hexpiry : epoch + strikeDecayEpochs = event.expiryEpoch := by
    apply UInt64.toNat_inj.mp
    have hnat := UInt64.checkedAdd_eq_some.mp h.expiry
    have hlt := event.expiryEpoch.toNat_lt
    rw [UInt64.toNat_add, hnat, Nat.mod_eq_of_lt (hnat ▸ hlt)]
  rw [offenseOf, h.operation]
  cases event with
  | mk evidenceId licenseIdText offenseType weight appliedEpoch expiryEpoch =>
    have h₁ := h.identifier
    have h₂ := h.accused
    have h₃ := h.offense
    have h₄ := h.applied
    have h₅ := h.weight
    dsimp only at h₁ h₂ h₃ h₄ h₅ hexpiry
    simp only [h₁, h₂, h₃, h₄, h₅, hexpiry, Except.toOption, Option.getD_some]

theorem offenseOf_eq_none (h : op.opType ≠ opPunishmentEvidence) : offenseOf epoch op = none := by
  unfold offenseOf
  cases hdecode : decodePunishmentOperation op with
  | error e => rfl
  | ok e => exact absurd (opType_of_evidence hdecode) h

omit [Crypto] in
theorem PunishmentSound.not_revoked (h : PunishmentSound s) {id : Bytes32} {l : LicenseState}
    (hl : s.findLicense id = some l) (hlive : l.status ≠ licenseStatusRevoked) :
    ¬ RevokedIn s id := by
  rintro ⟨l', hl', hid, hrevoked⟩
  have hid' : l.licenseId = id := s.licenseId_of_findLicense hl
  have heq : l' = l :=
    List.inj_on_of_nodup_map h.ids hl' (List.mem_of_find?_eq_some hl) (hid.trans hid'.symm)
  exact hlive (heq ▸ hrevoked)

variable {txs : List TransactionV1}

/-- Every operation of a block keeps the invariant, records the offence it proves, and is
not about a revoked licence. -/
theorem PunishmentSound.operation (hs : PunishmentSound s) (h : OperationStep txs epoch s op s')
    (htip : s.tipEpoch = epoch) (hepoch : epoch ≠ 0) :
    KeepsStanding s (offenseOf epoch op).toList s' ∧
      (op.opType ≠ opMiningPresence → ∀ id, targetLicense op = some id → ¬ RevokedIn s id) := by
  cases h with
  | headers htype h =>
    rcases licenses_headers h with ⟨headers, best, rfl⟩
    rw [offenseOf_eq_none (by rw [htype]; decide)]
    refine ⟨.of_same hs rfl rfl rfl rfl, fun _ id htarget => ?_⟩
    rw [targetLicense, htype] at htarget
    cases htarget
  | purchase htype h =>
    have hpunish : op.opType ≠ opPunishmentEvidence := by
      rcases htype with h | h <;> rw [h] <;> decide
    rcases hs.issues h with ⟨hsound, hrevoked⟩
    rcases h.result with ⟨issued, native, bitcoin, -, -, -, rfl⟩
    rw [offenseOf_eq_none hpunish]
    refine ⟨⟨hsound, rfl, fun id => (hrevoked id).mpr, fun id h => Or.inl ((hrevoked id).mp h),
      by simp⟩, fun _ id htarget => ?_⟩
    rcases htype with htype | htype <;>
    · rw [targetLicense, htype] at htarget
      cases htarget
  | transfer t old new h =>
    have htype : op.opType = opLicenseTransfer := by rw [h.operation]; rfl
    rw [offenseOf_eq_none (by rw [htype]; decide)]
    refine ⟨?_, fun _ id htarget => ?_⟩
    · rw [h.result]
      exact .of_same hs (map_key_updateFirst (f := (·.withKeys new)) (fun _ => rfl) s.licenses)
        rfl rfl rfl
    · rw [targetLicense, if_pos htype, decodeLicenseTransferOperation_eq_ok.mpr h.operation]
        at htarget
      cases htarget
      exact hs.not_revoked h.found h.live
  | rotation r old new h =>
    have htype : op.opType = opLicenseMiningKeyRotate := by rw [h.operation]; rfl
    rw [offenseOf_eq_none (by rw [htype]; decide)]
    refine ⟨?_, fun _ id htarget => ?_⟩
    · rw [h.result]
      exact .of_same hs (map_key_updateFirst (f := (·.withKeys new)) (fun _ => rfl) s.licenses)
        rfl rfl rfl
    · rw [targetLicense, if_neg (by rw [htype]; decide), if_pos htype,
        decodeMiningKeyRotationOperation_eq_ok.mpr h.operation] at htarget
      cases htarget
      exact hs.not_revoked h.found h.live
  | evidence e old event record h =>
    have htype := opType_of_evidence h.operation
    rcases hs.revoked_evidence h with ⟨hstays, honly⟩
    refine ⟨⟨hs.evidence h htip hepoch, by rw [h.result], hstays, honly, ?_⟩,
      fun _ id htarget => ?_⟩
    · rw [h.offenseOf_eq]
      exact h.events_perm
    · rw [targetLicense, if_neg (by rw [htype]; decide), if_neg (by rw [htype]; decide),
        if_neg (by rw [htype]; decide), if_neg (by rw [htype]; decide), if_pos htype,
        h.operation] at htarget
      cases htarget
      exact hs.not_revoked h.found h.live
  | claim c license account reserved h =>
    have htype := opType_of_claim h.operation
    rw [offenseOf_eq_none (by rw [htype]; decide)]
    refine ⟨by rw [h.result]; exact .of_same hs rfl rfl rfl rfl, fun _ id htarget => ?_⟩
    rw [targetLicense, if_neg (by rw [htype]; decide), if_neg (by rw [htype]; decide),
      if_neg (by rw [htype]; decide), if_pos htype, h.operation] at htarget
    cases htarget
    exact hs.not_revoked h.found h.live
  | presence htype h =>
    rcases presence_eq_ok h with ⟨presences, rfl⟩
    rw [offenseOf_eq_none (by rw [htype]; decide)]
    exact ⟨.of_same hs rfl rfl rfl rfl, fun hother => absurd htype hother⟩

variable {ops : List ProtocolOperationV1}

/-- A block that presence operations pass: none is about a licence that is revoked. -/
theorem PunishmentSound.presences (hs : PunishmentSound s)
    (h : Presence.prevalidateBlockOperations s ops epoch = .ok ()) :
    ∀ op ∈ ops, op.opType = opMiningPresence → ∀ id, targetLicense op = some id →
      ¬ RevokedIn s id := by
  simp only [Presence.prevalidateBlockOperations, bind_eq_ok] at h
  rcases h with ⟨authority, -, last, hloop, -⟩
  generalize ([] : List Bytes32) = seen at hloop
  induction ops generalizing seen with
  | nil => exact fun op hop => absurd hop List.not_mem_nil
  | cons op ops ih =>
    rw [List.foldlM_cons, bind_eq_ok] at hloop
    rcases hloop with ⟨seen₁, hfirst, hrest⟩
    intro op' hop' htype id htarget
    rcases List.mem_cons.mp hop' with rfl | hop'
    · rw [Presence.prevalidatePresence, if_neg (not_not.mpr htype)] at hfirst
      simp only [Presence.validateOperationAgainstParent, MiningPresenceV1.verifyAgainst,
        ok_rules] at hfirst
      rcases hfirst with ⟨p, ⟨p', hp, license, hlicense, _, ⟨_, -, _, -, _, -, _, -, _, hlive, -⟩,
        hsame⟩, -⟩
      rw [targetLicense, if_neg (by rw [htype]; decide), if_neg (by rw [htype]; decide),
        if_pos htype, hp] at htarget
      cases htarget
      exact hs.not_revoked hlicense hlive
    · exact ih seen₁ hrest op' hop' htype id htarget

omit [Crypto] in
theorem KeepsStanding.trans {s₁ : DevnetState} {xs ys : List OffenseEventState}
    (h : KeepsStanding s xs s₁) (h' : KeepsStanding s₁ ys s') :
    KeepsStanding s (xs ++ ys) s' where
  sound := h'.sound
  tip := h'.tip.trans h.tip
  stays := fun id hid => h'.stays id (h.stays id hid)
  only := by
    intro id hid
    rcases h'.only id hid with hid | hweight
    · rcases h.only id hid with hid | hweight
      · exact Or.inl hid
      · right
        rw [activeWeight_perm h'.events, activeWeight_append]
        omega
    · exact Or.inr hweight
  events := by
    rw [← List.append_assoc]
    exact h'.events.trans (h.events.append_right ys)

/-- The operations of a block, one after the other. -/
theorem PunishmentSound.operations (hs : PunishmentSound s) (h : OperationSteps txs epoch s ops s')
    (htip : s.tipEpoch = epoch) (hepoch : epoch ≠ 0) :
    KeepsStanding s (ops.filterMap (offenseOf epoch)) s' ∧
      ∀ op ∈ ops, op.opType ≠ opMiningPresence → ∀ id, targetLicense op = some id →
        ¬ RevokedIn s id := by
  induction h with
  | nil s =>
    exact ⟨.of_same hs rfl rfl rfl rfl, fun op hop => absurd hop List.not_mem_nil⟩
  | @cons s s₁ s' op ops head _ ih =>
    rcases hs.operation head htip hepoch with ⟨hfirst, htarget⟩
    rcases ih hfirst.sound (hfirst.tip.trans htip) with ⟨hrest, htargets⟩
    have hsplit : (op :: ops).filterMap (offenseOf epoch) =
        (offenseOf epoch op).toList ++ ops.filterMap (offenseOf epoch) := by
      cases hoffense : offenseOf epoch op with
      | none => rw [List.filterMap_cons_none hoffense]; rfl
      | some e => rw [List.filterMap_cons_some hoffense]; rfl
    rw [hsplit]
    refine ⟨hfirst.trans hrest, fun op' hop' htype id hid => ?_⟩
    rcases List.mem_cons.mp hop' with rfl | hop'
    · exact htarget htype id hid
    · exact fun hrevoked => htargets op' hop' htype id hid (hfirst.stays id hrevoked)

end Evidence

/-! ## Empty epochs -/

theorem PunishmentSound.liveEvents_eq (h : PunishmentSound s) :
    liveEvents s.offenseEvents s.tipEpoch = s.offenseEvents := by
  rw [liveEvents, List.filter_eq_self]
  exact fun e he => decide_eq_true (h.valid e he).active

/-- Expiry up to an epoch, and nothing else. -/
structure Expires (s : DevnetState) (epoch : UInt64) (s' : DevnetState) : Prop where
  sound : PunishmentSound s'
  tip : s'.tipEpoch = epoch
  revoked : ∀ id, RevokedIn s' id ↔ RevokedIn s id
  events : s'.offenseEvents = liveEvents s.offenseEvents epoch

theorem Expires.trans {s₁ : DevnetState} {epoch' : UInt64} (h : Expires s epoch s₁)
    (h' : Expires s₁ epoch' s') (hle : epoch ≤ epoch') : Expires s epoch' s' where
  sound := h'.sound
  tip := h'.tip
  revoked := fun id => (h'.revoked id).trans (h.revoked id)
  events := by rw [h'.events, h.events, liveEvents_liveEvents hle]

theorem PunishmentSound.emptyEpoch (hs : PunishmentSound s) (h : Mutiny.emptyEpoch s = .ok s') :
    Expires s (s.tipEpoch + 1) s' := by
  rcases emptyEpoch_scheduled h with ⟨s₂, hscheduled, hresult⟩
  have hconsumed : s'.consumedEvidence = s.consumedEvidence := by
    rw [(emptyEpoch_frame h).1]
    rfl
  have htip := (emptyEpoch_frame h).2
  rcases hs.scheduled hscheduled (t := s') (by rw [hresult]; rfl) (by rw [hresult]; rfl) hconsumed
    htip with ⟨hsound, hrevoked, hevents⟩
  exact ⟨hsound, htip, hrevoked, hevents⟩

/-- Expiry up to the tip, epoch after epoch. -/
theorem Expires.emptyEpoch {s₁ : DevnetState} (h : Expires s s₁.tipEpoch s₁)
    (htip : s'.tipEpoch.toNat = s₁.tipEpoch.toNat + 1) (hepoch : Mutiny.emptyEpoch s₁ = .ok s') :
    Expires s s'.tipEpoch s' := by
  have hone := h.sound.emptyEpoch hepoch
  have hlast : Expires s₁ s'.tipEpoch s' := hone.tip.symm ▸ hone
  refine h.trans hlast ?_
  rw [UInt64.le_iff_toNat_le]
  omega

theorem PunishmentSound.emptyEpochs {n : Nat} (hs : PunishmentSound s)
    (h : Mutiny.emptyEpochs n s = .ok s') (hn : s.tipEpoch.toNat + n < 2 ^ 64) :
    Expires s s'.tipEpoch s' :=
  (emptyEpochs_invariant (P := fun t => Expires s t.tipEpoch t)
    (fun _ _ ht htip hepoch => ht.emptyEpoch htip hepoch)
    ⟨hs, rfl, fun _ => Iff.rfl, hs.liveEvents_eq.symm⟩ hn h).1

section Blocks

variable [Crypto] {s s' : DevnetState}

theorem PunishmentSound.advanceEmptyEpochs {throughEpoch : UInt64} (hs : PunishmentSound s)
    (h : Mutiny.advanceEmptyEpochs s throughEpoch = .ok s') :
    Expires s s'.tipEpoch s' := by
  refine (advanceEmptyEpochs_invariant (P := fun t => Expires s t.tipEpoch t)
    (fun _ _ ht htip hepoch => ht.emptyEpoch htip hepoch) ?_
    ⟨hs, rfl, fun _ => Iff.rfl, hs.liveEvents_eq.symm⟩ h).1
  intro t root ht
  let rooted := { t with currentStateRoot := root }
  have hsame : PunishmentSound rooted ∧ ∀ id, RevokedIn rooted id ↔ RevokedIn t id :=
    ht.sound.of_same rfl rfl rfl rfl
  rcases hsame with ⟨hsound, hrevoked⟩
  exact ⟨hsound, rfl, fun id => (hrevoked id).trans (ht.revoked id), ht.events⟩

variable {next : DevnetState}

/-- The state that the operations of a block start from. -/
theorem PunishmentSound.advanceToBlock {epoch : UInt64} (hs : PunishmentSound s)
    (h : Mutiny.advanceToBlock s epoch = .ok next) :
    Expires s epoch { next with tipEpoch := epoch } := by
  rcases advanceToBlock_parts h with ⟨throughEpoch, s₁, hbefore, hthrough, hscheduled⟩
  have hfirst := hs.advanceEmptyEpochs hbefore
  have hconsumed : next.consumedEvidence = s₁.consumedEvidence := by
    rw [applyScheduledLicenseTransitions_frame hscheduled]
    rfl
  rcases hfirst.sound.scheduled hscheduled (t := { next with tipEpoch := epoch }) rfl rfl hconsumed
    rfl with ⟨hsound, hrevoked, hevents⟩
  have hlast : Expires s₁ epoch { next with tipEpoch := epoch } := ⟨hsound, rfl, hrevoked, hevents⟩
  -- before the first block the tip may already be past the epoch
  by_cases hle : throughEpoch ≤ s.tipEpoch
  · rw [Mutiny.advanceEmptyEpochs, if_pos hle, Except.ok.injEq] at hbefore
    rw [hbefore]
    exact hlast
  · refine hfirst.trans hlast ?_
    have htip := (advanceEmptyEpochs_frame hbefore).2
    rw [UInt64.le_iff_toNat_le] at hle ⊢
    omega

/-- What an accepted block does to the standing of licences. -/
structure BlockStanding (s : DevnetState) (epoch : UInt64) (operations : List ProtocolOperationV1)
    (s' : DevnetState) : Prop where
  events : s'.offenseEvents.Perm
    (liveEvents s.offenseEvents epoch ++ operations.filterMap (offenseOf epoch))
  revoked : ∀ id, RevokedIn s' id ↔ RevokedIn s id ∨ 16 ≤ activeWeight s'.offenseEvents id
  untouched : ∀ op ∈ operations, ∀ id, targetLicense op = some id → ¬ RevokedIn s id

omit [Crypto] in
/-- A licence with sixteen is revoked. -/
theorem PunishmentSound.revoked_of_weight (hs : PunishmentSound s) {id : Bytes32}
    (h : 16 ≤ activeWeight s.offenseEvents id) : RevokedIn s id := by
  by_cases hnone : ∀ e ∈ s.offenseEvents, e.licenseId ≠ id
  · rw [activeWeight_eq_zero hnone] at h
    omega
  · push Not at hnone
    rcases hnone with ⟨e, he, rfl⟩
    rcases List.mem_map.mp (hs.valid e he).known with ⟨l, hl, htext⟩
    have hid : l.licenseId = e.licenseId := congrArg HexText.bytes htext
    cases hs.carries l hl with
    | revoked hstatus _ _ => exact ⟨l, hl, hid, hstatus⟩
    | live _ _ hbound _ =>
      rw [hid] at hbound
      omega

variable {header : HeaderV1}

theorem PunishmentSound.acceptedBlock {coinbase : TransactionV1} {ordinary : List TransactionV1}
    {operations : List ProtocolOperationV1} {license : LicenseState} {b : BodyValues}
    (hs : PunishmentSound s)
    (hb : AcceptedBlock s header coinbase ordinary operations next license b) :
    PunishmentSound (b.result next header coinbase ordinary operations) ∧
      BlockStanding s header.core.epoch operations
        (b.result next header coinbase ordinary operations) := by
  have hepoch : header.core.epoch ≠ 0 := by
    rcases epoch_of_checkHeaderPlace hb.place with ⟨hascends, hactivated⟩
    intro hzero
    rw [hzero, UInt64.toNat_zero] at hascends hactivated
    by_cases hheight : s.height = 0
    · exact absurd (hactivated hheight) (by decide)
    · exact Nat.not_lt_zero _ (hascends hheight)
  have hparent := hs.advanceToBlock hb.advanced
  rcases applyProtocolOperations_steps hb.body.applied with ⟨hpresence, s₁, hsteps, hpost⟩
  rcases hparent.sound.operations hsteps rfl hepoch with ⟨hkeeps, htargets⟩
  have hpresences := hparent.sound.presences hpresence
  have hcommit : KeepsStanding s₁ []
      (b.result next header coinbase ordinary operations) := .of_same hkeeps.sound
    (by rw [BodyValues.result, hpost]; rfl) (by rw [BodyValues.result, hpost]; rfl)
    (by rw [BodyValues.result, hpost]; rfl) hkeeps.tip.symm
  have hall := hkeeps.trans hcommit
  rw [List.append_nil] at hall
  refine ⟨hall.sound, ?_, fun id => ⟨fun hid => ?_, ?_⟩, fun op hop id hid hrevoked => ?_⟩
  · have hevents := hall.events
    rw [hparent.events] at hevents
    exact hevents
  · exact (hall.only id hid).imp_left (hparent.revoked id).mp
  · rintro (hid | hweight)
    · exact hall.stays id ((hparent.revoked id).mpr hid)
    · exact hall.sound.revoked_of_weight hweight
  · have hrevoked' := (hparent.revoked id).mpr hrevoked
    by_cases htype : op.opType = opMiningPresence
    · exact hpresences op hop htype id hid hrevoked'
    · exact htargets op hop htype id hid hrevoked'

/-! ## The bootstrap block -/

variable {txs : List TransactionV1}

/-- The bootstrap block registers licences without offences. -/
theorem PunishmentSound.bootstrap {operations : List ProtocolOperationV1} (hs : PunishmentSound s)
    (hdistinct : BootstrapIdsDistinct) (hboot : isBootstrapBlock s operations = true)
    (h : validateAndApplyDevnetBlock1 s header txs operations = .ok s') :
    PunishmentSound s' ∧ BlockStanding s header.core.epoch operations s' := by
  rcases bootstrapStep_of_ok h with ⟨fixture, hstep⟩
  have hevents := hstep.offenses
  have hlicenses := hstep.licenses'
  have hnone : s.offenseEvents = [] := by
    rw [List.eq_nil_iff_forall_not_mem]
    intro e he
    have hknown := (hs.valid e he).known
    rw [hstep.licenses] at hknown
    exact absurd hknown List.not_mem_nil
  rw [hnone] at hevents
  have hweight : ∀ id, activeWeight s'.offenseEvents id = 0 := fun id => by
    rw [hevents]
    rfl
  have hissued : ∀ l ∈ s'.licenses, l.status = licenseStatusPending ∧ l.strikeWeight = 0 ∧
      l.revocationEpoch = 0 := by
    intro l hl
    rw [hlicenses] at hl
    rcases List.mem_map.mp hl with ⟨entry, -, rfl⟩
    exact ⟨rfl, rfl, rfl⟩
  have hlive : ∀ l ∈ s'.licenses, l.status ≠ licenseStatusRevoked := by
    intro l hl
    rw [(hissued l hl).1]
    decide
  have htypes := operations_of_isBootstrapBlock hboot
  refine ⟨⟨?_, hstep.evidence ▸ hs.consumed, ?_, ?_, ?_, ?_⟩, ?_, ?_, ?_⟩
  · rw [hlicenses]
    exact nodup_bootstrapLicenses (hdistinct s fixture hstep.built)
  · rw [hevents]
    exact List.nodup_nil
  · intro e he
    rw [hevents] at he
    exact absurd he List.not_mem_nil
  · intro id
    rw [hweight]
    decide
  · intro l hl
    rcases hissued l hl with ⟨-, hzero, hrevocation⟩
    refine .live (hlive l hl) ?_ ?_ hrevocation
    · rw [hzero, hweight]
      rfl
    · rw [hweight]
      decide
  · have hoffenses : operations.filterMap (offenseOf header.core.epoch) = [] := by
      rw [List.filterMap_eq_nil_iff]
      intro op hop
      apply offenseOf_eq_none
      rw [htypes op hop]
      decide
    rw [hoffenses, hnone, hevents]
    rfl
  · intro id
    rw [hweight]
    refine iff_of_false ?_ ?_
    · rintro ⟨l, hl, -, hrevoked⟩
      exact hlive l hl hrevoked
    · rintro (⟨l, hl, -⟩ | hsixteen)
      · rw [hstep.licenses] at hl
        exact absurd hl List.not_mem_nil
      · omega
  · rintro op - id - ⟨l, hl, -⟩
    rw [hstep.licenses] at hl
    exact absurd hl List.not_mem_nil

/-! ## Chains -/

/-- A block keeps the invariant. -/
theorem PunishmentSound.block {operations : List ProtocolOperationV1} (hs : PunishmentSound s)
    (hdistinct : BootstrapIdsDistinct) (h : validateAndApplyBlock s header txs operations = .ok s')
    :
    PunishmentSound s' ∧ BlockStanding s header.core.epoch operations s' := by
  rcases validateAndApplyBlock_cases h with
    ⟨hboot, hfirst⟩ | ⟨-, coinbase, ordinary, next, license, b, rfl, hb, rfl⟩
  · exact hs.bootstrap hdistinct hboot hfirst
  · exact hs.acceptedBlock hb

/-- A chain keeps the invariant, and its revocations. -/
theorem PunishmentSound.run (hs : PunishmentSound s) (hdistinct : BootstrapIdsDistinct)
    (h : ChainRun s s') :
    PunishmentSound s' ∧ ∀ id, RevokedIn s id → RevokedIn s' id := by
  induction h with
  | refl => exact ⟨hs, fun id hid => hid⟩
  | tail _ hstep ih =>
    rcases ih with ⟨hsound, hkept⟩
    cases hstep with
    | block h =>
      rcases hsound.block hdistinct h with ⟨hsound', hblock⟩
      exact ⟨hsound', fun id hid => (hblock.revoked id).mpr (Or.inl (hkept id hid))⟩
    | empty h =>
      have hexpires := hsound.advanceEmptyEpochs h
      exact ⟨hexpires.sound, fun id hid => (hexpires.revoked id).mpr (hkept id hid)⟩

omit [Crypto] in
/-- A state that passes the check and has no offences. -/
theorem PunishmentSound.start (hcheck : Punishment.checkState s = .ok ())
    (hnone : s.offenseEvents = []) (hids : (s.licenses.map (·.licenseId)).Nodup) :
    PunishmentSound s := by
  rcases Punishment.checkState_eq_ok.mp hcheck with
    ⟨hconsumed, hdistinct, hvalid, table, htable, hcarries⟩
  have hzero : ∀ id, activeWeight s.offenseEvents id = 0 := fun id => by
    rw [hnone]
    rfl
  refine ⟨hids, hconsumed, hdistinct, hvalid, fun id => by rw [hzero]; decide, fun l hl => ?_⟩
  have hl := hcarries l hl
  unfold CarriesWeight at hl
  by_cases hrevoked : l.status = licenseStatusRevoked
  · rw [if_pos hrevoked] at hl
    exact .revoked hrevoked hl.1 hl.2
  · rw [if_neg hrevoked] at hl
    refine .live hrevoked ?_ ?_ hl.2
    · rw [hl.1, weightOf_activeWeights htable, hnone]
      rfl
    · rw [hzero]
      decide

omit [Crypto] in
/-- A revoked licence stands at sixteen and mines at no epoch. -/
theorem PunishmentSound.of_revoked (hs : PunishmentSound s) {id : Bytes32} (h : RevokedIn s id) :
    ∃ l, Keyed.lookup (·.licenseId) id s.licenses = some l ∧ l.status = licenseStatusRevoked ∧
      l.strikeWeight = 16 ∧ ∀ epoch, l.isEligible epoch = false := by
  rcases h with ⟨l, hl, rfl, hrevoked⟩
  refine ⟨l, Keyed.lookup_of_mem hs.ids hl, hrevoked, ?_, fun epoch => ?_⟩
  · cases hs.carries l hl with
    | revoked _ hweight _ => exact hweight
    | live hlive _ _ _ => exact absurd hrevoked hlive
  · have hactive : (l.status == licenseStatusActive) = false := by
      rw [hrevoked]
      decide
    rw [LicenseState.isEligible, hactive, Bool.false_and, Bool.false_and, Bool.false_and]

/-- Accounting of offences over whole chains.  From a state that passes the check without
offences and whose licences have different identifiers, the check passes and expiry
succeeds at every point; a licence that is not revoked carries the sum of the weights of
its unexpired offences; the block whose evidence brings that sum to sixteen revokes it; and
from then on nothing is about it any more. -/
theorem punishment_accounting {s₀ s : DevnetState} (hdistinct : BootstrapIdsDistinct)
    (hcheck : Punishment.checkState s₀ = .ok ()) (hnone : s₀.offenseEvents = [])
    (hids : (s₀.licenses.map (·.licenseId)).Nodup) (hrun : ChainRun s₀ s) :
    Punishment.checkState s = .ok () ∧
      (∀ n s₁, Mutiny.emptyEpochs n s = .ok s₁ → s.tipEpoch.toNat + n < 2 ^ 64 →
        ∀ epoch, ∃ s₂, Punishment.expireEvents s₁ epoch = .ok s₂) ∧
      (∀ l ∈ s.licenses, l.status ≠ licenseStatusRevoked →
        l.strikeWeight.toNat = activeWeight s.offenseEvents l.licenseId ∧ l.strikeWeight < 16) ∧
      (∀ header txs operations s', validateAndApplyBlock s header txs operations = .ok s' →
        s'.offenseEvents.Perm (liveEvents s.offenseEvents header.core.epoch ++
          operations.filterMap (offenseOf header.core.epoch)) ∧
        ∀ id, RevokedIn s' id ↔ RevokedIn s id ∨ 16 ≤ activeWeight s'.offenseEvents id) ∧
      (∀ throughEpoch s', Mutiny.advanceEmptyEpochs s throughEpoch = .ok s' →
        s'.offenseEvents = liveEvents s.offenseEvents s'.tipEpoch ∧
        ∀ id, RevokedIn s' id ↔ RevokedIn s id) ∧
      ∀ id, RevokedIn s id → ∀ s', ChainRun s s' →
        (∃ l, Keyed.lookup (·.licenseId) id s'.licenses = some l ∧
          l.status = licenseStatusRevoked ∧ l.strikeWeight = 16 ∧
          ∀ epoch, l.isEligible epoch = false) ∧
        ∀ header txs operations s'', validateAndApplyBlock s' header txs operations = .ok s'' →
          ∀ op ∈ operations, targetLicense op ≠ some id := by
  have hsound := ((PunishmentSound.start hcheck hnone hids).run hdistinct hrun).1
  refine ⟨hsound.checkState, ?_, ?_, ?_, ?_, ?_⟩
  · intro n s₁ hepochs hn epoch
    exact (hsound.emptyEpochs hepochs hn).sound.expireEvents epoch
  · intro l hl hlive
    cases hsound.carries l hl with
    | revoked hrevoked _ _ => exact absurd hrevoked hlive
    | live _ hweight hbound _ =>
      exact ⟨hweight, UInt8.lt_iff_toNat_lt.mpr (hweight ▸ hbound)⟩
  · intro header txs operations s' hblock
    rcases hsound.block hdistinct hblock with ⟨-, hstanding⟩
    exact ⟨hstanding.events, hstanding.revoked⟩
  · intro throughEpoch s' hempty
    have hexpires := hsound.advanceEmptyEpochs hempty
    exact ⟨hexpires.events, hexpires.revoked⟩
  · intro id hid s' hlater
    rcases hsound.run hdistinct hlater with ⟨hsound', hkept⟩
    refine ⟨hsound'.of_revoked (hkept id hid), ?_⟩
    intro header txs operations s'' hblock op hop htarget
    exact (hsound'.block hdistinct hblock).2.untouched op hop id htarget (hkept id hid)

theorem ChainTrace.chainRun {s₀ : DevnetState} {visited : List DevnetState}
    {ops : List ProtocolOperationV1} (h : ChainTrace s₀ visited ops s) : ChainRun s₀ s := by
  induction h with
  | start => exact .refl
  | empty _ hempty ih => exact ih.tail (.empty hempty)
  | block _ hblock ih => exact ih.tail (.block hblock)

/-- A bootstrapped Devnet state in which the first licence is registered twice, and the
state after a block with evidence against it. -/
def doubledChain : Except String (DevnetState × DevnetState) := do
  let (_, s) ← devnetBootstrapped
  let l ← okOr s.licenses.head? "no licence"
  let doubled := { s with licenses := l :: s.licenses }
  let (_, s') ← receiveMined doubled []
    [(invalidWorkEvidence l.licenseId 0 (invalidHeader s l)).operation]
  .ok (doubled, s')

end Blocks

section Evaluation

attribute [local instance] devnetCrypto

/-- A chain on which one licence is punished twice. -/
theorem punishment_accounting_accused :
    ∃ s₀ s : DevnetState, BootstrapIdsDistinct ∧ Punishment.checkState s₀ = .ok () ∧
      s₀.offenseEvents = [] ∧ (s₀.licenses.map (·.licenseId)).Nodup ∧ ChainRun s₀ s ∧
      (∃ l ∈ s.licenses, l.strikeWeight = 2) ∧ Punishment.checkState s = .ok () := by
  rcases accusedChain_trace with
    ⟨genesis, s, header, id, visited, ops, -, ⟨hcheck, hnone, hempty⟩, -, hstruck, -, htrace⟩
  have hids : (genesis.licenses.map (·.licenseId)).Nodup := by
    rw [hempty]
    exact List.nodup_nil
  exact ⟨genesis, s, bootstrapIdsDistinct_devnetCrypto, hcheck, hnone, hids, htrace.chainRun,
    hstruck, (punishment_accounting bootstrapIdsDistinct_devnetCrypto hcheck hnone hids
      htrace.chainRun).1⟩

/-- Evidence against a licence that is registered twice changes one of the entries, and
the check fails from then on. -/
theorem doubled_licence_fails_check :
    ∃ s₀ s : DevnetState, Punishment.checkState s₀ = .ok () ∧ s₀.offenseEvents = [] ∧
      ChainRun s₀ s ∧ Punishment.checkState s ≠ .ok () := by
  have hcheck : okAnd doubledChain (fun r =>
      (okAnd (Punishment.checkState r.1) fun _ => true) && r.1.offenseEvents == [] &&
        !okAnd (Punishment.checkState r.2) fun _ => true) = true := by
    decide +kernel
  rcases exists_of_okAnd hcheck with ⟨⟨doubled, s'⟩, hrun, htest⟩
  simp only [Bool.and_eq_true, Bool.not_eq_true', beq_iff_eq] at htest
  rcases htest with ⟨⟨hstart, hnone⟩, hfails⟩
  rcases exists_of_okAnd hstart with ⟨_, hstart, -⟩
  simp only [doubledChain, ok_rules, Prod.mk.injEq] at hrun
  rcases hrun with ⟨⟨_, s⟩, -, l, -, ⟨ops, s'⟩, hmined, rfl, rfl⟩
  rcases ChainTrace.start.receiveMined hmined with ⟨visited, trace⟩
  refine ⟨_, _, hstart, hnone, trace.chainRun, fun hok => ?_⟩
  dsimp only at hfails
  rw [hok] at hfails
  cases hfails

end Evaluation

end Mutiny
