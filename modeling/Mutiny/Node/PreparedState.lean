import Mutiny.Node.WorkerMining
import Mutiny.Node.CheckedEpochs
import Mutiny.Node.RootBinding

/-!
# Whether a prepared state can be loaded again

A node stores the state that preparing a ticket leaves, with the transitions of the
candidate epoch applied but the old root.  It passes the state check exactly when
those transitions changed nothing that the root covers.

Main results:

- Theorem {lit}`prepareCanonicalTicket_loadable`: the prepared state passes the check in a
  quiet epoch only.
- Theorem {lit}`prepareCanonicalTicket_activation`: it fails where a licence activates.
-/

namespace Mutiny

open Result Punishment Dividends

section Unchanged

variable {s s' : DevnetState} {epoch : UInt64}
  (hscheduled : applyScheduledLicenseTransitions s epoch = .ok s')

include hscheduled

/-- A registry that an epoch leaves as it was had nothing to activate. -/
theorem quiet_licenses (hids : (s.licenses.map (·.licenseId)).Nodup)
    (hsame : ∀ l ∈ s.licenses, ∃ l' ∈ s'.licenses,
      l'.licenseId = l.licenseId ∧ l'.record = l.record) :
    ∀ l ∈ s.licenses, l.status = licenseStatusPending → epoch < l.activationEpoch := by
  intro l hl hpending
  rcases applyScheduledLicenseTransitions_parts hscheduled with ⟨weights, -, -, hlicenses, -, -⟩
  rcases hsame l hl with ⟨l', hl', hid, hrecord⟩
  rw [hlicenses] at hl'
  rcases List.mem_map.mp hl' with ⟨l₂, hl₂, rfl⟩
  have heq : l₂ = l := by
    refine List.inj_on_of_nodup_map hids hl₂ hl ?_
    rw [← hid, scheduledLicense_frame]
    rfl
  rw [heq] at hrecord
  rw [← UInt64.not_le]
  intro hdue
  have hstatus : (scheduledLicense epoch weights l).status = l.status :=
    congrArg LicenseRecordV1.status hrecord
  have hnotRevoked : ¬ l.status = licenseStatusRevoked := by
    rw [hpending]
    decide
  have hactive : (scheduledLicense epoch weights l).status = licenseStatusActive := by
    rw [scheduledLicense, reweigh, if_neg hnotRevoked, activateLicense, if_pos ⟨hpending, hdue⟩]
  rw [hactive, hpending] at hstatus
  exact absurd hstatus (by decide)

variable {r q : RootInputs}

/-- Offences that an epoch leaves as they were go on after it. -/
theorem quiet_offenses (hsame : ∀ o ∈ protocolObjects s r, o ∈ protocolObjects s' q) :
    ∀ e ∈ s.offenseEvents, epoch < e.expiryEpoch := by
  intro e he
  rcases applyScheduledLicenseTransitions_parts hscheduled with ⟨-, -, -, -, hevents, -⟩
  have hobject := hsame _ (offense_mem_protocolObjects.mpr ⟨e, he, rfl, rfl⟩)
  rcases offense_mem_protocolObjects.mp hobject with ⟨e', he', hid, hvalue⟩
  have hexpiry : e'.lower.expiryEpoch = e.lower.expiryEpoch := by
    rw [OffenseEventState.valueBytes_inj hid hvalue]
  change e'.expiryEpoch = e.expiryEpoch at hexpiry
  rw [hevents] at he'
  rw [← hexpiry]
  exact of_decide_eq_true (List.mem_filter.mp he').2

/-- The accounts after an epoch can still be claimed. -/
theorem deadline_after : ∀ a ∈ s'.dividendAccounts, epoch < a.claimDeadlineEpoch := by
  intro a ha
  have hkept : a ∈ kept s.dividendAccounts epoch → epoch < a.claimDeadlineEpoch := by
    intro hmem
    simpa using (List.mem_filter.mp hmem).2
  rcases applyScheduledLicenseTransitions_parts hscheduled with ⟨_, reserved, -, -, -, hafter⟩
  cases hafter with
  | kept haccounts =>
    rw [haccounts] at ha
    exact hkept ha
  | awarded deadline share total hepoch _ hdeadline haccounts =>
    rw [haccounts.mem_iff, List.mem_append] at ha
    rcases ha with ha | ha
    · exact hkept ha
    · rcases List.mem_map.mp ha with ⟨id, -, rfl⟩
      have hwindow : 0 < dividendClaimWindow.toNat := by decide
      apply UInt64.lt_iff_toNat_lt.mpr
      change epoch.toNat < deadline.toNat
      omega

/-- Accounts that an epoch leaves as they were go on after it. -/
theorem quiet_accounts (hsame : ∀ o ∈ protocolObjects s r, o ∈ protocolObjects s' q) :
    ∀ a ∈ s.dividendAccounts, epoch < a.claimDeadlineEpoch := by
  intro a ha
  have hobject := hsame _ (account_mem_protocolObjects.mpr ⟨a, ha, rfl, rfl⟩)
  rcases account_mem_protocolObjects.mp hobject with ⟨a', ha', -, hvalue⟩
  have hdeadline : a'.claimDeadlineEpoch = a.claimDeadlineEpoch :=
    congrArg LicenseDividendAccountV1.claimDeadlineEpoch
      (LicenseDividendAccountV1.encode_inj hvalue)
  exact hdeadline ▸ deadline_after hscheduled a' ha'

/-- An epoch that opens no account awards nothing. -/
theorem quiet_award (hsame : ∀ o ∈ protocolObjects s' q, o ∈ protocolObjects s r) : ¬ AwardsAt s epoch := by
  intro hawards
  rcases applyScheduledLicenseTransitions_eq_ok.mp hscheduled with
    ⟨weights, reserved, hsettles, hrest⟩
  rw [if_pos hawards.1] at hrest
  rcases awardDividends_settled hsettles hawards.1 hrest with ⟨hnone, -⟩ | ⟨-, a, ha, haward, hlater⟩
  · exact hnone hawards
  have hobject := hsame _ (account_mem_protocolObjects.mpr ⟨a, ha, rfl, rfl⟩)
  rcases account_mem_protocolObjects.mp hobject with ⟨a', ha', -, hvalue⟩
  have heq := LicenseDividendAccountV1.encode_inj hvalue
  have haward' : a'.awardEpoch = epoch :=
    (congrArg LicenseDividendAccountV1.awardEpoch heq).trans haward
  have hdeadline : a'.claimDeadlineEpoch = a.claimDeadlineEpoch :=
    congrArg LicenseDividendAccountV1.claimDeadlineEpoch heq
  -- The account was there before, so the award of this epoch is refused.
  refine (awardDividends_eq_ok.mp hrest).1 a' (List.mem_filter.mpr ⟨ha', ?_⟩) haward'
  rw [hdeadline]
  simpa using hlater

end Unchanged

section Loading

variable [Crypto]

/-- The state check reads neither the queue nor the pool. -/
theorem checkState_dropStaleClaims (s : DevnetState) (epoch : UInt64) :
    checkState (dropStaleClaims s epoch) = checkState s := rfl

/-- The state before the candidate epoch passes the check. -/
theorem CheckedState.skipToCandidate {s parent : DevnetState} {epoch : UInt64}
    (hs : CheckedState s) (hsize : s.licenses.length < 2 ^ 64)
    (h : skipToCandidate s epoch = .ok parent) : CheckedState parent := by
  rw [Mutiny.skipToCandidate] at h
  split at h
  · exact hs.skipEpochs hsize h
  · cases h
    exact hs

/-- A prepared state passes the state check in a quiet epoch, and in no other unless
two of the messages hashed for the old and the new root collide, where no two licences have
one identifier. -/
theorem prepareCanonicalTicket_loadable {s parent s' : DevnetState} {epoch : UInt64}
    {licenseIndex : Nat} {ticketIndex : UInt16} {miningSigner : Bytes32}
    {plan : CanonicalTicketPlanV1} (hchecked : checkState s = .ok ())
    (hsize : s.licenses.length < 2 ^ 64)
    (hprepared : prepareCanonicalTicket s epoch licenseIndex ticketIndex miningSigner =
      .ok (plan, s'))
    (hparent : skipToCandidate s epoch = .ok parent) :
    (QuietEpoch parent epoch → checkState s' = .ok ()) ∧
      ((parent.licenses.map (·.licenseId)).Nodup → checkState s' = .ok () →
        QuietEpoch parent epoch ∨ Collides (Hashed parent parent.rootInputs) (Hashed s' s'.rootInputs)) := by
  rcases prepareCanonicalTicket_eq_ok.mp hprepared with ⟨-, _, hparent', hscheduled, -⟩
  cases hparent.symm.trans hparent'
  have hp := (checkState_eq_ok.mp hchecked).skipToCandidate hsize hparent
  constructor
  · intro hquiet
    rw [applyScheduledLicenseTransitions_quiet hscheduled hquiet hp.weighed,
      checkState_dropStaleClaims]
    exact checkState_eq_ok.mpr hp
  · intro hids hchecked'
    have hids' : (s'.licenses.map (·.licenseId)).Nodup := by
      rcases applyScheduledLicenseTransitions_parts hscheduled with ⟨_, -, -, hlicenses, -, -⟩
      rw [hlicenses, map_licenseId_scheduled]
      exact hids
    have hp' := checkState_eq_ok.mp hchecked'
    have hroot' : computeStateRoot s' s'.rootInputs = .ok parent.currentStateRoot := by
      have hsame : s'.currentStateRoot = parent.currentStateRoot := by
        rw [applyScheduledLicenseTransitions_frame hscheduled]
        rfl
      rw [← hsame]
      exact hp'.root
    by_contra hnot
    rw [not_or] at hnot
    rcases hnot with ⟨hbusy, hnone⟩
    rcases licenses_bound hp.root hroot' hids hids' with hlicenses | hcollides
    swap
    · exact hnone hcollides
    rcases objects_bound hp.root hroot' with hobjects | hcollides
    swap
    · exact hnone hcollides
    rcases objects_bound hroot' hp.root with hobjects' | hcollides
    swap
    · exact hnone hcollides.symm
    exact hbusy
      { licenses := quiet_licenses hscheduled hids hlicenses
        offenses := quiet_offenses hscheduled hobjects
        accounts := quiet_accounts hscheduled hobjects
        award := quiet_award hscheduled hobjects' }

end Loading

/-! ## Two chains -/

section Ordinary

attribute [local instance] devnetCrypto

theorem prepareCanonicalTicket_loadable_ordinary :
    ∃ (s s' : DevnetState) (plan : CanonicalTicketPlanV1),
      checkState s = .ok () ∧ prepareCanonicalTicket s 130002 0 0 7 = .ok (plan, s') ∧
        checkState s' = .ok () := by
  have hcheck : okAnd (do
      let s ← sampleChain 130000
      checkState s
      let (plan, s') ← prepareCanonicalTicket s 130002 0 0 7
      let parent ← skipToCandidate s 130002
      .ok (s, plan, s', parent)) (fun (s, _, _, parent) =>
        s.licenses.length == 1 && decide (QuietEpoch parent 130002)) = true := by decide +kernel
  rcases exists_of_okAnd hcheck with ⟨⟨s, plan, s', parent⟩, hrun, htest⟩
  simp only [ok_rules, Prod.mk.injEq, Prod.exists] at hrun
  rcases hrun with ⟨_, -, _, hchecked, _, _, hprepared, _, hparent, rfl, rfl, rfl, rfl⟩
  simp only [Bool.and_eq_true, beq_iff_eq, decide_eq_true_eq] at htest
  exact ⟨_, _, _, hchecked, hprepared,
    (prepareCanonicalTicket_loadable hchecked (by omega) hprepared hparent).1 htest.2⟩

end Ordinary

/-- Primitives whose state root is the status of the licence with the number zero: a
node hashes to the first byte of its left child, the leaf of a licence to its status,
and a state root to the first byte of the licence root. -/
@[reducible]
def statusCrypto : Crypto where
  sha256 bytes :=
    if Domains.smtNode.isPrefixOf bytes then
      BitVec.ofNat 256 ((bytes.getD 18 0).toNat * 2 ^ 248)
    else if Domains.stateRoot.isPrefixOf bytes then
      BitVec.ofNat 256 ((bytes.getD 52 0).toNat * 2 ^ 248)
    else if Domains.licenseLeaf.isPrefixOf bytes then
      BitVec.ofNat 256 ((bytes.getD 56 0).toNat * 2 ^ 248)
    else 0
  argon2id _ _ := 0
  validPublicKey _ := true
  verify _ _ signature := signature == 0
  verifyStrict _ _ signature := signature == 0
  publicKey secret := secret
  sign _ _ := 0

section Activation

attribute [local instance] statusCrypto

/-- A Devnet chain one epoch before its licence activates. -/
def beforeActivation : Except String DevnetState :=
  refreshCurrentStateRoot
    { emptyState 10 devnetNetworkId 0 devnetGenesisId
        [{ sampleLicense with
            licenseIdText := .encode 0, status := licenseStatusPending, paymentAddressId := addressId 7 }] with
      height := 1
      tipHash := 3
      tipEpoch := 73
      blocks := [sampleBlock 10] }

/-- At the epoch at which a licence activates, the prepared state no longer has the
root it stores. -/
theorem prepareCanonicalTicket_activation :
    ∃ (s s' : DevnetState) (plan : CanonicalTicketPlanV1),
      checkState s = .ok () ∧ prepareCanonicalTicket s 74 0 0 7 = .ok (plan, s') ∧
        checkState s' ≠ .ok () := by
  have hcheck : okAnd (do
      let s ← beforeActivation
      checkState s
      let (plan, s') ← prepareCanonicalTicket s 74 0 0 7
      .ok (s, plan, s')) (fun (_, _, s') => !okAnd (checkState s') (fun _ => true)) = true := by
    decide +kernel
  rcases exists_of_okAnd hcheck with ⟨⟨s, plan, s'⟩, hrun, htest⟩
  simp only [ok_rules, Prod.mk.injEq, Prod.exists] at hrun
  rcases hrun with ⟨_, -, _, hchecked, _, _, hprepared, rfl, rfl, rfl⟩
  refine ⟨_, _, _, hchecked, hprepared, ?_⟩
  intro hok
  dsimp only at htest
  rw [hok] at htest
  exact absurd htest (by simp [okAnd])

end Activation

end Mutiny
