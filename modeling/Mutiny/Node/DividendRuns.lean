import Mutiny.Node.TreasuryFlow
import Mutiny.Node.PunishedRuns

/-!
# Dividends over whole chains

The reserve is what the accounts hold, the treasury covers it, and a licence has at most
one account: expiry, awards and claims keep this, and so do the blocks that carry the
payments of claims.

Main result:

- Theorem {lit}`dividend_accounting`: what the invariant says about a chain.
-/

namespace Mutiny

open Result Dividends Lists

/-! ## Accounts -/

/-- The reserve is what the accounts hold; they are canonical, and of different licences. -/
structure AccountsSound (s : DevnetState) : Prop where
  reserve : claimable s.dividendAccounts = s.treasuryReservedDividendStrikes.toNat
  distinct : (s.dividendAccounts.map (·.licenseIdText)).Nodup
  valid : ∀ a ∈ s.dividendAccounts, ValidAccount s a
  past : ∀ a ∈ s.dividendAccounts, a.awardEpoch ≤ s.tipEpoch
  registry : (s.licenses.map (·.licenseId)).Nodup
  size : s.licenses.length < 2 ^ 64

variable {epoch : UInt64}

/-- A new award comes after the window of every earlier one. -/
theorem deadline_le_of_award {award deadline : UInt64} (haward : isAwardEpoch award = true)
    (hepoch : isAwardEpoch epoch = true) (hlt : award < epoch)
    (hdeadline : deadline.toNat = award.toNat + dividendClaimWindow.toNat) : deadline ≤ epoch := by
  simp only [isAwardEpoch, Bool.and_eq_true, bne_iff_ne, beq_iff_eq, ← UInt64.toNat_inj,
    UInt64.toNat_mod, UInt64.toNat_zero] at haward hepoch
  have hwindow : dividendClaimWindow.toNat = 65536 := rfl
  have hinterval : dividendAwardInterval.toNat = 131072 := rfl
  rw [hinterval] at haward hepoch
  rw [UInt64.lt_iff_toNat_lt] at hlt
  rw [UInt64.le_iff_toNat_le]
  omega

variable {s : DevnetState}

/-- Accounts with different texts are of different licences. -/
theorem AccountsSound.nodup_ids (hs : AccountsSound s) :
    (s.dividendAccounts.map (·.licenseId)).Nodup := by
  have hlisted : ∀ t ∈ s.dividendAccounts.map (·.licenseIdText),
      t ∈ s.licenses.map (·.licenseIdText) := by
    intro t ht
    rcases List.mem_map.mp ht with ⟨a, ha, rfl⟩
    exact (hs.valid a ha).known
  have hmap : s.dividendAccounts.map (·.licenseId) =
      (s.dividendAccounts.map (·.licenseIdText)).map HexText.bytes := by
    rw [List.map_map]
    rfl
  rw [hmap]
  refine hs.distinct.map_on fun t ht t' ht' hbytes => ?_
  rcases List.mem_map.mp (hlisted t ht) with ⟨l, hl, rfl⟩
  rcases List.mem_map.mp (hlisted t' ht') with ⟨l', hl', rfl⟩
  rw [List.inj_on_of_nodup_map hs.registry hl hl' hbytes]

/-- No account outlives the next award. -/
theorem AccountsSound.kept_eq_nil (hs : AccountsSound s) (hepoch : isAwardEpoch epoch = true)
    (hlt : s.tipEpoch < epoch ∨ s.dividendAccounts = []) :
    kept s.dividendAccounts epoch = [] := by
  rcases hlt with hlt | hnone
  · rw [kept, List.filter_eq_nil_iff]
    intro a ha
    have hvalid := hs.valid a ha
    have hbefore : a.awardEpoch < epoch := UInt64.lt_of_le_of_lt (hs.past a ha) hlt
    simpa using deadline_le_of_award hvalid.award hepoch hbefore hvalid.deadline
  · rw [hnone]
    rfl

theorem nodup_eligibleIds {licenses : List LicenseState} (epoch : UInt64)
    (h : (licenses.map (·.licenseId)).Nodup) : (eligibleIds licenses epoch).Nodup :=
  (LicenseState.nodup_texts h).sublist (List.filter_sublist.map _)

/-- Half of an amount can always be shared out. -/
theorem exists_calculateDividendAward (available eligible : UInt64) :
    ∃ award, calculateDividendAward available eligible = .ok award := by
  have hproduct : (if eligible = 0 then 0 else available / 2 / eligible).toNat * eligible.toNat ≤
      (available / 2).toNat := by
    split
    · simp
    · rw [UInt64.toNat_div]
      exact Nat.div_mul_le_self _ _
  have hbound := (available / 2).toNat_lt
  simp only [calculateDividendAward, ok_rules, UInt64.checkedMul_eq_some, UInt64.checkedSub_eq_some]
  exact ⟨_, UInt64.ofNat ((if eligible = 0 then 0 else available / 2 / eligible).toNat *
    eligible.toNat), UInt64.toNat_ofNat_of_lt' (show _ < 2 ^ 64 by omega), UInt64.ofNat ((available / 2).toNat -
      (if eligible = 0 then 0 else available / 2 / eligible).toNat * eligible.toNat), by
      rw [UInt64.toNat_ofNat_of_lt' (show _ < 2 ^ 64 by omega),
        UInt64.toNat_ofNat_of_lt' (show _ < 2 ^ 64 by omega)]
      omega, rfl⟩

/-- An award succeeds on a covered reserve at an epoch that has none yet. -/
theorem exists_awardDividends (hepoch : isAwardEpoch epoch = true)
    (hnew : ∀ a ∈ s.dividendAccounts, a.awardEpoch ≠ epoch) (hfits : treasuryValue s.utxos < 2 ^ 64)
    (hbacked : s.treasuryReservedDividendStrikes.toNat ≤ treasuryValue s.utxos) :
    ∃ s', awardDividends s epoch = .ok s' := by
  have havailable := UInt64.toNat_ofNat_of_lt'
    (n := treasuryValue s.utxos - s.treasuryReservedDividendStrikes.toNat) (show _ < 2 ^ 64 by omega)
  have htreasury : treasuryState s s.utxos =
      .ok ⟨UInt64.ofNat (treasuryValue s.utxos - s.treasuryReservedDividendStrikes.toNat),
        s.treasuryReservedDividendStrikes⟩ :=
    treasuryState_eq_ok.mpr ⟨by dsimp only; omega, hfits, rfl⟩
  rcases exists_calculateDividendAward
    (UInt64.ofNat (treasuryValue s.utxos - s.treasuryReservedDividendStrikes.toNat))
    (UInt64.ofNat (eligibleIds s.licenses epoch).length) with ⟨award, haward⟩
  rcases calculateDividendAward_eq_ok haward with ⟨-, hcovered, -⟩
  rw [havailable] at hcovered
  by_cases hzero : award.totalReservedStrikes = 0
  · exact ⟨s, awardDividends_eq_ok.mpr ⟨hnew, _, award, htreasury, haward, Or.inl ⟨hzero, rfl⟩⟩⟩
  · -- the last award epoch leaves room for its window
    have hroom : epoch.toNat + dividendClaimWindow.toNat < 2 ^ 64 := by
      simp only [isAwardEpoch, Bool.and_eq_true, beq_iff_eq, ← UInt64.toNat_inj,
        UInt64.toNat_mod, UInt64.toNat_zero] at hepoch
      have hwindow : dividendClaimWindow.toNat = 65536 := rfl
      have hinterval : dividendAwardInterval.toNat = 131072 := rfl
      have hbound := epoch.toNat_lt
      rw [hinterval] at hepoch
      omega
    exact ⟨_, awardDividends_eq_ok.mpr ⟨hnew, _, award, htreasury, haward, Or.inr ⟨hzero,
      UInt64.ofNat (epoch.toNat + dividendClaimWindow.toNat),
      UInt64.ofNat (s.treasuryReservedDividendStrikes.toNat + award.totalReservedStrikes.toNat),
      UInt64.toNat_ofNat_of_lt' hroom, UInt64.toNat_ofNat_of_lt' (show _ < 2 ^ 64 by omega), rfl⟩⟩⟩

variable {reserved : UInt64}

/-- The accounts after the transitions of an epoch are of different licences. -/
theorem AccountsSound.distinct_after {s' : DevnetState} (hs : AccountsSound s)
    (hlt : s.tipEpoch < epoch ∨ s.dividendAccounts = [])
    (hregistry : (s'.licenses.map (·.licenseId)).Nodup) (h : AccountsAfter s epoch reserved s') :
    (s'.dividendAccounts.map (·.licenseIdText)).Nodup := by
  cases h with
  | kept haccounts _ =>
    rw [haccounts]
    exact hs.distinct.sublist (List.filter_sublist.map _)
  | awarded deadline share total hepoch _ _ haccounts _ _ _ =>
    rw [(haccounts.map _).nodup_iff, hs.kept_eq_nil hepoch hlt, List.nil_append,
      awardedAccounts, List.map_map]
    have hids : (eligibleIds s'.licenses epoch).map
        ((·.licenseIdText) ∘ fun licenseId : HexText =>
          ({ licenseIdText := licenseId
             awardEpoch := epoch
             claimDeadlineEpoch := deadline
             claimableStrikes := share } : DividendAccountState)) =
        eligibleIds s'.licenses epoch := List.map_id _
    rw [hids]
    exact nodup_eligibleIds epoch hregistry

theorem AccountsSound.past_after {s' : DevnetState} (hs : AccountsSound s)
    (hlt : s.tipEpoch < epoch ∨ s.dividendAccounts = []) (h : AccountsAfter s epoch reserved s') :
    ∀ a ∈ s'.dividendAccounts, a.awardEpoch ≤ epoch := by
  have hkept : ∀ a ∈ kept s.dividendAccounts epoch, a.awardEpoch ≤ epoch := by
    intro a ha
    have ha := (List.mem_filter.mp ha).1
    rcases hlt with hlt | hnone
    · exact UInt64.le_of_lt (UInt64.lt_of_le_of_lt (hs.past a ha) hlt)
    · rw [hnone] at ha
      exact absurd ha List.not_mem_nil
  intro a ha
  cases h with
  | kept haccounts _ =>
    rw [haccounts] at ha
    exact hkept a ha
  | awarded deadline share total hepoch _ _ haccounts _ _ _ =>
    rw [haccounts.mem_iff, List.mem_append] at ha
    rcases ha with ha | ha
    · exact hkept a ha
    · rcases List.mem_map.mp ha with ⟨id, -, rfl⟩
      exact UInt64.le_refl _

/-! ## The invariant -/

/-- The accounts are sound and the treasury covers them; before the first block there is
neither. -/
structure DividendSound (s : DevnetState) : Prop extends AccountsSound s where
  fits : treasuryValue s.utxos < 2 ^ 64
  backed : s.treasuryReservedDividendStrikes.toNat ≤ treasuryValue s.utxos
  fresh : s.height = 0 → s.dividendAccounts = [] ∧ treasuryValue s.utxos = 0

namespace DividendSound

variable {s s' t : DevnetState} {epoch : UInt64}

/-- An epoch that the transitions of a state may run at: a later one, or any before the
first block. -/
def Due (s : DevnetState) (epoch : UInt64) : Prop := s.tipEpoch < epoch ∨ s.height = 0

/-- Expiry succeeds where the reserve is what the accounts hold. -/
theorem exists_expireAccounts (epoch : UInt64)
    (h : claimable s.dividendAccounts = s.treasuryReservedDividendStrikes.toNat) :
    ∃ returned reserved : UInt64, returned.toNat = claimable (lapsed s.dividendAccounts epoch) ∧
      reserved.toNat = claimable (kept s.dividendAccounts epoch) ∧
      Dividends.expireAccounts s epoch = .ok (returned, { s with
        dividendAccounts := kept s.dividendAccounts epoch
        treasuryReservedDividendStrikes := reserved }) := by
  have hsplit := claimable_kept_add_lapsed s.dividendAccounts epoch
  have hbound := s.treasuryReservedDividendStrikes.toNat_lt
  have hreturned := UInt64.toNat_ofNat_of_lt' (n := claimable (lapsed s.dividendAccounts epoch))
    (show _ < 2 ^ 64 by omega)
  have hreserved := UInt64.toNat_ofNat_of_lt' (n := claimable (kept s.dividendAccounts epoch))
    (show _ < 2 ^ 64 by omega)
  exact ⟨_, _, hreturned, hreserved, expireAccounts_eq_ok.mpr ⟨hreturned, _, by omega, rfl⟩⟩

variable (hs : DividendSound s)

include hs

theorem checkState : Dividends.checkState s = .ok () :=
  Dividends.checkState_eq_ok.mpr ⟨hs.fits, hs.backed, hs.distinct, hs.valid, hs.reserve⟩

theorem later_or_none (h : Due s epoch) :
    s.tipEpoch < epoch ∨ s.dividendAccounts = [] :=
  h.imp_right fun hzero => (hs.fresh hzero).1

/-- Expiry gives back what was not claimed. -/
theorem expireAccounts (epoch : UInt64) :
    ∃ returned s₁ before after, Dividends.expireAccounts s epoch = .ok (returned, s₁) ∧
      returned.toNat = claimable (lapsed s.dividendAccounts epoch) ∧
      treasuryState s s.utxos = .ok before ∧ treasuryState s₁ s₁.utxos = .ok after ∧
      after.availableStrikes.toNat = before.availableStrikes.toNat + returned.toNat := by
  rcases exists_expireAccounts epoch hs.reserve with ⟨returned, reserved, hreturned, hreserved, hok⟩
  have hsplit := claimable_kept_add_lapsed s.dividendAccounts epoch
  have hreserve := hs.reserve
  have hbacked := hs.backed
  have hfits := hs.fits
  have hbefore := UInt64.toNat_ofNat_of_lt'
    (n := treasuryValue s.utxos - s.treasuryReservedDividendStrikes.toNat) (show _ < 2 ^ 64 by omega)
  have hafter := UInt64.toNat_ofNat_of_lt' (n := treasuryValue s.utxos - reserved.toNat)
    (show _ < 2 ^ 64 by omega)
  refine ⟨returned, _,
    ⟨UInt64.ofNat (treasuryValue s.utxos - s.treasuryReservedDividendStrikes.toNat), _⟩,
    ⟨UInt64.ofNat (treasuryValue s.utxos - reserved.toNat), _⟩, hok, hreturned,
    treasuryState_eq_ok.mpr ⟨?_, hfits, rfl⟩, treasuryState_eq_ok.mpr ⟨?_, hfits, rfl⟩, ?_⟩
  · dsimp only
    omega
  · dsimp only
    omega
  · dsimp only
    omega

/-- The transition of an epoch never fails, whatever the licences and the offences have
become by then. -/
theorem processEpoch (hdue : Due s epoch) (licenses : List LicenseState)
    (events : List OffenseEventState) :
    ∃ s', Dividends.processEpoch { s with licenses := licenses, offenseEvents := events } epoch =
      .ok s' := by
  rcases exists_expireAccounts (s := { s with licenses, offenseEvents := events }) epoch hs.reserve
    with ⟨returned, reserved, -, hreserved, hexpire⟩
  rw [Dividends.processEpoch, hexpire, ok_bind]
  dsimp only
  by_cases hepoch : isAwardEpoch epoch = true
  · rw [if_pos hepoch]
    have hnone := hs.kept_eq_nil hepoch (hs.later_or_none hdue)
    refine exists_awardDividends hepoch ?_ hs.fits ?_
    · intro a ha
      have ha : a ∈ kept s.dividendAccounts epoch := ha
      rw [hnone] at ha
      exact absurd ha List.not_mem_nil
    · have hsplit := claimable_kept_add_lapsed s.dividendAccounts epoch
      have hreserve := hs.reserve
      have hbacked := hs.backed
      change reserved.toNat ≤ treasuryValue s.utxos
      dsimp only at hreserved
      omega
  · rw [if_neg hepoch]
    exact ⟨_, rfl⟩

/-- Scheduled transitions and the move to their epoch. -/
theorem scheduled (hdue : Due s epoch)
    (h : applyScheduledLicenseTransitions s epoch = .ok s') (hutxos : t.utxos = s.utxos)
    (hheight : t.height = s.height) (hlicenses : t.licenses = s'.licenses)
    (haccounts : t.dividendAccounts = s'.dividendAccounts)
    (hreserve : t.treasuryReservedDividendStrikes = s'.treasuryReservedDividendStrikes)
    (htip : t.tipEpoch = epoch) : DividendSound t := by
  rcases applyScheduledLicenseTransitions_parts h with ⟨weights, reserved, hsettles, hparts, -, hafter⟩
  have hlater := hs.later_or_none hdue
  have hids : t.licenses.map (·.licenseId) = s.licenses.map (·.licenseId) := by
    rw [hlicenses, hparts, map_licenseId_scheduled]
  have hregistry : (s'.licenses.map (·.licenseId)).Nodup := by
    rw [← hlicenses, hids]
    exact hs.registry
  have hdistinct : (t.dividendAccounts.map (·.licenseIdText)).Nodup := by
    rw [haccounts]
    exact hs.distinct_after hlater hregistry hafter
  have hcheck := Dividends.checkState_scheduled hs.checkState h hs.size hutxos hlicenses haccounts
    hreserve hdistinct
  rcases Dividends.checkState_eq_ok.mp hcheck with ⟨hfits, hbacked, -, hvalid, hsum⟩
  refine ⟨⟨hsum, hdistinct, hvalid, ?_, hids ▸ hs.registry, ?_⟩, hfits, hbacked, ?_⟩
  · rw [haccounts, htip]
    exact hs.past_after hlater hafter
  · rw [hlicenses, hparts, List.length_map]
    exact hs.size
  · intro hzero
    rw [hheight] at hzero
    rcases hs.fresh hzero with ⟨hnone, hempty⟩
    refine ⟨?_, hutxos ▸ hempty⟩
    rw [haccounts]
    cases hafter with
    | kept hkept _ =>
      rw [hkept, hnone]
      rfl
    | awarded deadline share total _ hpositive _ _ _ _ hcovered =>
      -- an empty treasury awards nothing
      have htotal : total.toNat ≠ 0 := fun heq => hpositive (UInt64.toNat_inj.mp heq)
      omega

theorem emptyEpoch (h : Mutiny.emptyEpoch s = .ok s')
    (hroom : s.tipEpoch.toNat + 1 < 2 ^ 64) : DividendSound s' := by
  rcases emptyEpoch_scheduled h with ⟨s₂, hscheduled, hresult⟩
  rcases emptyEpoch_frame h with ⟨hframe, htip⟩
  have hlater := UInt64.lt_add_one_of_lt hroom
  exact hs.scheduled (Or.inl hlater) hscheduled (by rw [hframe]; rfl) (by rw [hframe]; rfl)
    (by rw [hresult]; rfl) (by rw [hresult]; rfl) (by rw [hresult]; rfl) htip

theorem emptyEpochs {n : Nat} (h : Mutiny.emptyEpochs n s = .ok s')
    (hn : s.tipEpoch.toNat + n < 2 ^ 64) : DividendSound s' := by
  refine (emptyEpochs_invariant (P := DividendSound) ?_ hs hn h).1
  intro t t' ht htip hepoch
  exact ht.emptyEpoch hepoch (htip ▸ t'.tipEpoch.toNat_lt)

/-- A state that differs in nothing the invariant reads. -/
theorem of_same (hutxos : t.utxos = s.utxos) (hheight : t.height = s.height)
    (hlicenses : t.licenses = s.licenses) (haccounts : t.dividendAccounts = s.dividendAccounts)
    (hreserve : t.treasuryReservedDividendStrikes = s.treasuryReservedDividendStrikes)
    (htip : t.tipEpoch = s.tipEpoch) : DividendSound t := by
  refine ⟨⟨?_, haccounts ▸ hs.distinct, ?_, ?_, hlicenses ▸ hs.registry, hlicenses ▸ hs.size⟩,
    hutxos ▸ hs.fits, ?_, ?_⟩
  · rw [haccounts, hreserve]
    exact hs.reserve
  · intro a ha
    rw [haccounts] at ha
    exact ⟨(hs.valid a ha).award, (hs.valid a ha).deadline, hlicenses ▸ (hs.valid a ha).known⟩
  · rw [haccounts, htip]
    exact hs.past
  · rw [hreserve, hutxos]
    exact hs.backed
  · rw [hheight, haccounts, hutxos]
    exact hs.fresh

theorem advanceEmptyEpochs [Crypto] {throughEpoch : UInt64}
    (h : Mutiny.advanceEmptyEpochs s throughEpoch = .ok s') : DividendSound s' := by
  refine (advanceEmptyEpochs_invariant (P := DividendSound) ?_ ?_ hs h).1
  · intro t t' ht htip hepoch
    exact ht.emptyEpoch hepoch (htip ▸ t'.tipEpoch.toNat_lt)
  · exact fun t root ht => ht.of_same rfl rfl rfl rfl rfl rfl

/-- The state that the operations of a block start from. -/
theorem advanceToBlock [Crypto] {next : DevnetState} {core : HeaderCoreV1}
    (hplace : checkHeaderPlace s core = .ok ())
    (h : Mutiny.advanceToBlock s core.epoch = .ok next) :
    DividendSound { next with tipEpoch := core.epoch } := by
  rcases advanceToBlock_parts h with ⟨_, s₁, hbefore, hthrough, hscheduled⟩
  rcases advanceEmptyEpochs_frame hbefore with ⟨hframe, htip⟩
  have hheight : s₁.height = s.height := by
    rw [hframe]
    rfl
  have hdue : Due s₁ core.epoch := by
    by_cases hzero : s.height = 0
    · exact Or.inr (hheight.trans hzero)
    · left
      have hlater := (epoch_of_checkHeaderPlace hplace).1 hzero
      rw [UInt64.lt_iff_toNat_lt]
      omega
  have hnext := applyScheduledLicenseTransitions_frame hscheduled
  exact (hs.advanceEmptyEpochs hbefore).scheduled hdue hscheduled (by rw [hnext]; rfl)
    (by rw [hnext]; rfl) rfl rfl rfl rfl

end DividendSound

/-! ## Operations -/

section Blocks

variable [Crypto]

omit [Crypto] in
theorem claimable_updateFirst {p : DividendAccountState → Bool}
    {f : DividendAccountState → DividendAccountState} {accounts : List DividendAccountState}
    {a : DividendAccountState} (h : accounts.find? p = some a) :
    claimable (updateFirst p f accounts) + a.claimableStrikes.toNat =
      claimable accounts + (f a).claimableStrikes.toNat := by
  induction accounts with
  | nil => cases h
  | cons x accounts ih =>
    have hcons : ∀ (y : DividendAccountState) ys,
        claimable (y :: ys) = y.claimableStrikes.toNat + claimable ys := fun y ys => by
      simp [claimable]
    by_cases hx : p x = true
    · rw [List.find?_cons_of_pos hx, Option.some.injEq] at h
      rw [updateFirst, if_pos hx, hcons, hcons, h]
      omega
    · rw [List.find?_cons_of_neg hx] at h
      have hrest := ih h
      rw [updateFirst, if_neg hx, hcons, hcons]
      omega

variable {s s' : DevnetState} {txs : List TransactionV1} {epoch : UInt64} {op : ProtocolOperationV1}
  {license : LicenseState}

/-- A claim lowers its account and the reserve. -/
theorem AccountsSound.claim {c : DividendClaimV1} {account : DividendAccountState}
    {reserved : UInt64} (hs : AccountsSound s)
    (h : ClaimStep s txs op epoch c license account reserved s') :
    AccountsSound s' ∧ s'.treasuryReservedDividendStrikes.toNat + c.amountStrikes.toNat =
      s.treasuryReservedDividendStrikes.toNat := by
  have hdebit := UInt64.checkedSub_eq_some.mp h.debited
  have hcovered := UInt64.toNat_sub_of_le _ _ h.covered
  have haccounts : s'.dividendAccounts =
      updateFirst (fun a => a.licenseIdText == license.licenseIdText)
        (fun a => { a with claimableStrikes := account.claimableStrikes - c.amountStrikes })
        s.dividendAccounts := by
    rw [h.result]
    apply updateFirst_congr
    intro a ha
    rw [h.held, Option.some.injEq] at ha
    rw [← ha]
    rfl
  have hkeys : ∀ {β : Type} (key : DividendAccountState → β),
      (∀ (a : DividendAccountState) n, key { a with claimableStrikes := n } = key a) →
      s'.dividendAccounts.map key = s.dividendAccounts.map key := by
    intro β key hkey
    rw [haccounts]
    exact map_key_updateFirst (fun a => hkey a _) _
  have hback : ∀ a' ∈ s'.dividendAccounts, ∃ a ∈ s.dividendAccounts,
      (a.licenseIdText, a.awardEpoch, a.claimDeadlineEpoch) =
        (a'.licenseIdText, a'.awardEpoch, a'.claimDeadlineEpoch) := by
    intro a' ha'
    have hmem := List.mem_map_of_mem
      (f := fun a => (a.licenseIdText, a.awardEpoch, a.claimDeadlineEpoch)) ha'
    rw [hkeys _ fun _ _ => rfl] at hmem
    exact List.mem_map.mp hmem
  have hlicenses : s'.licenses = s.licenses := by rw [h.result]
  have hresult : s'.treasuryReservedDividendStrikes = reserved := by rw [h.result]
  refine ⟨⟨?_, ?_, ?_, ?_, hlicenses ▸ hs.registry, hlicenses ▸ hs.size⟩, by rw [hresult]; exact hdebit⟩
  · have hsum := claimable_updateFirst
      (f := fun a => { a with claimableStrikes := account.claimableStrikes - c.amountStrikes })
      h.held
    have hreserve := hs.reserve
    have hle := UInt64.le_iff_toNat_le.mp h.covered
    rw [haccounts, hresult]
    dsimp only at hsum
    omega
  · rw [hkeys _ fun _ _ => rfl]
    exact hs.distinct
  · intro a' ha'
    rcases hback a' ha' with ⟨a, ha, hsame⟩
    simp only [Prod.mk.injEq] at hsame
    have hvalid := hs.valid a ha
    exact ⟨hsame.2.1 ▸ hvalid.award, hsame.2.1 ▸ hsame.2.2 ▸ hvalid.deadline,
      hsame.1 ▸ hlicenses ▸ hvalid.known⟩
  · intro a' ha'
    rcases hback a' ha' with ⟨a, ha, hsame⟩
    simp only [Prod.mk.injEq] at hsame
    have htip : s'.tipEpoch = s.tipEpoch := by rw [h.result]
    rw [htip, ← hsame.2.1]
    exact hs.past a ha

omit [Crypto] in
/-- Purchases and other changes of the registry leave the accounts alone. -/
theorem AccountsSound.of_registry (hs : AccountsSound s)
    (haccounts : s'.dividendAccounts = s.dividendAccounts)
    (hreserve : s'.treasuryReservedDividendStrikes = s.treasuryReservedDividendStrikes)
    (htip : s'.tipEpoch = s.tipEpoch) (hregistry : (s'.licenses.map (·.licenseId)).Nodup)
    (hsubset : s.licenses.map (·.licenseIdText) ⊆ s'.licenses.map (·.licenseIdText))
    (hlength : s'.licenses.length ≤ max s.licenses.length (2 ^ 32)) : AccountsSound s' := by
  refine ⟨?_, haccounts ▸ hs.distinct, ?_, ?_, hregistry, ?_⟩
  · rw [haccounts, hreserve]
    exact hs.reserve
  · intro a ha
    rw [haccounts] at ha
    have hvalid := hs.valid a ha
    exact ⟨hvalid.award, hvalid.deadline, hsubset hvalid.known⟩
  · rw [haccounts, htip]
    exact hs.past
  · have hsize := hs.size
    omega

/-- What the operations of a block do to the accounts. -/
structure Claims (s : DevnetState) (txs : List TransactionV1)
    (operations : List ProtocolOperationV1) (s' : DevnetState) : Prop where
  sound : AccountsSound s'
  reserve : s'.treasuryReservedDividendStrikes.toNat + claimedStrikes operations =
    s.treasuryReservedDividendStrikes.toNat
  paid : ∀ c ∈ claimsOf operations, c.paymentTxid ∈ (txs.drop 1).map TransactionV1.txid

theorem AccountsSound.operation (hs : AccountsSound s) (h : OperationStep txs epoch s op s') :
    Claims s txs [op] s' := by
  rcases h.claim_or_other with ⟨c, license, account, reserved, hclaim⟩ | ⟨htype, haccounts, hreserve⟩
  · have hclaims : claimsOf [op] = [c] := by
      simp [claimsOf, hclaim.operation, Except.toOption]
    rcases hs.claim hclaim with ⟨hsound, hlowered⟩
    refine ⟨hsound, ?_, ?_⟩
    · rw [claimedStrikes, hclaims]
      simpa using hlowered
    · rw [hclaims]
      intro c' hc'
      rw [List.mem_singleton.mp hc']
      rcases hclaim.payment with ⟨tx, htx, hid⟩
      exact hid ▸ List.mem_map_of_mem htx
  · have hclaims : claimsOf [op] = [] := by
      cases hdecode : decodeClaimOperation op with
      | error e => simp [claimsOf, hdecode, Except.toOption]
      | ok c => exact absurd (opType_of_claim hdecode) htype
    rcases h.licenses_subset with ⟨hsubset, hlength⟩
    refine ⟨hs.of_registry haccounts hreserve h.tipEpoch (h.nodup_licenseIds hs.registry) hsubset
      hlength, ?_, ?_⟩
    · rw [claimedStrikes, hclaims, hreserve]
      rfl
    · rw [hclaims]
      exact fun c hc => absurd hc List.not_mem_nil

theorem AccountsSound.operations {operations : List ProtocolOperationV1} (hs : AccountsSound s)
    (h : OperationSteps txs epoch s operations s') :
    Claims s txs operations s' := by
  induction h with
  | nil s => exact ⟨hs, rfl, fun c hc => absurd hc List.not_mem_nil⟩
  | @cons s s₁ s' op ops head _ ih =>
    have hfirst := hs.operation head
    have hrest := ih hfirst.sound
    have hsplit : claimsOf (op :: ops) = claimsOf [op] ++ claimsOf ops := by
      rw [claimsOf, claimsOf, claimsOf, ← List.filterMap_append]
      rfl
    refine ⟨hrest.sound, ?_, ?_⟩
    · have h₁ := hfirst.reserve
      have h₂ := hrest.reserve
      rw [claimedStrikes] at h₁ h₂ ⊢
      rw [hsplit, List.map_append, List.sum_append]
      omega
    · rw [hsplit]
      intro c hc
      rcases List.mem_append.mp hc with hc | hc
      · exact hfirst.paid c hc
      · exact hrest.paid c hc

/-! ## Blocks -/

/-- What a block does to the treasury: the claims leave the reserve and the treasury;
licence payments and the share of the coinbase come in. -/
structure BlockTreasury (s : DevnetState) (header : HeaderV1) (coinbase : TransactionV1)
    (ordinary : List TransactionV1) (operations : List ProtocolOperationV1) (s' : DevnetState) :
    Prop where
  reserve : ∃ next, Mutiny.advanceToBlock s header.core.epoch = .ok next ∧
    s'.treasuryReservedDividendStrikes.toNat + claimedStrikes operations =
      next.treasuryReservedDividendStrikes.toNat
  treasury : treasuryValue s'.utxos + claimedStrikes operations =
    treasuryValue s.utxos + (paidForLicenses ordinary + toTreasury coinbase.core.outputs)

variable {header : HeaderV1}

/-- A block lowers the reserve and the treasury by the claims it confirms. -/
theorem DividendSound.acceptedBlock {next : DevnetState} {coinbase : TransactionV1}
    {ordinary : List TransactionV1} {operations : List ProtocolOperationV1} {b : BodyValues}
    (hs : DividendSound s) (hb : AcceptedBlock s header coinbase ordinary operations next license b)
    (hdistinct : (ordinary.map TransactionV1.txid).Nodup) (hheight : (next.height + 1) ≠ 0)
    (hfits : utxoSupply b.utxos < 2 ^ 64) :
    DividendSound (b.result next header coinbase ordinary operations) ∧
      BlockTreasury s header coinbase ordinary operations
        (b.result next header coinbase ordinary operations) := by
  have hparent := hs.advanceToBlock hb.place hb.advanced
  have hutxos : next.utxos = s.utxos := by
    rw [advanceToBlock_frame hb.advanced]
    rfl
  rcases applyProtocolOperations_steps hb.body.applied with ⟨-, s₁, hsteps, hpost⟩
  have hclaims := hparent.toAccountsSound.operations hsteps
  have hflow := treasury_validateAndApplyList hb.body.spends
  have htxs := toTransactions_pendingFromTransaction hb.body.records
  have hpaid := paidClaims_eq hdistinct hclaims.paid
  rcases addOutputsAsUtxos_eq_ok.mp hb.body.created with ⟨-, hcreated⟩
  have hvalue : treasuryValue b.utxos =
      treasuryValue b.spentUtxos + toTreasury coinbase.core.outputs := by
    rw [hcreated, treasuryValue_append, treasuryValue_createdUtxos]
  have htreasury : treasuryValue b.utxos + claimedStrikes operations =
      treasuryValue s.utxos + (paidForLicenses ordinary + toTreasury coinbase.core.outputs) := by
    have hflow : treasuryValue b.spentUtxos + paidClaims operations ordinary =
        treasuryValue next.utxos + paidForLicenses ordinary := by
      rw [← htxs]
      exact hflow
    rw [hutxos] at hflow
    omega
  have hreserve := hclaims.reserve
  have hbacked : next.treasuryReservedDividendStrikes.toNat ≤ treasuryValue next.utxos :=
    hparent.backed
  rw [hutxos] at hbacked
  have hsub : treasuryValue b.utxos ≤ utxoSupply b.utxos :=
    List.Sublist.sum_le_sum (List.filter_sublist.map _) fun _ _ => Nat.zero_le _
  have htip : s₁.tipEpoch = header.core.epoch := hsteps.tipEpoch
  have hlicenses : (b.result next header coinbase ordinary operations).licenses = s₁.licenses := by
    rw [BodyValues.result, hpost]
    rfl
  have hreserved : (b.result next header coinbase ordinary operations).treasuryReservedDividendStrikes =
      s₁.treasuryReservedDividendStrikes := by
    rw [BodyValues.result, hpost]
    rfl
  have hsound : AccountsSound (b.result next header coinbase ordinary operations) :=
    hclaims.sound.of_registry
    (by rw [BodyValues.result, hpost]; rfl) hreserved htip.symm (hlicenses ▸ hclaims.sound.registry)
    (hlicenses ▸ List.Subset.refl _) (hlicenses ▸ le_max_left _ _)
  refine ⟨⟨hsound, hsub.trans_lt hfits, ?_, fun hzero => absurd hzero hheight⟩,
    ⟨next, hb.advanced, by rw [hreserved]; exact hreserve⟩, htreasury⟩
  rw [hreserved]
  change s₁.treasuryReservedDividendStrikes.toNat ≤ treasuryValue b.utxos
  dsimp only at hreserve
  omega

/-- The bootstrap block opens no account. -/
theorem DividendSound.bootstrap {operations : List ProtocolOperationV1} (hs : DividendSound s)
    (hdistinct : BootstrapIdsDistinct)
    (h : validateAndApplyDevnetBlock1 s header txs operations = .ok s') : DividendSound s' := by
  rcases bootstrapStep_of_ok h with ⟨fixture, hstep⟩
  have hnone := (hs.fresh hstep.height).1
  have haccounts := hstep.accounts
  rw [hnone] at haccounts
  have hvalue : treasuryValue s'.utxos = 0 := by
    rw [hstep.utxos']
    rfl
  have hzero : s'.treasuryReservedDividendStrikes.toNat = 0 := by
    rw [hstep.reserve, ← hs.reserve, hnone]
    rfl
  have hcount : bootstrapLicenseCount < 2 ^ 64 := by decide
  refine ⟨⟨?_, ?_, ?_, ?_, ?_, ?_⟩, ?_, ?_, fun _ => ⟨haccounts, hvalue⟩⟩
  · rw [haccounts, hzero]
    rfl
  · rw [haccounts]
    exact List.nodup_nil
  · rw [haccounts]
    exact fun a ha => absurd ha List.not_mem_nil
  · rw [haccounts]
    exact fun a ha => absurd ha List.not_mem_nil
  · rw [hstep.licenses']
    exact nodup_bootstrapLicenses (hdistinct s fixture hstep.built)
  · rw [hstep.licenses']
    exact (length_bootstrapLicenses hstep.built).trans_lt hcount
  · rw [hvalue]
    decide
  · rw [hzero]
    exact Nat.zero_le _

omit [Crypto] in
/-- A block with claims is not the bootstrap block. -/
theorem claimsOf_of_isBootstrapBlock {operations : List ProtocolOperationV1}
    (h : isBootstrapBlock s operations = true) : claimsOf operations = [] := by
  rw [claimsOf, List.filterMap_eq_nil_iff]
  intro op hop
  have htype := operations_of_isBootstrapBlock h op hop
  cases hdecode : decodeClaimOperation op with
  | error e => rfl
  | ok c =>
    rw [opType_of_claim hdecode] at htype
    exact absurd htype (by decide)

variable {done : List TransactionV1}

theorem DividendSound.block {operations : List ProtocolOperationV1} (hs : DividendSound s)
    (hdistinct : BootstrapIdsDistinct) (hledger : LedgerSound done s) (hsupply : Conserved s)
    (hcollision : CollisionFree (done ++ appliedTxs s txs operations))
    (h : validateAndApplyBlock s header txs operations = .ok s') :
    DividendSound s' ∧ (claimsOf operations ≠ [] → ∃ coinbase ordinary,
      txs = coinbase :: ordinary ∧ BlockTreasury s header coinbase ordinary operations s') := by
  have hledger' := hledger.block h hcollision
  have hsupply' := hsupply.step (.block h)
  rcases validateAndApplyBlock_cases h with
    ⟨hboot, hfirst⟩ | ⟨hboot, coinbase, ordinary, next, license, b, rfl, hb, rfl⟩
  · exact ⟨hs.bootstrap hdistinct hfirst,
      fun hclaims => absurd (claimsOf_of_isBootstrapBlock hboot) hclaims⟩
  · have hordinary : (ordinary.map TransactionV1.txid).Nodup := by
      have htail := hledger'.2
      rw [appliedTxs, hboot, if_neg Bool.false_ne_true] at htail
      exact htail
    have hfits : utxoSupply b.utxos < 2 ^ 64 :=
      lt_of_eq_of_lt hsupply'.supply (UInt64.toNat_lt _)
    have hheight : next.height + 1 ≠ 0 := by
      intro hzero
      have hempty := hledger'.1.empty hzero
      rw [appliedTxs, hboot, if_neg Bool.false_ne_true] at hempty
      simp at hempty
    rcases hs.acceptedBlock hb hordinary hheight hfits with ⟨hsound, htreasury⟩
    exact ⟨hsound, fun _ => ⟨coinbase, ordinary, rfl, htreasury⟩⟩

/-! ## Chains -/

variable {founding : List TransactionV1}

theorem DividendSound.run {s₀ : DevnetState} (hs : DividendSound s₀)
    (hdistinct : BootstrapIdsDistinct) (hledger : LedgerSound founding s₀) (hsupply : Conserved s₀)
    (hrun : LedgerRun s₀ done s) (hcollision : CollisionFree (founding ++ done)) :
    DividendSound s := by
  induction hrun with
  | start => exact hs
  | empty _ h ih => exact (ih hcollision).advanceEmptyEpochs h
  | block run h ih =>
    rw [← List.append_assoc] at hcollision
    have hbefore := hcollision.left
    exact ((ih hbefore).block hdistinct (hledger.run run hbefore) (hsupply.run run.chainRun)
      hcollision h).1

/-- A state that passes the check. -/
theorem DividendSound.start (hledger : LedgerSound founding s)
    (hcheck : Dividends.checkState s = .ok ())
    (hpast : ∀ a ∈ s.dividendAccounts, a.awardEpoch ≤ s.tipEpoch)
    (hregistry : (s.licenses.map (·.licenseId)).Nodup) (hsize : s.licenses.length < 2 ^ 64)
    (hfresh : s.height = 0 → s.dividendAccounts = []) : DividendSound s := by
  rcases Dividends.checkState_eq_ok.mp hcheck with ⟨hfits, hbacked, hdistinct, hvalid, hreserve⟩
  refine ⟨⟨hreserve, hdistinct, hvalid, hpast, hregistry, hsize⟩, hfits, hbacked, fun hzero =>
    ⟨hfresh hzero, ?_⟩⟩
  have hnone : s.utxos = [] := by
    rw [List.eq_nil_iff_forall_not_mem]
    intro u hu
    have hcreated := hledger.outputs.recorded.created u.outpoint (List.mem_map_of_mem hu)
    rw [hledger.empty hzero] at hcreated
    exact absurd hcreated List.not_mem_nil
  rw [hnone]
  rfl

/-- Accounting of dividends over whole chains.  The start state passes the check and has no
account of a later award, its licences have different identifiers, and its outputs add up
to the issuance and come from transactions that cannot be applied again.  Then at every
point of a chain the reserve is what the accounts hold, the treasury covers it and every
licence has at most one account; the transition of an epoch never fails; expiry gives the
unclaimed remainder back; and a block lowers the reserve and the treasury by the claims
it confirms. -/
theorem dividend_accounting {founding done : List TransactionV1} {s₀ s : DevnetState}
    (hdistinct : BootstrapIdsDistinct) (hcheck : Dividends.checkState s₀ = .ok ())
    (hpast : ∀ a ∈ s₀.dividendAccounts, a.awardEpoch ≤ s₀.tipEpoch)
    (hregistry : (s₀.licenses.map (·.licenseId)).Nodup) (hsize : s₀.licenses.length < 2 ^ 64)
    (hfresh : s₀.height = 0 → s₀.dividendAccounts = []) (hsupply : Conserved s₀)
    (hledger : LedgerSound founding s₀) (hrun : LedgerRun s₀ done s)
    (hcollision : CollisionFree (founding ++ done)) :
    (claimable s.dividendAccounts = s.treasuryReservedDividendStrikes.toNat ∧
        s.treasuryReservedDividendStrikes.toNat ≤ treasuryValue s.utxos ∧
        (s.dividendAccounts.map (·.licenseId)).Nodup ∧ Dividends.checkState s = .ok ()) ∧
      (∀ n s₁, emptyEpochs n s = .ok s₁ → s.tipEpoch.toNat + n < 2 ^ 64 →
        ∀ epoch, s₁.tipEpoch < epoch ∨ s₁.height = 0 → ∀ licenses events, ∃ s₂,
          Dividends.processEpoch { s₁ with licenses := licenses, offenseEvents := events } epoch =
            .ok s₂) ∧
      (∀ epoch, ∃ returned s₁ before after,
        Dividends.expireAccounts s epoch = .ok (returned, s₁) ∧
          returned.toNat = claimable (lapsed s.dividendAccounts epoch) ∧
          treasuryState s s.utxos = .ok before ∧ treasuryState s₁ s₁.utxos = .ok after ∧
          after.availableStrikes.toNat = before.availableStrikes.toNat + returned.toNat) ∧
      ∀ header txs operations s', validateAndApplyBlock s header txs operations = .ok s' →
        CollisionFree (founding ++ done ++ appliedTxs s txs operations) →
        claimsOf operations ≠ [] → ∃ coinbase ordinary next, txs = coinbase :: ordinary ∧
          advanceToBlock s header.core.epoch = .ok next ∧
          s'.treasuryReservedDividendStrikes.toNat + claimedStrikes operations =
            next.treasuryReservedDividendStrikes.toNat ∧
          treasuryValue s'.utxos + claimedStrikes operations = treasuryValue s.utxos +
            (paidForLicenses ordinary + toTreasury coinbase.core.outputs) := by
  have hstart := DividendSound.start hledger hcheck hpast hregistry hsize hfresh
  have hs := hstart.run hdistinct hledger hsupply hrun hcollision
  refine ⟨⟨hs.reserve, hs.backed, hs.nodup_ids, hs.checkState⟩, ?_, hs.expireAccounts, ?_⟩
  · intro n s₁ hepochs hn epoch hdue licenses events
    exact (hs.emptyEpochs hepochs hn).processEpoch hdue licenses events
  · intro header txs operations s' hblock hnew hclaims
    rcases hs.block hdistinct (hledger.run hrun hcollision) (hsupply.run hrun.chainRun) hnew
      hblock with ⟨-, htreasury⟩
    rcases htreasury hclaims with ⟨coinbase, ordinary, rfl, hflow⟩
    rcases hflow.reserve with ⟨next, hnext, hreserve⟩
    exact ⟨coinbase, ordinary, next, rfl, hnext, hreserve, hflow.treasury⟩

end Blocks

/-! ## A chain with a claim -/

section Evaluation

attribute [local instance] devnetCrypto

/-- A transaction that gave the treasury its funds. -/
def fundingTx : TransactionV1 where
  core :=
    { version := 1
      networkId := devnetNetworkId
      validFromEpoch := 0
      expiryEpoch := 0
      inputs := [.coinbase
        { blockEpoch := 0
          blockHeight := 1
          parentBlockHash := 0
          protocolOperationsRoot := 0 }]
      outputs := [
        { amountStrikes := 1000
          outputType := outputTreasury
          payload := Bytes.b32 (treasuryIdForNetwork devnetNetworkId) }] }
  witnesses := []

/-- A state shortly after an award to its only licence. -/
def awardedState (l : LicenseState) : DevnetState :=
  { emptyState 10 devnetNetworkId 0 devnetGenesisId [l] with
    height := 1
    tipEpoch := 131100
    totalIssuedStrikes := 1000
    treasuryReservedDividendStrikes := 500
    dividendAccounts := [
      { licenseIdText := l.licenseIdText
        awardEpoch := 131072
        claimDeadlineEpoch := 196608
        claimableStrikes := 500 }]
    miningPresence := [
      { licenseIdText := l.licenseIdText
        miningKeySequence := 0
        lastPresenceEpoch := 131100
        lastPresenceOperationId := 0 }]
    utxos := createdUtxos fundingTx 0 1 false }

/-- The payment of a claim of 200 from an output of 1000. -/
def claimPayment (s : DevnetState) (l : LicenseState) (u : UtxoState) : TransactionCoreV1 where
  version := 1
  networkId := s.networkId
  validFromEpoch := 0
  expiryEpoch := 0
  inputs := [.outpoint u.outpoint]
  outputs := [
    { amountStrikes := 200
      outputType := outputPubkeyHash
      payload := Bytes.b32 l.paymentAddressId },
    { amountStrikes := 800
      outputType := outputTreasury
      payload := Bytes.b32 (treasuryIdForNetwork s.networkId) }]

/-- A block with a claim that another node receives: the state before it, its
transactions and operations, and the state after it. -/
def claimedChain : Except String (DevnetState × HeaderV1 × List TransactionV1 ×
    List ProtocolOperationV1 × DevnetState) := do
  let l ← okOr bootstrapLicenseStates.head? "no licence"
  let s := awardedState l
  let u ← okOr s.utxos.head? "no output"
  let core := claimPayment s l u
  let txid := (TransactionV1.mk core []).txid
  let claim : DividendClaimV1 :=
    { licenseId := l.licenseId
      expectedOwnerSequence := 0
      amountStrikes := 200
      destinationAddressId := l.paymentAddressId
      paymentTxid := txid
      ownerSignature := 0 }
  let payment ← pendingFromTransaction s
    { core := core
      witnesses := [WitnessV1.protocolAuth claim.operation.operationId] }
  let miner := { s with
    mempool := [payment]
    pendingProtocolOperations := [⟨claim.operation.encode, some txid⟩] }
  let mined ← mineEpochWithSigner miner (nextMineableEpoch miner) none
  let block ← okOr mined.blocks.getLast? "no block was mined"
  let payload ← encodeBlockPayload block
  let (header, txs, operations) ← decodeBlockPayload payload
  let s' ← validateAndApplyBlock s header txs operations
  .ok (s, header, txs, operations, s')

/-- The outputs of the state are those of the one transaction on record. -/
theorem ledgerSound_awardedState (l : LicenseState) :
    LedgerSound [fundingTx] (awardedState l) := by
  have hinputs : fundingTx.outpoints = [] := rfl
  refine ⟨⟨⟨?_, ?_, ?_⟩, nodup_createdUtxos (by decide)⟩, ?_, ?_, ?_⟩
  · intro o ho
    rw [outpoint_createdUtxos o ho]
    exact List.mem_singleton_self _
  · intro tx htx o ho
    rw [List.mem_singleton.mp htx, hinputs] at ho
    exact absurd ho List.not_mem_nil
  · intro tx htx o ho
    rw [List.mem_singleton.mp htx, hinputs] at ho
    exact absurd ho List.not_mem_nil
  · intro tx htx c hc
    rw [List.mem_singleton.mp htx] at hc
    cases List.mem_singleton.mp hc
    exact UInt64.zero_le
  · intro hzero
    exact absurd hzero (by decide : (1 : UInt64) ≠ 0)
  · exact (by decide : 1 ≤ 131100)

theorem conserved_awardedState (l : LicenseState) : Conserved (awardedState l) where
  supply := rfl
  distinct := nodup_createdUtxos (by decide)

/-- Test that transactions with one identifier have one core. -/
def noCollision (txs : List TransactionV1) : Bool :=
  txs.all fun a => txs.all fun b => a.txid != b.txid || a.core == b.core

theorem collisionFree_of_noCollision {txs : List TransactionV1} (h : noCollision txs = true) :
    CollisionFree txs := by
  intro a ha b hb heq
  have hpair := List.all_eq_true.mp (List.all_eq_true.mp h a ha) b hb
  simpa [heq] using hpair

/-- A chain on which a licence claims 200 of an award of 500. -/
theorem dividend_accounting_claimed :
    ∃ (founding done : List TransactionV1) (s₀ s : DevnetState), BootstrapIdsDistinct ∧
      Dividends.checkState s₀ = .ok () ∧
      (∀ a ∈ s₀.dividendAccounts, a.awardEpoch ≤ s₀.tipEpoch) ∧
      (s₀.licenses.map (·.licenseId)).Nodup ∧ s₀.licenses.length < 2 ^ 64 ∧
      (s₀.height = 0 → s₀.dividendAccounts = []) ∧ Conserved s₀ ∧ LedgerSound founding s₀ ∧
      LedgerRun s₀ done s ∧ CollisionFree (founding ++ done) ∧
      s₀.treasuryReservedDividendStrikes = 500 ∧ s.treasuryReservedDividendStrikes = 300 ∧
      claimable s.dividendAccounts = 300 ∧ Dividends.checkState s = .ok () := by
  have hcheck : okAnd claimedChain (fun r =>
      (okAnd (Dividends.checkState r.1) fun _ => true) &&
        noCollision (fundingTx :: appliedTxs r.1 r.2.2.1 r.2.2.2.1) &&
        r.2.2.2.2.treasuryReservedDividendStrikes == 300) = true := by
    decide +kernel
  rcases exists_of_okAnd hcheck with ⟨⟨s₀, header, txs, operations, s⟩, hchain, htest⟩
  simp only [Bool.and_eq_true, beq_iff_eq] at htest
  rcases htest with ⟨⟨hstart, hpairs⟩, hreserve⟩
  rcases exists_of_okAnd hstart with ⟨_, hstart, -⟩
  simp only [claimedChain, ok_rules, Prod.mk.injEq] at hchain
  rcases hchain with ⟨l, -, u, -, payment, -, mined, -, block, -, payload, -,
    ⟨header', txs', operations'⟩, -, s', hblock, rfl, rfl, rfl, rfl, rfl⟩
  dsimp only at hstart hpairs hreserve hblock
  have hcollision := collisionFree_of_noCollision hpairs
  have hpast : ∀ a ∈ (awardedState l).dividendAccounts,
      a.awardEpoch ≤ (awardedState l).tipEpoch := by
    intro a ha
    rw [List.mem_singleton.mp ha]
    exact (by decide : (131072 : UInt64) ≤ 131100)
  have hheight : (awardedState l).height = 0 → (awardedState l).dividendAccounts = [] :=
    fun hzero => absurd hzero (by decide : (1 : UInt64) ≠ 0)
  have hsize : (awardedState l).licenses.length < 2 ^ 64 := (by decide : 1 < 2 ^ 64)
  have hrun := LedgerRun.block .start hblock
  have hall := dividend_accounting bootstrapIdsDistinct_devnetCrypto hstart hpast
    (List.nodup_singleton _) hsize hheight (conserved_awardedState l)
    (ledgerSound_awardedState l) hrun hcollision
  refine ⟨_, _, _, _, bootstrapIdsDistinct_devnetCrypto, hstart, hpast, List.nodup_singleton _,
    hsize, hheight, conserved_awardedState l, ledgerSound_awardedState l, hrun, hcollision, rfl,
    hreserve, ?_, hall.1.2.2.2⟩
  rw [hall.1.1, hreserve]
  rfl

/-- A state that passes the check with an account of an award to come, for which the
transition of that epoch fails. -/
theorem future_award_fails_epoch :
    ∃ s : DevnetState, Dividends.checkState s = .ok () ∧
      claimable s.dividendAccounts = s.treasuryReservedDividendStrikes.toNat ∧
      s.treasuryReservedDividendStrikes.toNat ≤ treasuryValue s.utxos ∧
      (s.dividendAccounts.map (·.licenseId)).Nodup ∧ s.tipEpoch = 131071 ∧
      Dividends.processEpoch s 131072 = .error "duplicate dividend award epoch transition" := by
  have hcheck : okAnd (okOr bootstrapLicenseStates.head? "no licence") (fun l =>
      let s := { awardedState l with tipEpoch := 131071 }
      decide (Dividends.checkState s = .ok ()) && decide (Dividends.processEpoch s 131072 =
        .error "duplicate dividend award epoch transition")) = true := by
    decide +kernel
  rcases exists_of_okAnd hcheck with ⟨l, -, htest⟩
  simp only [Bool.and_eq_true, decide_eq_true_eq] at htest
  rcases htest with ⟨hstate, herror⟩
  exact ⟨_, hstate, rfl, (by decide : 500 ≤ 1000), List.nodup_singleton _, rfl, herror⟩

end Evaluation

end Mutiny
