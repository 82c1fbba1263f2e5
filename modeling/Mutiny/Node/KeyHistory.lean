import Mutiny.Node.ChainTrace

/-!
# Key history

Evidence speaks of a key by its sequence number, and the node looks it up among the
current keys of the licence and the entries recorded at each transfer and rotation.
Here is what those lookups find in any state of a chain.

Main result:

- Theorem {lit}`keyHistory_complete`: every sequence has one stretch of the chain, and its
  keys are found.
-/

namespace Mutiny

open Result Lists

/-! ## The history of a chain -/

/-- The keys an entry records. -/
def HistoricalLicenseKeyState.keys (h : HistoricalLicenseKeyState) : HistoricalLicenseKeysV1 where
  ownerPublicKey := h.ownerPublicKey
  ownerKeySequence := h.ownerKeySequence
  miningPublicKey := h.miningPublicKey
  miningKeySequence := h.miningKeySequence

/-- The entries recorded for a licence. -/
def DevnetState.entriesOf (s : DevnetState) (id : Bytes32) : List HistoricalLicenseKeyState :=
  s.historicalLicenseKeys.filter fun h => h.licenseIdText == .encode id

variable {id : Bytes32}

theorem mem_entriesOf {s : DevnetState} {h : HistoricalLicenseKeyState} :
    h ∈ s.entriesOf id ↔
      h ∈ s.historicalLicenseKeys ∧ h.licenseIdText.IsLower ∧ h.licenseId = id := by
  rw [DevnetState.entriesOf, List.mem_filter, beq_iff_eq, HexText.eq_encode]
  rfl

/-- One more than the mining sequence of a licence, and zero before it exists. -/
def miningRank (id : Bytes32) (s : DevnetState) : Nat :=
  match s.keysInForce id with
  | none => 0
  | some k => k.miningKeySequence.toNat + 1

theorem miningRank_of_some {s : DevnetState} {k : HistoricalLicenseKeysV1}
    (h : s.keysInForce id = some k) : miningRank id s = k.miningKeySequence.toNat + 1 := by
  rw [miningRank, h]

/-- A transfer or a rotation of a licence that names its current sequences. -/
inductive NamesKeys (op : ProtocolOperationV1) (id : Bytes32) (ownerSequence : UInt32)
    (miningSequence : UInt32) : Prop
  | transfer (t : LicenseTransferV1) (hop : op = t.operation) (hid : t.licenseId = id)
      (hexpected : t.expectedOwnerSequence = ownerSequence ∧
        t.expectedMiningSequence = miningSequence)
  | rotation (r : MiningKeyRotateV1) (hop : op = r.operation) (hid : r.licenseId = id)
      (hexpected : r.expectedOwnerSequence = ownerSequence ∧
        r.expectedMiningSequence = miningSequence)

/-- An operation names one licence and one pair of sequences. -/
theorem NamesKeys.unique {op : ProtocolOperationV1} {id' : Bytes32}
    {ownerSequence miningSequence ownerSequence' miningSequence' : UInt32}
    (h : NamesKeys op id ownerSequence miningSequence)
    (h' : NamesKeys op id' ownerSequence' miningSequence') :
    id = id' ∧ ownerSequence = ownerSequence' ∧ miningSequence = miningSequence' := by
  have htypes : opLicenseTransfer ≠ opLicenseMiningKeyRotate := by decide
  cases h with
  | transfer t hop hid hexpected =>
    cases h' with
    | transfer t' hop' hid' hexpected' =>
      have hsame := decodeLicenseTransferOperation_eq_ok.mpr hop
      rw [decodeLicenseTransferOperation_eq_ok.mpr hop', Except.ok.injEq] at hsame
      subst hsame
      exact ⟨hid.symm.trans hid', hexpected.1.symm.trans hexpected'.1,
        hexpected.2.symm.trans hexpected'.2⟩
    | rotation r hop' hid' hexpected' =>
      rw [hop] at hop'
      exact absurd (congrArg ProtocolOperationV1.opType hop') htypes
  | rotation r hop hid hexpected =>
    cases h' with
    | transfer t' hop' hid' hexpected' =>
      rw [hop] at hop'
      exact absurd (congrArg ProtocolOperationV1.opType hop') htypes.symm
    | rotation r' hop' hid' hexpected' =>
      have hsame := decodeMiningKeyRotationOperation_eq_ok.mpr hop
      rw [decodeMiningKeyRotationOperation_eq_ok.mpr hop', Except.ok.injEq] at hsame
      subst hsame
      exact ⟨hid.symm.trans hid', hexpected.1.symm.trans hexpected'.1,
        hexpected.2.symm.trans hexpected'.2⟩

/-- A chain without recorded keys, all of whose licences have their first keys. -/
structure FreshKeys (s : DevnetState) : Prop where
  history : s.historicalLicenseKeys = []
  sequences : ∀ l ∈ s.licenses, l.ownerKeySequence = 0 ∧ l.miningKeySequence = 0

section Chains

variable [Crypto]

/-- What the recorded entries say about the states a chain has gone through. -/
structure KeyHistory (visited : List DevnetState) (ops : List ProtocolOperationV1)
    (s : DevnetState) : Prop where
  reached : s ∈ visited
  written : ∀ h ∈ s.historicalLicenseKeys, h.licenseIdText.IsLower
  known : ∀ h ∈ s.historicalLicenseKeys, s.keysInForce h.licenseId ≠ none
  -- one entry for each mining sequence below the current one
  recorded : ∀ id k, s.keysInForce id = some k →
    ((s.entriesOf id).map (·.miningKeySequence.toNat)).Perm
      (List.range k.miningKeySequence.toNat)
  owners : ∀ h ∈ s.historicalLicenseKeys, ∀ k, s.keysInForce h.licenseId = some k →
    h.ownerKeySequence.toNat ≤ k.ownerKeySequence.toNat
  complete : ∀ v ∈ visited, ∀ id k, v.keysInForce id = some k →
    s.keysInForce id = some k ∨ ∃ h ∈ s.entriesOf id, h.keys = k
  actual : ∀ h ∈ s.historicalLicenseKeys, ∃ v ∈ visited, v.keysInForce h.licenseId = some h.keys
  ordered : ∀ id, visited.Pairwise fun v w => miningRank id v ≤ miningRank id w
  authored : ∀ h ∈ s.historicalLicenseKeys, ∃ op ∈ ops, op.operationId = h.operationId ∧
    NamesKeys op h.licenseId h.ownerKeySequence h.miningKeySequence

namespace KeyHistory

variable {visited : List DevnetState} {ops : List ProtocolOperationV1} {s s' : DevnetState}
  {id : Bytes32}

/-- An entry has a mining sequence below the current one. -/
theorem sequence_lt (hist : KeyHistory visited ops s) {k : HistoricalLicenseKeysV1}
    (hk : s.keysInForce id = some k) {h : HistoricalLicenseKeyState} (hh : h ∈ s.entriesOf id) :
    h.miningKeySequence.toNat < k.miningKeySequence.toNat := by
  have hmem := (hist.recorded id k hk).subset (List.mem_map_of_mem hh)
  exact List.mem_range.mp hmem

/-- No state gone through is ahead of the current one. -/
theorem rank_le (hist : KeyHistory visited ops s) {v : DevnetState} (hv : v ∈ visited)
    (id : Bytes32) : miningRank id v ≤ miningRank id s := by
  unfold miningRank
  cases hvk : v.keysInForce id with
  | none => exact Nat.zero_le _
  | some k =>
    rcases hist.complete v hv id k hvk with hcurrent | ⟨h, hh, rfl⟩
    · rw [hcurrent]
    · have hknown := hist.known h (mem_entriesOf.mp hh).1
      rw [(mem_entriesOf.mp hh).2.2] at hknown
      rcases Option.ne_none_iff_exists'.mp hknown with ⟨current, hcurrent⟩
      rw [hcurrent]
      exact Nat.succ_le_succ (hist.sequence_lt hcurrent hh).le

theorem start (hfresh : FreshKeys s) : KeyHistory [s] [] s := by
  have hzero : ∀ id k, s.keysInForce id = some k → k.miningKeySequence = 0 := by
    intro id k hk
    rcases Option.map_eq_some_iff.mp hk with ⟨l, hl, rfl⟩
    exact (hfresh.sequences l (List.mem_of_find?_eq_some hl)).2
  have hnone : ∀ h, h ∉ s.historicalLicenseKeys := by
    intro h
    rw [hfresh.history]
    exact List.not_mem_nil
  constructor
  · exact List.mem_singleton.mpr rfl
  · exact fun h hh => absurd hh (hnone h)
  · exact fun h hh => absurd hh (hnone h)
  · intro id k hk
    rw [hzero id k hk, DevnetState.entriesOf, hfresh.history]
    exact List.Perm.refl []
  · exact fun h hh => absurd hh (hnone h)
  · intro v hv id k hk
    rw [List.mem_singleton.mp hv] at hk
    exact Or.inl hk
  · exact fun h hh => absurd hh (hnone h)
  · exact fun id => List.pairwise_singleton _ _
  · exact fun h hh => absurd hh (hnone h)

/-- A step that keeps all keys. -/
theorem keeps (hist : KeyHistory visited ops s) (h : KeepsKeys s s')
    (more : List ProtocolOperationV1) : KeyHistory (visited ++ [s']) (ops ++ more) s' := by
  have hstays : ∀ id k, s.keysInForce id = some k → s'.keysInForce id = some k := by
    intro id k hk
    rcases h.inForce id with hsame | ⟨hnone, -⟩
    · rw [hsame, hk]
    · rw [hnone] at hk
      cases hk
  have hentries : ∀ id, s'.entriesOf id = s.entriesOf id := by
    intro id
    rw [DevnetState.entriesOf, h.history, DevnetState.entriesOf]
  have hmono : ∀ id, miningRank id s ≤ miningRank id s' := by
    intro id
    unfold miningRank
    cases hk : s.keysInForce id with
    | none => exact Nat.zero_le _
    | some k => rw [hstays id k hk]
  constructor
  · exact List.mem_append_right _ (List.mem_singleton.mpr rfl)
  · rw [h.history]
    exact hist.written
  · intro e he
    rw [h.history] at he
    rcases Option.ne_none_iff_exists'.mp (hist.known e he) with ⟨k, hk⟩
    rw [hstays _ k hk]
    exact Option.some_ne_none k
  · intro id k hk
    rw [hentries]
    rcases h.inForce id with hsame | ⟨hnone, k', hk', -, hzero⟩
    · exact hist.recorded id k (hsame ▸ hk)
    · -- a new licence has no entries: every entry belongs to a known one
      rw [hk, Option.some.injEq] at hk'
      have hempty : s.entriesOf id = [] := by
        apply List.eq_nil_iff_forall_not_mem.mpr
        intro e he
        rcases mem_entriesOf.mp he with ⟨hmem, -, rfl⟩
        exact hist.known e hmem hnone
      rw [hempty, hk', hzero]
      exact List.Perm.refl []
  · intro e he k hk
    rw [h.history] at he
    rcases Option.ne_none_iff_exists'.mp (hist.known e he) with ⟨k', hk'⟩
    rw [hstays _ k' hk', Option.some.injEq] at hk
    exact hk ▸ hist.owners e he k' hk'
  · intro v hv id k hk
    rcases List.mem_append.mp hv with hv | hv
    · rw [hentries]
      exact (hist.complete v hv id k hk).imp_left (hstays id k)
    · rw [List.mem_singleton.mp hv] at hk
      exact Or.inl hk
  · intro e he
    rw [h.history] at he
    rcases hist.actual e he with ⟨v, hv, hk⟩
    exact ⟨v, List.mem_append_left _ hv, hk⟩
  · intro id
    refine List.pairwise_append.mpr ⟨hist.ordered id, List.pairwise_singleton _ _, ?_⟩
    intro v hv w hw
    rw [List.mem_singleton.mp hw]
    exact (hist.rank_le hv id).trans (hmono id)
  · intro e he
    rw [h.history] at he
    rcases hist.authored e he with ⟨op, hop, hauthored⟩
    exact ⟨op, List.mem_append_left _ hop, hauthored⟩

variable {op : ProtocolOperationV1} {old new : HistoricalLicenseKeysV1}

/-- The entries after a change of keys: the old keys join those of their licence. -/
theorem entriesOf_changes (h : ChangesKeys s op id old new s') :
    ∃ e : HistoricalLicenseKeyState, e.operationId = op.operationId ∧
      e.licenseIdText.IsLower ∧ e.licenseId = id ∧ e.keys = old ∧
      s'.historicalLicenseKeys.Perm (s.historicalLicenseKeys ++ [e]) ∧
      (s'.entriesOf id).Perm (s.entriesOf id ++ [e]) ∧
      ∀ id', id' ≠ id → (s'.entriesOf id').Perm (s.entriesOf id') := by
  refine ⟨_, rfl, HexText.isLower_encode id, rfl, rfl, h.history, ?_, ?_⟩
  · have hperm := h.history.filter fun e => e.licenseIdText == .encode id
    simpa [DevnetState.entriesOf] using hperm
  · intro id' hid
    have hperm := h.history.filter fun e => e.licenseIdText == .encode id'
    simpa [DevnetState.entriesOf, Ne.symm hid] using hperm

/-- A transfer or a rotation: the keys that were in force become an entry. -/
theorem changes (hist : KeyHistory visited ops s) (h : ChangesKeys s op id old new s')
    (hnames : NamesKeys op id old.ownerKeySequence old.miningKeySequence) :
    KeyHistory (visited ++ [s']) (ops ++ [op]) s' := by
  rcases entriesOf_changes h with ⟨e, hop, hlower, hid, hkeys, hall, hof, hothers⟩
  have hseq : e.miningKeySequence = old.miningKeySequence := hkeys ▸ rfl
  have howner : e.ownerKeySequence = old.ownerKeySequence := hkeys ▸ rfl
  have hmem : ∀ e' ∈ s'.historicalLicenseKeys, e' ∈ s.historicalLicenseKeys ∨ e' = e := by
    intro e' he'
    have := hall.subset he'
    rwa [List.mem_append, List.mem_singleton] at this
  -- an entry that was there keeps its licence, whose keys may have moved on
  have hnext : ∀ e' ∈ s.historicalLicenseKeys, ∃ k, s'.keysInForce e'.licenseId = some k ∧
      ∀ k₀, s.keysInForce e'.licenseId = some k₀ →
        k₀.ownerKeySequence.toNat ≤ k.ownerKeySequence.toNat := by
    intro e' he'
    by_cases hsame : e'.licenseId = id
    · refine ⟨new, hsame ▸ h.changed, ?_⟩
      intro k₀ hk₀
      rw [hsame, h.found, Option.some.injEq] at hk₀
      exact hk₀ ▸ h.owner
    · rcases Option.ne_none_iff_exists'.mp (hist.known e' he') with ⟨k, hk⟩
      refine ⟨k, (h.others _ hsame).trans hk, ?_⟩
      intro k₀ hk₀
      rw [hk, Option.some.injEq] at hk₀
      rw [hk₀]
  have hmono : ∀ id', miningRank id' s ≤ miningRank id' s' := by
    intro id'
    by_cases hsame : id' = id
    · rw [hsame, miningRank_of_some h.found, miningRank_of_some h.changed, h.mining]
      exact Nat.le_succ _
    · rw [miningRank, miningRank, h.others id' hsame]
  constructor
  · exact List.mem_append_right _ (List.mem_singleton.mpr rfl)
  · intro e' he'
    rcases hmem e' he' with hold | rfl
    · exact hist.written e' hold
    · exact hlower
  · intro e' he'
    rcases hmem e' he' with hold | rfl
    · rcases hnext e' hold with ⟨k, hk, -⟩
      rw [hk]
      exact Option.some_ne_none k
    · rw [hid, h.changed]
      exact Option.some_ne_none new
  · intro id' k hk
    by_cases hsame : id' = id
    · subst hsame
      rw [h.changed, Option.some.injEq] at hk
      rw [← hk, h.mining, List.range_succ]
      refine (hof.map _).trans ?_
      rw [List.map_append, List.map_singleton, hseq]
      exact (hist.recorded id' old h.found).append_right _
    · rw [h.others id' hsame] at hk
      exact ((hothers id' hsame).map _).trans (hist.recorded id' k hk)
  · intro e' he' k hk
    rcases hmem e' he' with hold | rfl
    · rcases hnext e' hold with ⟨k', hk', hle⟩
      rcases Option.ne_none_iff_exists'.mp (hist.known e' hold) with ⟨k₀, hk₀⟩
      rw [hk', Option.some.injEq] at hk
      exact (hist.owners e' hold k₀ hk₀).trans (hk ▸ hle k₀ hk₀)
    · rw [hid, h.changed, Option.some.injEq] at hk
      rw [howner, ← hk]
      exact h.owner
  · intro v hv id' k hk
    rcases List.mem_append.mp hv with hv | hv
    · by_cases hsame : id' = id
      · subst hsame
        right
        rcases hist.complete v hv id' k hk with hcurrent | ⟨e', he', hkeys'⟩
        · rw [h.found, Option.some.injEq] at hcurrent
          exact ⟨e, hof.mem_iff.mpr (by simp), hkeys.trans hcurrent⟩
        · exact ⟨e', hof.mem_iff.mpr (List.mem_append_left _ he'), hkeys'⟩
      · rw [h.others id' hsame]
        rcases hist.complete v hv id' k hk with hcurrent | ⟨e', he', hkeys'⟩
        · exact Or.inl hcurrent
        · exact Or.inr ⟨e', (hothers id' hsame).mem_iff.mpr he', hkeys'⟩
    · rw [List.mem_singleton.mp hv] at hk
      exact Or.inl hk
  · intro e' he'
    rcases hmem e' he' with hold | rfl
    · rcases hist.actual e' hold with ⟨v, hv, hk⟩
      exact ⟨v, List.mem_append_left _ hv, hk⟩
    · refine ⟨s, List.mem_append_left _ hist.reached, ?_⟩
      rw [hid, h.found, hkeys]
  · intro id'
    refine List.pairwise_append.mpr ⟨hist.ordered id', List.pairwise_singleton _ _, ?_⟩
    intro v hv w hw
    rw [List.mem_singleton.mp hw]
    exact (hist.rank_le hv id').trans (hmono id')
  · intro e' he'
    rcases hmem e' he' with hold | rfl
    · rcases hist.authored e' hold with ⟨op', hop', hauthored⟩
      exact ⟨op', List.mem_append_left _ hop', hauthored⟩
    · refine ⟨op, List.mem_append_right _ (List.mem_singleton.mpr rfl), hop.symm, ?_⟩
      rw [hid, howner, hseq]
      exact hnames

theorem operation {txs : List TransactionV1} {epoch : UInt64} (hist : KeyHistory visited ops s)
    (h : OperationStep txs epoch s op s') :
    KeyHistory (visited ++ [s']) (ops ++ [op]) s' := by
  cases h.keyEffect with
  | keeps hkeeps => exact hist.keeps hkeeps [op]
  | transfer t old new hop hexpected hchanges =>
    exact hist.changes hchanges (.transfer t hop rfl hexpected)
  | rotation r old new hop hexpected hchanges =>
    exact hist.changes hchanges (.rotation r hop rfl hexpected)

theorem of_run {s₀ : DevnetState} (hfresh : FreshKeys s₀) (h : RegistryRun s₀ visited ops s) :
    KeyHistory visited ops s := by
  induction h with
  | start => exact start hfresh
  | quiet _ hkeys _ _ ih => exact ih.keeps hkeys _
  | operation _ hstep ih => exact ih.operation hstep

end KeyHistory

/-! ## Looking keys up -/

variable {s : DevnetState} {id : Bytes32}

omit [Crypto] in
theorem licenseById_of_inForce {k : HistoricalLicenseKeysV1} (h : s.keysInForce id = some k) :
    ∃ l, licenseById s id = .ok l ∧ l.record.historicalKeys = k := by
  rcases Option.map_eq_some_iff.mp h with ⟨l, hl, hk⟩
  exact ⟨l, okOr_eq_ok.mpr hl, hk⟩

variable {l : LicenseState}

omit [Crypto] in
theorem miningKeyAtSequence_current (hl : licenseById s id = .ok l) :
    miningKeyAtSequence s id l.miningKeySequence = .ok (some l.miningPublicKey) := by
  rw [miningKeyAtSequence, hl, ok_bind, if_neg (UInt32.lt_irrefl _), if_pos rfl]

omit [Crypto] in
theorem ownerKeyAtSequences_current (hl : licenseById s id = .ok l) :
    ownerKeyAtSequences s id l.ownerKeySequence l.miningKeySequence =
      .ok (some l.ownerPublicKey) := by
  have hreached : ¬(l.ownerKeySequence < l.ownerKeySequence ∨
      l.miningKeySequence < l.miningKeySequence) := by
    rw [not_or]
    exact ⟨UInt32.lt_irrefl _, UInt32.lt_irrefl _⟩
  rw [ownerKeyAtSequences, hl, ok_bind, if_neg hreached, if_pos ⟨rfl, rfl⟩]

variable {e : HistoricalLicenseKeyState}

omit [Crypto] in
theorem miningKeyAtSequence_entry (hl : licenseById s id = .ok l)
    (hlt : e.miningKeySequence < l.miningKeySequence)
    (he : (s.entriesOf id).filter (fun h => h.miningKeySequence == e.miningKeySequence) = [e]) :
    miningKeyAtSequence s id e.miningKeySequence = .ok (some e.miningPublicKey) := by
  have hentries : (s.historicalLicenseKeys.filter fun h =>
      h.licenseIdText == .encode id && h.miningKeySequence == e.miningKeySequence) = [e] := by
    rw [← he, DevnetState.entriesOf, List.filter_filter]
    simp only [Bool.and_comm]
  rw [miningKeyAtSequence, hl, ok_bind, if_neg (UInt32.lt_asymm hlt),
    if_neg (UInt32.ne_of_lt hlt), hentries]
  rfl

omit [Crypto] in
theorem ownerKeyAtSequences_entry (hl : licenseById s id = .ok l)
    (hlt : e.miningKeySequence < l.miningKeySequence)
    (hle : e.ownerKeySequence ≤ l.ownerKeySequence)
    (he : (s.entriesOf id).filter (fun h => h.miningKeySequence == e.miningKeySequence) = [e]) :
    ownerKeyAtSequences s id e.ownerKeySequence e.miningKeySequence =
      .ok (some e.ownerPublicKey) := by
  have hentries : (s.historicalLicenseKeys.filter fun h => h.licenseIdText == .encode id &&
      h.ownerKeySequence == e.ownerKeySequence &&
        h.miningKeySequence == e.miningKeySequence) = [e] := by
    have hof : ((s.entriesOf id).filter fun h =>
        h.miningKeySequence == e.miningKeySequence).filter
          (fun h => h.ownerKeySequence == e.ownerKeySequence) = [e] := by
      rw [he]
      simp
    rw [← hof, DevnetState.entriesOf, List.filter_filter, List.filter_filter]
    apply List.filter_congr
    intro h _
    cases h.licenseIdText == .encode id <;> cases h.ownerKeySequence == e.ownerKeySequence <;> simp
  have hreached : ¬(l.ownerKeySequence < e.ownerKeySequence ∨
      l.miningKeySequence < e.miningKeySequence) := by
    rw [not_or]
    exact ⟨UInt32.not_lt.mpr hle, UInt32.lt_asymm hlt⟩
  rw [ownerKeyAtSequences, hl, ok_bind, if_neg hreached,
    if_neg (fun h => UInt32.ne_of_lt hlt h.2), hentries]
  rfl

namespace KeyHistory

variable {visited : List DevnetState} {ops : List ProtocolOperationV1} {s : DevnetState}
  {id : Bytes32} {k : HistoricalLicenseKeysV1} (hist : KeyHistory visited ops s)

include hist

/-- The entry of an earlier mining sequence is the only one. -/
theorem entries_eq_singleton (hk : s.keysInForce id = some k)
    {e : HistoricalLicenseKeyState} (he : e ∈ s.entriesOf id) :
    (s.entriesOf id).filter (fun h => h.miningKeySequence == e.miningKeySequence) = [e] := by
  apply filter_eq_singleton
  · have hnodup := (hist.recorded id k hk).nodup_iff.mpr List.nodup_range
    have hmap : (s.entriesOf id).map (·.miningKeySequence.toNat) =
        ((s.entriesOf id).map (·.miningKeySequence)).map UInt32.toNat := by
      rw [List.map_map]
      rfl
    rw [hmap] at hnodup
    exact hnodup.of_map
  · exact he

variable {q : UInt32}

/-- There is an entry for every earlier mining sequence. -/
theorem exists_entry (hk : s.keysInForce id = some k)
    (hq : q < k.miningKeySequence) : ∃ e ∈ s.entriesOf id, e.miningKeySequence = q := by
  have hmem : q.toNat ∈ List.range k.miningKeySequence.toNat :=
    List.mem_range.mpr (UInt32.lt_iff_toNat_lt.mp hq)
  rcases List.mem_map.mp ((hist.recorded id k hk).mem_iff.mpr hmem) with ⟨e, he, heq⟩
  exact ⟨e, he, UInt32.toNat_inj.mp heq⟩

/-- The keys of any state gone through are the keys found under their sequences. -/
theorem lookup_of_visited {v : DevnetState} (hv : v ∈ visited)
    {ks : HistoricalLicenseKeysV1} (hks : v.keysInForce id = some ks) :
    miningKeyAtSequence s id ks.miningKeySequence = .ok (some ks.miningPublicKey) ∧
      ownerKeyAtSequences s id ks.ownerKeySequence ks.miningKeySequence =
        .ok (some ks.ownerPublicKey) := by
  rcases hist.complete v hv id ks hks with hcurrent | ⟨e, he, rfl⟩
  · rcases licenseById_of_inForce hcurrent with ⟨l, hl, rfl⟩
    exact ⟨miningKeyAtSequence_current hl, ownerKeyAtSequences_current hl⟩
  · rcases mem_entriesOf.mp he with ⟨hmem, -, rfl⟩
    rcases Option.ne_none_iff_exists'.mp (hist.known e hmem) with ⟨k, hk⟩
    rcases licenseById_of_inForce hk with ⟨l, hl, rfl⟩
    have hlt := UInt32.lt_iff_toNat_lt.mpr (hist.sequence_lt hk he)
    have hle := UInt32.le_iff_toNat_le.mpr (hist.owners e hmem _ hk)
    have hone := hist.entries_eq_singleton hk he
    exact ⟨miningKeyAtSequence_entry hl hlt hone, ownerKeyAtSequences_entry hl hlt hle hone⟩

/-- Every mining sequence up to the current one was in force in some state. -/
theorem exists_visited (hk : s.keysInForce id = some k)
    (hq : q ≤ k.miningKeySequence) :
    ∃ v ∈ visited, ∃ ks, v.keysInForce id = some ks ∧ ks.miningKeySequence = q := by
  rcases UInt32.lt_or_eq_of_le hq with hlt | rfl
  · rcases hist.exists_entry hk hlt with ⟨e, he, rfl⟩
    rcases mem_entriesOf.mp he with ⟨hmem, -, rfl⟩
    rcases hist.actual e hmem with ⟨v, hv, hks⟩
    exact ⟨v, hv, e.keys, hks, rfl⟩
  · exact ⟨s, hist.reached, k, hk, rfl⟩

/-- A key that is found under a sequence was in force at it. -/
theorem visited_of_lookup {key : Bytes32}
    (h : miningKeyAtSequence s id q = .ok (some key)) :
    ∃ v ∈ visited, ∃ l, v.findLicense id = some l ∧ l.miningKeySequence = q ∧
      l.miningPublicKey = key := by
  have hlookup := h
  rw [miningKeyAtSequence, bind_eq_ok] at h
  rcases h with ⟨current, hcurrent, h⟩
  have hreached : q ≤ current.miningKeySequence := by
    apply UInt32.not_lt.mp
    intro hlt
    rw [if_pos hlt] at h
    cases h
  rcases hist.exists_visited (keysInForce_of_find (okOr_eq_ok.mp hcurrent)) hreached with
    ⟨v, hv, ks, hks, rfl⟩
  rcases Option.map_eq_some_iff.mp hks with ⟨l, hl, rfl⟩
  have hfound := (hist.lookup_of_visited hv hks).1
  rw [hlookup, Except.ok.injEq, Option.some.injEq] at hfound
  exact ⟨v, hv, l, hl, rfl, hfound.symm⟩

end KeyHistory

/-! ## Whole chains -/

/-- A mining sequence of a licence was in force in one unbroken stretch of a chain, and
with one key. -/
def InForceOnce (visited : List DevnetState) (id : Bytes32) (sequence : UInt32)
    (key : Bytes32) : Prop :=
  ∃ before during after, visited = before ++ during ++ after ∧ during ≠ [] ∧
    (∀ v ∈ during, ∃ l, v.findLicense id = some l ∧ l.miningKeySequence = sequence ∧
      l.miningPublicKey = key) ∧
    ∀ v ∈ before ++ after, ∀ l, v.findLicense id = some l → l.miningKeySequence ≠ sequence

variable {visited : List DevnetState} {ops : List ProtocolOperationV1}

theorem KeyHistory.inForceOnce (hist : KeyHistory visited ops s) {q : UInt32} {key : Bytes32}
    (hkey : miningKeyAtSequence s id q = .ok (some key)) {v : DevnetState} (hv : v ∈ visited)
    {ks : HistoricalLicenseKeysV1} (hks : v.keysInForce id = some ks)
    (hq : ks.miningKeySequence = q) : InForceOnce visited id q key := by
  -- the stretch is the part of the chain whose rank is that of the sequence
  have hrank : ∀ w : DevnetState, ∀ l, w.findLicense id = some l →
      miningRank id w = l.miningKeySequence.toNat + 1 := by
    intro w l hl
    exact miningRank_of_some (keysInForce_of_find hl)
  refine ⟨_, _, _, filter_split_of_pairwise (hist.ordered id) (q.toNat + 1), ?_, ?_, ?_⟩
  · apply List.ne_nil_of_mem (a := v)
    rw [List.mem_filter, miningRank_of_some hks, hq]
    exact ⟨hv, decide_eq_true rfl⟩
  · intro w hw
    rcases List.mem_filter.mp hw with ⟨hmem, heq⟩
    rw [decide_eq_true_eq] at heq
    cases hl : w.findLicense id with
    | none =>
      rw [miningRank, DevnetState.keysInForce, hl] at heq
      cases heq
    | some l =>
      rw [hrank w l hl, Nat.succ.injEq, UInt32.toNat_inj] at heq
      refine ⟨l, rfl, heq, ?_⟩
      have hlookup := (hist.lookup_of_visited hmem (keysInForce_of_find hl)).1
      have hsame : miningKeyAtSequence s id q = .ok (some l.miningPublicKey) := heq ▸ hlookup
      rw [hkey, Except.ok.injEq, Option.some.injEq] at hsame
      exact hsame.symm
  · intro w hw l hl heq
    simp only [List.mem_append, List.mem_filter, decide_eq_true_eq, hrank w l hl, heq] at hw
    omega

/-- A chain that starts without recorded keys keeps a complete history of them. -/
theorem keyHistory_of_trace {s₀ : DevnetState} (hfresh : FreshKeys s₀)
    (htrace : ChainTrace s₀ visited ops s) : KeyHistory visited ops s :=
  .of_run hfresh htrace.registryRun

/-- An entry that an operation on the current keys collides with was recorded for
another operation. -/
theorem KeyHistory.collision (hist : KeyHistory visited ops s) (hl : s.findLicense id = some l)
    {op : ProtocolOperationV1} (hnames : NamesKeys op id l.ownerKeySequence l.miningKeySequence)
    {h : HistoricalLicenseKeyState} (hh : h ∈ s.historicalLicenseKeys)
    (hsame : h.operationId = op.operationId) :
    ∃ accepted ∈ ops, accepted.encode ≠ op.encode ∧ accepted.operationId = op.operationId := by
  rcases hist.authored h hh with ⟨accepted, hmem, hid, hauthored⟩
  refine ⟨accepted, hmem, ?_, hid.trans hsame⟩
  intro hencode
  rw [ProtocolOperationV1.encode_inj] at hencode
  subst hencode
  rcases hauthored.unique hnames with ⟨rfl, -, hmining⟩
  have hlt := hist.sequence_lt (keysInForce_of_find hl)
    (mem_entriesOf.mpr ⟨hh, hist.written h hh, rfl⟩)
  rw [hmining] at hlt
  exact lt_irrefl _ hlt

/-- In any state of a chain that started without recorded keys: every mining sequence of
a licence up to the current one was in force in one stretch of the chain, and looking it
up finds the key of that stretch; looking up the sequences of any state the chain went
through finds the owner key of that state; and the check for repeated operation
identifiers stops an operation on the current keys only when two different operations
have one identifier. -/
theorem keyHistory_complete {s₀ s : DevnetState} {visited : List DevnetState}
    {ops : List ProtocolOperationV1} (hfresh : FreshKeys s₀)
    (htrace : ChainTrace s₀ visited ops s) :
    (∀ id l, s.findLicense id = some l → ∀ q ≤ l.miningKeySequence,
      ∃ key, miningKeyAtSequence s id q = .ok (some key) ∧ InForceOnce visited id q key) ∧
    (∀ v ∈ visited, ∀ id l, v.findLicense id = some l →
      ownerKeyAtSequences s id l.ownerKeySequence l.miningKeySequence =
        .ok (some l.ownerPublicKey)) ∧
    ∀ id l, s.findLicense id = some l → ∀ op,
      NamesKeys op id l.ownerKeySequence l.miningKeySequence →
      (∃ h ∈ s.historicalLicenseKeys, h.operationId = op.operationId) →
      ∃ accepted ∈ ops, accepted.encode ≠ op.encode ∧ accepted.operationId = op.operationId := by
  have hist := keyHistory_of_trace hfresh htrace
  refine ⟨?_, ?_, ?_⟩
  · intro id l hl q hq
    rcases hist.exists_visited (keysInForce_of_find hl) hq with ⟨v, hv, ks, hks, rfl⟩
    have hkey := (hist.lookup_of_visited hv hks).1
    exact ⟨_, hkey, hist.inForceOnce hkey hv hks rfl⟩
  · intro v hv id l hl
    exact (hist.lookup_of_visited hv (keysInForce_of_find hl)).2
  · intro id l hl op hnames hrecorded
    rcases hrecorded with ⟨h, hh, hsame⟩
    exact hist.collision hl hnames hh hsame

/-! ## A Devnet chain -/

/-- The fee ticket of a licence, paid with an output of its owner. -/
def feeTicket (s : DevnetState) (l : LicenseState) (u : UtxoState) : TransactionV1 where
  core :=
    { version := 1
      networkId := s.networkId
      validFromEpoch := 0
      expiryEpoch := 0
      inputs := [.outpoint u.outpoint]
      outputs := [
        { amountStrikes := authorityFeeMarker l.licenseId
          outputType := outputPubkeyHash
          payload := Bytes.b32 l.paymentAddressId }] }
  witnesses := [.pubkeyHash l.ownerPublicKey 0]

/-- A rotation of the mining key of a licence to the key it already has. -/
def rotationToSameKey (l : LicenseState) : MiningKeyRotateV1 where
  licenseId := l.licenseId
  expectedOwnerSequence := l.ownerKeySequence
  expectedMiningSequence := l.miningKeySequence
  newMiningPublicKey := l.miningPublicKey
  ownerSignature := 0

/-- A header of a licence whose proof does not meet its target. -/
def invalidHeader (s : DevnetState) (l : LicenseState) : HeaderV1 where
  core :=
    { version := 1
      networkId := s.networkId
      epoch := s.tipEpoch
      parentHash := s.tipHash
      transactionRoot := 0
      stateRoot := 0
      target := 0
      licenseId := l.licenseId
      ticketIndex := 0
      argon2Proof := 0 }
  signature := 0

/-- Evidence of invalid work: a signed header and the sequence of the key that signed it. -/
def invalidWorkEvidence (accused : Bytes32) (miningSequence : UInt32) (header : HeaderV1) :
    PunishmentEvidenceV1 where
  offenseType := offenseInvalidSignedWork
  accusedLicenseId := accused
  evidence := Bytes.u32 miningSequence ++ header.encode

/-- A Devnet chain on which a licence rotates its mining key to the same key and is then
accused of one header under both sequences: the genesis, the header, the licence, the
operations of the last block and the state after it. -/
def rekeyedChain :
    Except String (DevnetState × HeaderV1 × LicenseState × List ProtocolOperationV1 ×
      DevnetState) := do
  let (genesis, s) ← devnetBootstrapped
  -- a coinbase output may be spent sixteen blocks later
  let s ← receiveEmpty 16 s
  let l ← okOr s.licenses.head? "no licence"
  let u ← okOr s.utxos.head? "no output"
  let ticket ← pendingFromTransaction s (feeTicket s l u)
  let (_, s) ← receiveMined s [ticket] [(rotationToSameKey l).operation]
  let header := invalidHeader s l
  let (operations, s) ← receiveMined s []
    [(invalidWorkEvidence l.licenseId 0 header).operation,
      (invalidWorkEvidence l.licenseId 1 header).operation]
  .ok (genesis, header, l, operations, s)

end Chains

section Evaluation

attribute [local instance] devnetCrypto

/-- What the chain of the same key twice ends with. -/
theorem rekeyedChain_trace :
    ∃ (genesis s : DevnetState) (header : HeaderV1) (l l' : LicenseState)
      (visited : List DevnetState) (ops : List ProtocolOperationV1),
      FreshKeys genesis ∧ s.findLicense l.licenseId = some l' ∧ l'.miningKeySequence = 1 ∧
        ChainTrace genesis visited (ops ++
          [(invalidWorkEvidence l.licenseId 0 header).operation,
            (invalidWorkEvidence l.licenseId 1 header).operation]) s := by
  have hcheck : okAnd rekeyedChain (fun r =>
      r.1.historicalLicenseKeys == [] && r.1.licenses == [] &&
        (r.2.2.2.2.findLicense r.2.2.1.licenseId).any (·.miningKeySequence == 1) &&
        r.2.2.2.1 == [(invalidWorkEvidence r.2.2.1.licenseId 0 r.2.1).operation,
          (invalidWorkEvidence r.2.2.1.licenseId 1 r.2.1).operation]) = true := by
    decide +kernel
  rcases exists_of_okAnd hcheck with ⟨⟨genesis, header, l, operations, s⟩, hrun, htest⟩
  simp only [Bool.and_eq_true, beq_iff_eq, Option.any_eq_true] at htest
  rcases htest with ⟨⟨⟨hhistory, hlicenses⟩, l', hl', hone⟩, hlast⟩
  simp only [rekeyedChain, ok_rules, Prod.mk.injEq] at hrun
  rcases hrun with ⟨⟨genesis, s₁⟩, hboot, s₂, hempty, l, -, u, -, ticket, -, ⟨ops₃, s₃⟩, hrotate,
    ⟨ops₄, s₄⟩, hpunish, rfl, rfl, rfl, rfl, rfl⟩
  dsimp only at hhistory hlicenses hlast hl'
  rcases ChainTrace.of_devnetBootstrapped hboot with ⟨visited₁, ops₁, trace₁, -⟩
  rcases trace₁.receiveEmpty hempty with ⟨visited₂, ops₂, trace₂⟩
  rcases trace₂.receiveMined hrotate with ⟨visited₃, trace₃⟩
  rcases trace₃.receiveMined hpunish with ⟨visited₄, trace₄⟩
  rw [hlast] at trace₄
  refine ⟨_, _, _, _, l', visited₄, _, ⟨hhistory, ?_⟩, hl', hone, trace₄⟩
  rw [hlicenses]
  exact fun l hl => absurd hl List.not_mem_nil

/-- On that chain the licence has two sequences; each was in force in one stretch, and
both are found. -/
theorem keyHistory_complete_rekeyed :
    ∃ (genesis s : DevnetState) (visited : List DevnetState) (ops : List ProtocolOperationV1)
      (id key₀ key₁ : Bytes32), FreshKeys genesis ∧ ChainTrace genesis visited ops s ∧
      miningKeyAtSequence s id 0 = .ok (some key₀) ∧ InForceOnce visited id 0 key₀ ∧
      miningKeyAtSequence s id 1 = .ok (some key₁) ∧ InForceOnce visited id 1 key₁ := by
  rcases rekeyedChain_trace with ⟨genesis, s, header, l, l', visited, ops, hfresh, hl, hone, htrace⟩
  have hkeys := (keyHistory_complete hfresh htrace).1 l.licenseId l' hl
  rw [hone] at hkeys
  rcases hkeys 0 (by decide) with ⟨key₀, hkey₀, honce₀⟩
  rcases hkeys 1 (by decide) with ⟨key₁, hkey₁, honce₁⟩
  exact ⟨genesis, s, visited, _, l.licenseId, key₀, key₁, hfresh, htrace, hkey₀, honce₀, hkey₁,
    honce₁⟩

end Evaluation

end Mutiny
