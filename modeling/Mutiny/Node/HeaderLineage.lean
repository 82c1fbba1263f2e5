import Mutiny.Node.BitcoinHeaders

/-!
# A Bitcoin header is checked against its own ancestors

The rules for a Mainnet header look at headers before it: the parent, the ten before that, and
at a change of difficulty the first one of the period.  They are found by following parents
through an index that also holds other branches, down to headers that are locked into the
program.  Here it is shown that the other branches do not matter.

Main result:

- Theorem {lit}`header_validation_ancestors_only`: the check depends on the ancestors alone.
-/

namespace Mutiny.BitcoinHeaders

open Result

/-- The last one of the locked headers. -/
def mainnetAnchorHeader : BitcoinHeader where
  raw := mainnetGenesisContext.getLastD 0

/-- The header at a height, of a branch above the anchor with its newest header first. -/
def ancestorAt : List BitcoinHeader → UInt32 → Option BitcoinHeader
  | [], height => mainnetPackJContextHeader height
  | h :: rest, height =>
    if height.toNat = mainnetPackJAnchorHeight.toNat + rest.length + 1 then some h
    else ancestorAt rest height

section Lineage

variable [Crypto]

/-- The hash of the newest header of a branch. -/
def tipHash : List BitcoinHeader → Bytes32
  | [] => mainnetAnchorHeader.hashInternal
  | h :: _ => h.hashInternal

/-- The index has a full branch from the anchor. -/
inductive Branch (index : List BitcoinHeaderStateStored) : List BitcoinHeader → Prop
  | anchor : Branch index []
  | next {h : BitcoinHeader} {rest : List BitcoinHeader} {row : BitcoinHeaderStateStored}
      (hrest : Branch index rest) (hfind : findHeader index h.hashInternal = some row)
      (hheader : row.header = h)
      (hheight : row.height.toNat = mainnetPackJAnchorHeight.toNat + rest.length + 1)
      (hlink : h.previousBlockInternal = tipHash rest) : Branch index (h :: rest)

/-! ## Larger indices -/

variable {index : List BitcoinHeaderStateStored}

omit [Crypto] in
/-- An index with distinct hashes finds every row it has. -/
theorem findHeader_of_mem {row : BitcoinHeaderStateStored}
    (hnodup : (index.map (·.blockHashInternal)).Nodup) (hrow : row ∈ index) :
    findHeader index row.blockHashInternal = some row := by
  induction index with
  | nil => cases hrow
  | cons first index ih =>
    rw [List.map_cons, List.nodup_cons] at hnodup
    rcases List.mem_cons.mp hrow with rfl | htail
    · simp [findHeader]
    · have hne : first.blockHashInternal ≠ row.blockHashInternal := by
        intro heq
        exact hnodup.1 (heq ▸ List.mem_map_of_mem htail)
      have hfind := ih hnodup.2 htail
      rw [findHeader, List.find?_cons_of_neg (by simpa using hne)]
      exact hfind

variable {branch : List BitcoinHeader} {index' : List BitcoinHeaderStateStored}

theorem Branch.mono (hsubset : index ⊆ index') (hnodup : (index'.map (·.blockHashInternal)).Nodup)
    (h : Branch index branch) :
    Branch index' branch := by
  induction h with
  | anchor => exact .anchor
  | next hrest hfind hheader hheight hlink ih =>
    have hrow := List.mem_of_find?_eq_some hfind
    have hhash := List.find?_some hfind
    rw [beq_iff_eq] at hhash
    refine .next ih ?_ hheader hheight hlink
    rw [← hhash]
    exact findHeader_of_mem hnodup (hsubset hrow)

/-! ## The walk -/

/-- The header the walk looks at. -/
def lineageHeader (index : List BitcoinHeaderStateStored) (hash : Bytes32) (height : UInt32) :
    Except String BitcoinHeader :=
  if height ≤ mainnetPackJAnchorHeight then do
    let header ← okOr (mainnetPackJContextHeader height)
      "required Mainnet Genesis Bitcoin context header is unavailable"
    reject (header.hashInternal ≠ hash) "Mainnet Genesis Bitcoin context lineage hash mismatch"
    .ok header
  else do
    let stored ← okOr (findHeader index hash)
      "Mainnet Bitcoin ancestry references missing authenticated header"
    reject (stored.height ≠ height) "Mainnet Bitcoin ancestry height mismatch"
    .ok stored.header

theorem lineageLoop_succ (index : List BitcoinHeaderStateStored) (target : UInt32) (fuel : Nat)
    (hash : Bytes32) (height : UInt32) :
    lineageLoop index target (fuel + 1) hash height =
      lineageHeader index hash height >>= fun current =>
        if height = target then .ok current
        else okOr (height.checkedSub 1) "Mainnet Bitcoin ancestry height underflow" >>=
          lineageLoop index target fuel current.previousBlockInternal := by
  rw [lineageLoop, lineageHeader]
  by_cases hheight : height ≤ mainnetPackJAnchorHeight
  · simp only [if_pos hheight, bind_assoc]
  · simp only [if_neg hheight, bind_assoc]

variable {height : UInt32}

/-- At and below the anchor the index is not used. -/
theorem lineageLoop_context (index index' : List BitcoinHeaderStateStored) (target : UInt32)
    (fuel : Nat) (hash : Bytes32) (hheight : height ≤ mainnetPackJAnchorHeight) :
    lineageLoop index' target fuel hash height = lineageLoop index target fuel hash height := by
  induction fuel generalizing hash height with
  | zero => rfl
  | succ fuel ih =>
    have hheader : lineageHeader index' hash height = lineageHeader index hash height := by
      rw [lineageHeader, lineageHeader, if_pos hheight, if_pos hheight]
    rw [lineageLoop_succ, lineageLoop_succ, hheader]
    refine congrArg _ (funext fun current => ?_)
    by_cases htarget : height = target
    · rw [if_pos htarget, if_pos htarget]
    · rw [if_neg htarget, if_neg htarget]
      cases hbelow : height.checkedSub 1 with
      | none => rfl
      | some below =>
        have hbelow : below ≤ height := by
          rw [UInt32.checkedSub_eq_some] at hbelow
          rw [UInt32.le_iff_toNat_le]
          omega
        exact ih current.previousBlockInternal (UInt32.le_trans hbelow hheight)

/-- At the newest header of a branch the walk finds it and goes on with the others. -/
theorem lineageLoop_next {h : BitcoinHeader} {rest : List BitcoinHeader}
    (hbranch : Branch index (h :: rest)) (target : UInt32) (fuel : Nat)
    (hheight : height.toNat = mainnetPackJAnchorHeight.toNat + rest.length + 1) :
    ∃ below : UInt32, below.toNat = mainnetPackJAnchorHeight.toNat + rest.length ∧
      lineageLoop index target (fuel + 1) h.hashInternal height =
        if height = target then .ok h else lineageLoop index target fuel (tipHash rest) below := by
  cases hbranch with
  | @next _ _ row hrest hfind hheader hstored hlink =>
    have habove : ¬ height ≤ mainnetPackJAnchorHeight := by
      rw [UInt32.le_iff_toNat_le]
      omega
    have hrow : ¬ row.height ≠ height := by
      rw [not_not, ← UInt32.toNat_inj, hstored, hheight]
    have hcurrent : lineageHeader index h.hashInternal height = .ok h := by
      rw [lineageHeader, if_neg habove, hfind, ← hheader]
      simp only [okOr, ok_bind, reject_of_not hrow]
    have hpos : (1 : UInt32).toNat ≤ height.toNat := by
      rw [hheight]
      exact Nat.succ_le_succ (Nat.zero_le _)
    refine ⟨height - 1, ?_, ?_⟩
    · rw [UInt32.toNat_sub_of_le _ _ (UInt32.le_iff_toNat_le.mpr hpos), hheight]
      rfl
    · have hsub : height.checkedSub 1 = some (height - 1) :=
        if_pos (UInt32.le_iff_toNat_le.mpr hpos)
      rw [lineageLoop_succ, hcurrent, ok_bind, hsub, hlink]
      rfl

/-- The walk depends on the branch alone. -/
theorem lineageLoop_congr (hbranch : Branch index branch) (hbranch' : Branch index' branch)
    (target : UInt32) (fuel : Nat)
    (hheight : height.toNat = mainnetPackJAnchorHeight.toNat + branch.length) :
    lineageLoop index' target fuel (tipHash branch) height =
      lineageLoop index target fuel (tipHash branch) height := by
  induction branch generalizing fuel height with
  | nil =>
    refine lineageLoop_context index index' target fuel _ ?_
    rw [UInt32.le_iff_toNat_le]
    exact hheight.le
  | cons h rest ih =>
    cases fuel with
    | zero => rfl
    | succ fuel =>
      rcases lineageLoop_next hbranch target fuel hheight with ⟨below, hbelow, hloop⟩
      rcases lineageLoop_next hbranch' target fuel hheight with ⟨below', hbelow', hloop'⟩
      obtain rfl : below' = below := UInt32.toNat_inj.mp (hbelow'.trans hbelow.symm)
      cases hbranch with
      | next hrest =>
        cases hbranch' with
        | next hrest' =>
          rw [tipHash, hloop, hloop', ih hrest hrest' fuel hbelow]

variable {target : UInt32} {found : BitcoinHeader}

/-- Below the anchor the walk finds the locked headers. -/
theorem context_of_lineageLoop {fuel : Nat} {hash : Bytes32}
    (hheight : height ≤ mainnetPackJAnchorHeight)
    (h : lineageLoop index target fuel hash height = .ok found) :
    mainnetPackJContextHeader target = some found := by
  induction fuel generalizing hash height with
  | zero => cases h
  | succ fuel ih =>
    rw [lineageLoop_succ, bind_eq_ok] at h
    rcases h with ⟨current, hcurrent, h⟩
    by_cases htarget : height = target
    · rw [if_pos htarget, Except.ok.injEq] at h
      rw [lineageHeader, if_pos hheight] at hcurrent
      simp only [ok_rules] at hcurrent
      rcases hcurrent with ⟨header, hheader, _, -, rfl⟩
      rw [← htarget, ← h, hheader]
    · rw [if_neg htarget, bind_eq_ok] at h
      rcases h with ⟨below, hbelow, h⟩
      rw [okOr_eq_ok, UInt32.checkedSub_eq_some] at hbelow
      have hle : below ≤ height := by
        rw [UInt32.le_iff_toNat_le]
        omega
      exact ih (UInt32.le_trans hle hheight) h

/-- What the walk finds is the ancestor at the height it was asked for. -/
theorem ancestorAt_of_lineageLoop (hbranch : Branch index branch) {fuel : Nat}
    (hheight : height.toNat = mainnetPackJAnchorHeight.toNat + branch.length)
    (h : lineageLoop index target fuel (tipHash branch) height = .ok found) :
    ancestorAt branch target = some found := by
  induction branch generalizing fuel height with
  | nil =>
    refine context_of_lineageLoop ?_ h
    rw [UInt32.le_iff_toNat_le]
    exact hheight.le
  | cons newest rest ih =>
    cases fuel with
    | zero => cases h
    | succ fuel =>
      rcases lineageLoop_next hbranch target fuel hheight with ⟨below, hbelow, hloop⟩
      rw [tipHash, hloop] at h
      by_cases htarget : height = target
      · rw [if_pos htarget, Except.ok.injEq] at h
        have hnewest : height.toNat = mainnetPackJAnchorHeight.toNat + rest.length + 1 :=
          hheight
        rw [ancestorAt, ← htarget, if_pos hnewest, h]
      · have hother : ¬ target.toNat = mainnetPackJAnchorHeight.toNat + rest.length + 1 := by
          intro heq
          exact htarget (UInt32.toNat_inj.mp (hheight.trans heq.symm))
        rw [if_neg htarget] at h
        rw [ancestorAt, if_neg hother]
        cases hbranch with
        | next hrest => exact ih hrest hbelow h

/-! ## The check -/

theorem ancestorAt_of_lineage (hbranch : Branch index branch)
    (hheight : height.toNat = mainnetPackJAnchorHeight.toNat + branch.length)
    (h : mainnetLineageHeaderAtHeight index (tipHash branch) height target = .ok found) :
    ancestorAt branch target = some found := by
  simp only [mainnetLineageHeaderAtHeight, bind_eq_ok] at h
  rcases h with ⟨_, -, _, -, h⟩
  exact ancestorAt_of_lineageLoop hbranch hheight h

/-- What an accepted header has passed. -/
theorem rules_of_validate {header : BitcoinHeader} {nextHeight parentBits firstTimestamp : UInt32}
    {parentTimestamp : UInt32} {timestamps : List UInt32} {work : Bytes32}
    (h : validateMainnetHeaderRules header nextHeight parentBits firstTimestamp parentTimestamp
      timestamps = .ok work) :
    medianTimestamp11 timestamps < header.timestamp ∧
      (nextHeight % bitcoinMainnetRetargetInterval = 0 →
        bitcoinMainnetRetargetBits parentBits firstTimestamp parentTimestamp =
          .ok header.bits) := by
  simp only [validateMainnetHeaderRules, expectedMainnetBits, validateMainnetMtp, ok_rules,
    not_not] at h
  rcases h with ⟨bits, ⟨_, -, hbits⟩, _, rfl, _, hmedian, -⟩
  refine ⟨UInt32.not_le.mp hmedian, fun hretarget => ?_⟩
  rwa [if_neg (not_not.mpr hretarget)] at hbits

/-- A Mainnet header is checked against its own ancestors: for a branch from the anchor to the
parent, all larger indices with distinct hashes give the same result, and when that is a success,
the timestamp is above the median of the eleven ancestors before the header, and at a change of
difficulty the bits are those computed from the ancestor one period before and the parent. -/
theorem header_validation_ancestors_only {index index' : List BitcoinHeaderStateStored}
    {branch : List BitcoinHeader} {header : BitcoinHeader} {parentHeight nextHeight : UInt32}
    (hbranch : Branch index branch) (hparent : header.previousBlockInternal = tipHash branch)
    (hheight : parentHeight.toNat = mainnetPackJAnchorHeight.toNat + branch.length)
    (hsubset : index ⊆ index') (hnodup : (index'.map (·.blockHashInternal)).Nodup) :
    validateHeaderForPolicy index' .mainnet header nextHeight parentHeight =
      validateHeaderForPolicy index .mainnet header nextHeight parentHeight ∧
    ∀ work, validateHeaderForPolicy index .mainnet header nextHeight parentHeight = .ok work →
      nextHeight.toNat = parentHeight.toNat + 1 ∧
      (∃ previous, (List.range 11).mapM
          (fun i => ancestorAt branch (nextHeight - 11 + UInt32.ofNat i)) = some previous ∧
        medianTimestamp11 (previous.map (·.timestamp)) < header.timestamp) ∧
      (nextHeight % 2016 = 0 → ∃ first parent, ancestorAt branch (nextHeight - 2016) = some first ∧
        ancestorAt branch parentHeight = some parent ∧
        bitcoinMainnetRetargetBits parent.bits first.timestamp parent.timestamp =
          .ok header.bits) := by
  have hwalk : mainnetLineageHeaderAtHeight index' header.previousBlockInternal parentHeight =
      mainnetLineageHeaderAtHeight index header.previousBlockInternal parentHeight := by
    funext target
    rw [hparent, mainnetLineageHeaderAtHeight, mainnetLineageHeaderAtHeight,
      lineageLoop_congr hbranch (hbranch.mono hsubset hnodup) target _ hheight]
  refine ⟨?_, fun work h => ?_⟩
  · simp only [validateHeaderForPolicy, validateMainnetHeader, hwalk]
  · simp only [validateHeaderForPolicy, validateMainnetHeader, hparent, ok_rules, not_not] at h
    rcases h with ⟨_, -, _, hnext, parent, hfound, firstMtp, hfirst, _, -, previous, hprevious,
      h⟩
    have hancestors := mapM_eq_some_of_ok
      (fun i _ hi => ancestorAt_of_lineage hbranch hheight hi) hprevious
    rw [UInt32.eq_sub_of_checkedSub hfirst] at hancestors
    have hnext := UInt32.checkedAdd_eq_some.mp hnext
    by_cases hretarget : nextHeight % bitcoinMainnetRetargetInterval = 0
    · simp only [if_pos hretarget, ok_rules] at h
      rcases h with ⟨firstHeight, hperiod, first, hfirstFound, _, rfl, hrules⟩
      rcases rules_of_validate hrules with ⟨hmedian, hbits⟩
      rw [UInt32.eq_sub_of_checkedSub hperiod] at hfirstFound
      exact ⟨hnext, ⟨previous, hancestors, hmedian⟩, fun _ => ⟨first, parent,
        ancestorAt_of_lineage hbranch hheight hfirstFound,
        ancestorAt_of_lineage hbranch hheight hfound, hbits hretarget⟩⟩
    · simp only [if_neg hretarget, ok_bind, mapError_eq_ok] at h
      rcases rules_of_validate h with ⟨hmedian, -⟩
      exact ⟨hnext, ⟨previous, hancestors, hmedian⟩, fun hzero => absurd hzero hretarget⟩

/-! ## A branch -/

/-- Whether the index has the branch. -/
def isBranch (index : List BitcoinHeaderStateStored) : List BitcoinHeader → Bool
  | [] => true
  | h :: rest =>
    isBranch index rest && h.previousBlockInternal == tipHash rest &&
      (findHeader index h.hashInternal).any fun row =>
        row.header == h && row.height.toNat == mainnetPackJAnchorHeight.toNat + rest.length + 1

theorem Branch.of_isBranch (h : isBranch index branch = true) : Branch index branch := by
  induction branch with
  | nil => exact .anchor
  | cons newest rest ih =>
    simp only [isBranch, Bool.and_eq_true, beq_iff_eq, Option.any_eq_true] at h
    rcases h with ⟨⟨hrest, hlink⟩, row, hfind, hheader, hheight⟩
    exact .next (ih hrest) hfind hheader hheight hlink

end Lineage

attribute [local instance] sampleCrypto

def sampleHeader (previous : Bytes32) (timestamp nonce : Nat) : BitcoinHeader where
  raw := Bytes.toB80 (Bytes.be 4 0 ++ (Bytes.b32 previous ++ (Bytes.be 32 0 ++
    (Bytes.le 4 timestamp ++ (Bytes.le 4 0x1d00ffff ++ Bytes.be 4 nonce)))))

def sampleBranch : Nat → List BitcoinHeader
  | 0 => []
  | n + 1 => sampleHeader (tipHash (sampleBranch n)) n 0 :: sampleBranch n

/-- The rows of a branch. -/
def sampleRows : List BitcoinHeader → List BitcoinHeaderStateStored
  | [] => []
  | h :: rest =>
    { blockHashInternal := h.hashInternal
      height := mainnetPackJAnchorHeight + UInt32.ofNat rest.length + 1
      rawHeader := h.raw
      relativeChainwork := 0 } :: sampleRows rest

/-- A header above a branch, with the nonce that makes its proof of work. -/
def sampleCandidate (branch : List BitcoinHeader) : BitcoinHeader :=
  let unmined := sampleHeader (tipHash branch) branch.length 0
  sampleHeader (tipHash branch) branch.length (2 ^ 32 - unmined.hashInternal.toNat % 2 ^ 32)

/-- A branch of eleven headers, and an index that also has another header above the anchor. -/
def forkedRows : List BitcoinHeaderStateStored :=
  sampleRows [sampleHeader (tipHash []) 99 0] ++ sampleRows (sampleBranch 11)

/-- The header above the branch is accepted with and without the other one. -/
theorem forked_header_accepted :
    (validateHeaderForPolicy forkedRows .mainnet (sampleCandidate (sampleBranch 11)) 963660
        963659).isOk = true ∧
      validateHeaderForPolicy forkedRows .mainnet (sampleCandidate (sampleBranch 11)) 963660
          963659 =
        validateHeaderForPolicy (sampleRows (sampleBranch 11)) .mainnet
          (sampleCandidate (sampleBranch 11)) 963660 963659 := by
  have hbranch : Branch (sampleRows (sampleBranch 11)) (sampleBranch 11) :=
    .of_isBranch (by decide +kernel)
  refine ⟨by decide +kernel, ?_⟩
  exact (header_validation_ancestors_only hbranch (by decide +kernel) (by decide)
    (List.subset_append_right _ _) (by decide +kernel)).1

end Mutiny.BitcoinHeaders
