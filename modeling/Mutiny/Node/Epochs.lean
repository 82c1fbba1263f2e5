import Mutiny.Node.Presence

/-!
# Epochs, issuance and the controllers

Which epoch can be mined next, the subsidy of an epoch, and the two controllers
that follow the chain: the difficulty correction, fed with one success bit per
epoch, and the base fee, fed with block weights.
-/

namespace Mutiny

open Result

/-- Licences that may mine. -/
def baseEligibleLicenseCount (s : DevnetState) (epoch : UInt64) : UInt64 :=
  Presence.baseEligibleCount s epoch

/-- Those of them that are present. -/
def eligibleLicenseCount (s : DevnetState) (epoch : UInt64) : UInt64 :=
  Presence.participationEligibleCount s epoch

/-- The least of a list of epochs. -/
def minEpoch (epochs : List UInt64) : Option UInt64 := epochs.min?

/-- Whether the outcome of an epoch counts. -/
def difficultyObservationEnabled (s : DevnetState) (epoch : UInt64) : Bool :=
  if s.height = 0 then false
  else if 10 ≤ s.formatVersion then
    match minEpoch (s.licenses.map (·.activationEpoch)) with
    | some firstActivation => decide (firstActivation ≤ epoch)
    | none => false
  else true

/-- The next epoch to mine in. -/
def nextMineableEpoch (s : DevnetState) : UInt64 :=
  if s.height = 0 then max activationDelayEpochs (s.tipEpoch.saturatingAdd 1)
  else if 10 ≤ s.formatVersion ∧
      baseEligibleLicenseCount s (s.tipEpoch.saturatingAdd 1) = 0 then
    let activations := (s.licenses.filter fun l =>
      decide (s.tipEpoch < l.activationEpoch)).map (·.activationEpoch)
    (minEpoch activations).getD (s.tipEpoch.saturatingAdd 1)
  else s.tipEpoch + 1

/-- The coins a block of an epoch creates: eight, halved every era. -/
def subsidy (epoch : UInt64) : UInt64 :=
  let era := epoch / eraLength
  if 64 ≤ era then 0 else (8 * strikesPerMut) >>> era

/-! ## Difficulty -/

/-- The correction, multiplied. -/
def correctionStep (current multiplierQ32 : UInt64) : Except String UInt64 :=
  okOr (UInt64.tryFrom (current.toNat * multiplierQ32.toNat / 2 ^ 32))
    "difficulty correction overflow"

/-- The number of ones among the bits of a number. -/
def countOnes (bitmap : UInt64) : Nat :=
  (List.range 64).countP fun i => bitmap.toNat.testBit i

/-- The history of the last 64 epochs, and the correction it steers. -/
structure DifficultyHistory where
  count : UInt8
  bitmap : UInt64
  correction : UInt64
deriving DecidableEq, Repr

/-- The history of a state. -/
def DevnetState.difficultyHistory (s : DevnetState) : DifficultyHistory where
  count := s.difficultyHistoryCount
  bitmap := s.difficultyHistoryBitmap
  correction := s.difficultyCorrectionQ32

/-- The history is replaced. -/
def DevnetState.setDifficultyHistory (s : DevnetState) (h : DifficultyHistory) : DevnetState :=
  { s with
    difficultyHistoryCount := h.count
    difficultyHistoryBitmap := h.bitmap
    difficultyCorrectionQ32 := h.correction }

/-- One more outcome. -/
def appendHistoryValues (h : DifficultyHistory) (success : Bool) :
    Except String DifficultyHistory := do
  let result : UInt64 := if success then 1 else 0
  let (count, bitmap) :=
    if h.count < 64 then (h.count + 1, h.bitmap ||| (result <<< h.count.toUInt64))
    else (h.count, (h.bitmap >>> 1) ||| (result <<< 63))
  let r := count.toNat
  let ones := countOnes bitmap
  if 64 * ones < 40 * r then
    let stepped ← correctionStep h.correction difficultyEasierStepQ32
    .ok { count, bitmap, correction := min stepped difficultyCMaxQ32 }
  else if 41 * r < 64 * ones then
    let stepped ← correctionStep h.correction difficultyHarderStepQ32
    .ok { count, bitmap, correction := max stepped difficultyCMinQ32 }
  else .ok { count, bitmap, correction := h.correction }

def appendDifficultyResult (s : DevnetState) (success : Bool) : Except String DevnetState := do
  let h ← appendHistoryValues s.difficultyHistory success
  .ok (s.setDifficultyHistory h)

/-! ## Base fee and weight -/

/-- The base fee after a block. -/
def adjustedBaseFeeRate (current blockWeight : UInt64) : Except String UInt64 :=
  if blockWeight = blockWeightTarget then .ok current
  else do
    let increase := decide (blockWeightTarget < blockWeight)
    let difference := if increase then blockWeight - blockWeightTarget
      else blockWeightTarget - blockWeight
    let delta ← okOr (UInt64.tryFrom
      (current.toNat * difference.toNat / (64 * blockWeightTarget.toNat))) "Base Fee delta overflow"
    if increase then .ok (min (current.saturatingAdd delta) baseFeeMaxQ32)
    else .ok (max (current.saturatingSub delta) baseFeeMinQ32)

/-- The loop of {lit}`varuintLen`.  A 64-bit value is below 128 after nine shifts. -/
def varuintLenFrom : Nat → Nat → Nat → Nat
  | 0, _, len => len
  | fuel + 1, value, len =>
    if 128 ≤ value then varuintLenFrom fuel (value / 128) (len + 1) else len

/-- The number of bytes of a VarUInt. -/
def varuintLen (value : Nat) : Nat := varuintLenFrom 9 value 1

/-- Count a part of {lit}`len` bytes. -/
def countLength (weight : UInt64) (len : Nat) : Except String UInt64 :=
  okOr (UInt64.tryFrom (weight.toNat + len)) "block weight overflow"

/-- The bytes of the body of a block: its transactions and its operations, each
list preceded by its length. -/
def blockBodyWeight (txs : List TransactionV1) (operations : List ProtocolOperationV1) :
    Except String UInt64 := do
  let weight := UInt64.ofNat (varuintLen txs.length)
  let weight ← txs.foldlM (fun weight tx => countLength weight tx.serializedLen) weight
  let weight ← countLength weight (varuintLen operations.length)
  operations.foldlM (fun weight op => countLength weight op.encode.length) weight

end Mutiny
