import Mutiny.Node.Roots

/-!
# Scheduled transitions and empty epochs

What the passing of an epoch does by itself: offences expire, pending licences
become active, dividends expire and are awarded.  An epoch without a block also
counts as a failure in the difficulty history.
-/

namespace Mutiny

open Result

/-- A pending licence becomes active at its activation epoch. -/
def activateLicense (epoch : UInt64) (l : LicenseState) : LicenseState :=
  if l.status = licenseStatusPending ∧ l.activationEpoch ≤ epoch then
    { l with status := licenseStatusActive }
  else l

/-- What an epoch changes by itself. -/
def applyScheduledLicenseTransitions (s : DevnetState) (epoch : UInt64) :
    Except String DevnetState := do
  let s ← Punishment.expireEvents s epoch
  let s := { s with licenses := s.licenses.map (activateLicense epoch) }
  Dividends.processEpoch s epoch

/-- One epoch without a block. -/
def emptyEpoch (s : DevnetState) : Except String DevnetState := do
  let epoch := s.tipEpoch + 1
  let s ← applyScheduledLicenseTransitions { s with tipEpoch := epoch } epoch
  if difficultyObservationEnabled s epoch then appendDifficultyResult s false else .ok s

/-- A number of epochs without a block, one after the other. -/
def emptyEpochs : Nat → DevnetState → Except String DevnetState
  | 0, s => .ok s
  | n + 1, s => do
    let s ← emptyEpoch s
    emptyEpochs n s

variable [Crypto]

/-- Epochs without a block. -/
def advanceEmptyEpochs (s : DevnetState) (throughEpoch : UInt64) : Except String DevnetState := do
  if throughEpoch ≤ s.tipEpoch then .ok s
  else
    let s ← emptyEpochs (throughEpoch.toNat - s.tipEpoch.toNat) s
    refreshCurrentStateRoot s

/-- The command that advances a node without blocks. -/
def advanceEmptyEpochsFast (s : DevnetState) (throughEpoch : UInt64) :
    Except String DevnetState := do
  reject (s.height = 0) "advance-empty requires at least one canonical block"
  reject (throughEpoch ≤ s.tipEpoch) "--to-epoch must be greater than the current local epoch"
  let s ← emptyEpochs (throughEpoch.toNat - s.tipEpoch.toNat) s
  refreshCurrentStateRoot s

end Mutiny
