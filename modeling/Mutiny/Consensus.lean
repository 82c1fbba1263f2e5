import Mutiny.Crypto
import Mutiny.Lib.Result

/-!
# Work allocation, targets and tickets

How many tickets a licence gets, the target a ticket must stay under, and the
derivation of one ticket from the anchor of the chain.
-/

namespace Mutiny

open Result

namespace Domains

def epochSeed : Bytes := Bytes.ascii "MUTINY-EPOCH-SEED-V1"
def ticketSeed : Bytes := Bytes.ascii "MUTINY-TICKET-SEED-V1"
def argon2Salt : Bytes := Bytes.ascii "MUTINY-ARGON2-SALT-V1"
def anchorEntropy : Bytes := Bytes.ascii "MUTINY-ANCHOR-ENTROPY-V1"

end Domains

def wMax : Nat := 2048
def lSat : Nat := 65536

/-- The binary search for the least sufficient number of work units. -/
def workUnitsSearch (rhs : Nat) : Nat → Nat → Nat → Nat
  | 0, lo, _ => lo
  | fuel + 1, lo, hi =>
    if lo < hi then
      let mid := lo + (hi - lo) / 2
      if rhs ≤ mid ^ 25 * lSat ^ 16 then workUnitsSearch rhs fuel lo mid
      else workUnitsSearch rhs fuel (mid + 1) hi
    else lo

/-- Tickets per licence for a number of eligible licences. -/
def workUnits (eligibleLicenses : UInt64) : UInt16 :=
  if eligibleLicenses = 0 then 0
  else if lSat ≤ eligibleLicenses.toNat then UInt16.ofNat wMax
  else UInt16.ofNat (workUnitsSearch (wMax ^ 25 * eligibleLicenses.toNat ^ 16) wMax 1 wMax)

/-- Tickets of all licences together. -/
def authorizedCapacity (eligibleLicenses : UInt64) : Nat :=
  eligibleLicenses.toNat * (workUnits eligibleLicenses).toNat

/-- The 256-bit target for a capacity and a difficulty correction. -/
def deriveTarget (authorizedCapacity : Nat) (correctionQ32 : UInt64) : Except String Bytes32 := do
  reject (authorizedCapacity = 0) "authorized capacity is zero"
  let base := 2 ^ 256 / authorizedCapacity
  let corrected := base * correctionQ32.toNat / 2 ^ 32
  .ok (BitVec.ofNat 256 (min (2 ^ 256 - 1) corrected))

variable [Crypto]

/-- What the last block adds to later seeds. -/
def anchorEntropy (anchorEpoch : UInt64) (anchorLicenseId : Bytes32) (anchorTicketIndex : UInt16)
    (anchorArgon2Proof : Bytes32) : Bytes32 :=
  sha256Domain Domains.anchorEntropy
    [Bytes.u64 anchorEpoch, Bytes.b32 anchorLicenseId, Bytes.u16 anchorTicketIndex,
      Bytes.b32 anchorArgon2Proof]

/-- The seed of an epoch. -/
def epochSeed (anchorEntropy : Bytes32) (epoch : UInt64) : Bytes32 :=
  sha256Domain Domains.epochSeed [Bytes.b32 anchorEntropy, Bytes.u64 epoch]

/-- The seed of a ticket. -/
def ticketSeed (epochSeed licenseId : Bytes32) (ticketIndex : UInt16) : Bytes32 :=
  sha256Domain Domains.ticketSeed
    [Bytes.b32 epochSeed, Bytes.b32 licenseId, Bytes.u16 ticketIndex]

/-- The salt of a ticket. -/
def ticketSalt (epochSeed licenseId : Bytes32) (ticketIndex : UInt16) : Bytes32 :=
  sha256Domain Domains.argon2Salt
    [Bytes.b32 epochSeed, Bytes.b32 licenseId, Bytes.u16 ticketIndex]

end Mutiny
