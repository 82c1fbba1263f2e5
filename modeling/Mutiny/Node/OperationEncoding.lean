import Mutiny.Protocol.Canonical
import Mutiny.Node.BitcoinPurchase
import Mutiny.Node.Dividends
import Mutiny.Node.Punishment

/-!
# One encoding for every operation

Replay protection counts operations by their identifier, the hash of their bytes.  It is
sound only if nobody can write down the same operation in two ways.  Eight decoders read the
payloads; each accepts exactly the operations that its writer builds, so an accepted
operation is rebuilt byte for byte from what was decoded.

Main result:

- Theorem {lit}`operation_encodings_canonical`: operations are not malleable.
-/

namespace Mutiny

open Result

/-! ## The decoders of the node -/

variable {op : ProtocolOperationV1}

/-- A claim is read off its own operation only. -/
theorem decodeClaimOperation_eq_ok {c : DividendClaimV1} :
    Dividends.decodeClaimOperation op = .ok c ↔ op = c.operation := by
  constructor
  · intro h
    simp only [Dividends.decodeClaimOperation, Bytes.cut, ok_rules, not_or, not_not] at h
    rcases h with ⟨_, ⟨htype, hversion⟩, _, hlength, rfl⟩
    rcases op with ⟨opType, opVersion, payload⟩
    dsimp only at htype hversion hlength
    subst htype hversion
    simp (disch := grind) only [DividendClaimV1.operation, DividendClaimV1.unsignedPayload,
      List.append_assoc, Bytes.b64_toB64, Bytes.b32_take, Bytes.u32_take, Bytes.u64_take]
  · rintro rfl
    simp [Dividends.decodeClaimOperation, DividendClaimV1.operation,
      DividendClaimV1.unsignedPayload, Result.reject]

theorem Presence.decodeOperation_eq_ok {p : MiningPresenceV1} :
    Presence.decodeOperation op = .ok p ↔ op = p.operation := by
  rw [Presence.decodeOperation, mapError_eq_ok]
  constructor
  · intro h
    simp only [MiningPresenceV1.decodeOperation, Bytes.cut, ok_rules, not_or, not_not] at h
    rcases h with ⟨_, ⟨htype, hversion, hlength⟩, rfl⟩
    rcases op with ⟨opType, opVersion, payload⟩
    dsimp only [miningPresenceFullLen] at htype hversion hlength
    subst htype hversion
    simp (disch := grind) only [MiningPresenceV1.operation, MiningPresenceV1.unsignedPayload,
      List.append_assoc, Bytes.b64_toB64, Bytes.b32_take, Bytes.u32_take, Bytes.u64_take]
  · rintro rfl
    simp [MiningPresenceV1.decodeOperation, MiningPresenceV1.operation,
      MiningPresenceV1.unsignedPayload, Result.reject, miningPresenceFullLen]

/-- The limits of the punishment decoder: an offence it knows. -/
structure PunishmentEvidenceV1.WithinLimits (e : PunishmentEvidenceV1) : Prop where
  offense : ∃ weight, offenseWeight e.offenseType = .ok weight
  evidence : e.evidence.length < 2 ^ 64

theorem decodePunishmentOperation_eq_ok {e : PunishmentEvidenceV1} :
    decodePunishmentOperation op = .ok e ↔ e.WithinLimits ∧ op = e.operation := by
  constructor
  · intro h
    simp only [decodePunishmentOperation, Bytes.cut, ok_rules, not_or, not_not, Prod.exists] at h
    rcases h with ⟨_, ⟨htype, hversion⟩, _, hshort, weight, hweight, len, input, hlen, _, hinput, _,
      hcanonical, rfl⟩
    replace hcanonical := not_not.mp (reject_eq_ok.mp hcanonical)
    rcases op with ⟨opType, opVersion, payload⟩
    dsimp only at htype hversion hcanonical
    subst htype hversion
    refine ⟨⟨⟨weight, hweight⟩, hinput ▸ len.toNat_lt⟩, ?_⟩
    rw [PunishmentEvidenceV1.operation, hcanonical]
  · rintro ⟨⟨⟨weight, hweight⟩, hevidence⟩, rfl⟩
    have hpos := length_encodeVaruint_pos (UInt64.ofNat e.evidence.length)
    simp only [decodePunishmentOperation, PunishmentEvidenceV1.operation,
      PunishmentEvidenceV1.canonicalEvidence, Bytes.cut_be_append, ok_rules, Prod.exists,
      readVaruint_eq_ok, Bytes.toU16_u16, Bytes.toB32_b32]
    refine ⟨(), by simp, (), reject_eq_ok.mpr ?_, weight, hweight, _, _, rfl, (), ?_, (), by simp,
      rfl⟩
    · simp only [encodeVar, List.length_append, Bytes.length_be]
      omega
    · rw [UInt64.toNat_ofNat_of_lt' hevidence]
      simp

theorem BitcoinPurchase.decodePurchaseOperation_eq_ok {p : LicensePurchaseBtcV1} :
    decodePurchaseOperation op = .ok p ↔ p.proof.WithinLimits ∧ p.operation = .ok op := by
  simp only [decodePurchaseOperation, LicensePurchaseBtcV1.operation, ok_rules, not_or, not_not,
    LicensePurchaseBtcV1.decodePayload_eq_ok]
  constructor
  · rintro ⟨_, ⟨htype, hversion⟩, hlimits, hpayload⟩
    refine ⟨hlimits, _, hpayload, ?_⟩
    rw [← htype, ← hversion]
  · rintro ⟨hlimits, bytes, hpayload, rfl⟩
    exact ⟨(), ⟨rfl, rfl⟩, hlimits, hpayload⟩

/-! ## All of them -/

/-- What the payload decoders return. -/
inductive OperationContent where
  | btcPurchase (p : LicensePurchaseBtcV1)
  | nativePurchase (p : LicensePurchaseMutV1)
  | transfer (t : LicenseTransferV1)
  | rotation (r : MiningKeyRotateV1)
  | presence (p : MiningPresenceV1)
  | punishment (e : PunishmentEvidenceV1)
  | claim (c : DividendClaimV1)
  | headers (h : BitcoinHeadersV1)
deriving DecidableEq, Repr

namespace OperationContent

/-- The decoder of this kind of content accepts the operation and returns the content. -/
def DecodedFrom (op : ProtocolOperationV1) : OperationContent → Prop
  | btcPurchase p => BitcoinPurchase.decodePurchaseOperation op = .ok p
  | nativePurchase p => decodeNativePurchaseOperation op = .ok p
  | transfer t => decodeLicenseTransferOperation op = .ok t
  | rotation r => decodeMiningKeyRotationOperation op = .ok r
  | presence p => Presence.decodeOperation op = .ok p
  | punishment e => decodePunishmentOperation op = .ok e
  | claim c => Dividends.decodeClaimOperation op = .ok c
  | headers h => BitcoinHeadersV1.fromOperation op = .ok h

/-- The operation is the one built from the content. -/
def BuildsTo (op : ProtocolOperationV1) : OperationContent → Prop
  | btcPurchase p => p.operation = .ok op
  | nativePurchase p => p.operation = .ok op
  | transfer t => t.operation = op
  | rotation r => r.operation = op
  | presence p => p.operation = op
  | punishment e => e.operation = op
  | claim c => c.operation = op
  | headers h => h.toOperation = .ok op

/-- The limits a decoder enforces and the writer does not. -/
def WithinLimits : OperationContent → Prop
  | btcPurchase p => p.proof.WithinLimits
  | punishment e => e.WithinLimits
  | _ => True

/-- Each of the eight decoders reads its content off the operation of that content only. -/
theorem decodedFrom_iff {op : ProtocolOperationV1} {c : OperationContent} :
    c.DecodedFrom op ↔ c.WithinLimits ∧ c.BuildsTo op := by
  cases c with
  | btcPurchase p => exact BitcoinPurchase.decodePurchaseOperation_eq_ok
  | nativePurchase p =>
    rw [DecodedFrom, decodeNativePurchaseOperation_eq_ok]
    simp [WithinLimits, BuildsTo]
  | transfer t =>
    rw [DecodedFrom, decodeLicenseTransferOperation_eq_ok]
    simp [WithinLimits, BuildsTo, eq_comm]
  | rotation r =>
    rw [DecodedFrom, decodeMiningKeyRotationOperation_eq_ok]
    simp [WithinLimits, BuildsTo, eq_comm]
  | presence p =>
    rw [DecodedFrom, Presence.decodeOperation_eq_ok]
    simp [WithinLimits, BuildsTo, eq_comm]
  | punishment e =>
    rw [DecodedFrom, decodePunishmentOperation_eq_ok]
    simp [WithinLimits, BuildsTo, eq_comm]
  | claim c =>
    rw [DecodedFrom, decodeClaimOperation_eq_ok]
    simp [WithinLimits, BuildsTo, eq_comm]
  | headers h =>
    rw [DecodedFrom, BitcoinHeadersV1.fromOperation_eq_ok]
    simp [WithinLimits, BuildsTo]

/-- At most one operation is built from a content. -/
theorem BuildsTo.unique {op op' : ProtocolOperationV1} {c : OperationContent}
    (h : c.BuildsTo op) (h' : c.BuildsTo op') : op = op' := by
  cases c with
  | btcPurchase p => exact Except.ok.inj (h.symm.trans h')
  | nativePurchase p => exact Except.ok.inj (h.symm.trans h')
  | transfer t => exact h.symm.trans h'
  | rotation r => exact h.symm.trans h'
  | presence p => exact h.symm.trans h'
  | punishment e => exact h.symm.trans h'
  | claim c => exact h.symm.trans h'
  | headers h₀ => exact Except.ok.inj (h.symm.trans h')

end OperationContent

/-- Operations are not malleable: accepted bytes are the encoding of the operation, an accepted
operation is rebuilt from its decoded content, every operation built within the limits is
accepted and read back, and operations with different identifiers differ in content. -/
theorem operation_encodings_canonical [Crypto] :
    (∀ bytes op, decodeProtocolOperationBytes bytes = .ok op → op.encode = bytes) ∧
    (∀ op c, OperationContent.DecodedFrom op c → c.BuildsTo op) ∧
    (∀ op c, OperationContent.WithinLimits c → c.BuildsTo op → c.DecodedFrom op) ∧
    ∀ op op' c c', OperationContent.DecodedFrom op c → OperationContent.DecodedFrom op' c' →
      op.operationId ≠ op'.operationId → c ≠ c' := by
  refine ⟨fun bytes op h => (decodeProtocolOperationBytes_eq_ok.mp h).2,
    fun op c h => (OperationContent.decodedFrom_iff.mp h).2,
    fun op c hlimits h => OperationContent.decodedFrom_iff.mpr ⟨hlimits, h⟩, ?_⟩
  rintro op op' c c' h h' hid rfl
  have hsame := (OperationContent.decodedFrom_iff.mp h).2.unique
    (OperationContent.decodedFrom_iff.mp h').2
  exact hid (congrArg ProtocolOperationV1.operationId hsame)

end Mutiny
