import Mutiny.Worker.Messages

/-!
# The worker budget ledger

Before the node hands a ticket to a worker it records the assignment in a ledger
file.  This module holds the ledger's records, its checks and its file format.
-/

namespace Mutiny

open Result

/-- The errors of the ledger. -/
inductive LedgerError where
  | io
  | packL (e : PackLError)
  | format (message : String)
  | checksum
  | replay
  | assignmentNotFound
  | networkMismatch
deriving DecidableEq, Repr

def ledgerMagic : Bytes := Bytes.ascii "MUTWLDG1"

@[simp]
theorem length_ledgerMagic : ledgerMagic.length = 8 := by decide

def ledgerVersion : UInt16 := 1

def ledgerChecksumDomain : Bytes := Bytes.ascii "MUTINY-WORKER-BUDGET-LEDGER-V1"

def domainTicketKey : Bytes := Bytes.ascii "MUTINY-WORK-TICKET-KEY-V1"

def ledgerHeaderLen : Nat := 8 + 2 + 4 + 8 + 4

def ledgerRecordLen : Nat := 32 + 32 + 8 + 32 + 2 + 2 + 32 + 32 + 32 + 8 + 1

def ledgerChecksumLen : Nat := 32

def statusReserved : UInt8 := 0x01
def statusSent : UInt8 := 0x02
def statusCompletedNoWin : UInt8 := 0x03
def statusCandidateWin : UInt8 := 0x04
def statusCancelled : UInt8 := 0x05
def statusInvalidWin : UInt8 := 0x06

/-- The record statuses the ledger knows. -/
def knownStatuses : List UInt8 :=
  [statusReserved, statusSent, statusCompletedNoWin, statusCandidateWin, statusCancelled,
    statusInvalidWin]

/-- One assignment of a ticket to a worker. -/
@[ext]
structure LedgerRecordV1 where
  ticketKey : Bytes32
  parentBlockHash : Bytes32
  targetEpoch : UInt64
  licenseId : Bytes32
  ticketIndex : UInt16
  workUnitsForEpoch : UInt16
  workerId : Bytes32
  sessionId : Bytes32
  assignmentId : Bytes32
  assignmentSequence : UInt64
  status : UInt8
deriving DecidableEq, Repr

/-- The ledger held in memory. -/
@[ext]
structure WorkerBudgetLedgerV1 where
  networkId : UInt32
  generation : UInt64
  records : List LedgerRecordV1
deriving DecidableEq, Repr

section Records

variable [Crypto]

/-- The key of one ticket of one licence in one epoch on one parent block. -/
def ticketKey (networkId : UInt32) (parentBlockHash : Bytes32) (targetEpoch : UInt64)
    (licenseId : Bytes32) (ticketIndex : UInt16) : Bytes32 :=
  sha256Domain domainTicketKey
    [Bytes.u32 networkId, Bytes.b32 parentBlockHash, Bytes.u64 targetEpoch,
      Bytes.b32 licenseId, Bytes.u16 ticketIndex]

namespace LedgerRecordV1

/-- The ticket is in the budget and the key its own. -/
def validate (r : LedgerRecordV1) (networkId : UInt32) : Except LedgerError Unit := do
  reject (r.ticketIndex ≥ r.workUnitsForEpoch) (.packL .outOfBudget)
  reject (r.status ∉ knownStatuses) (.format "unknown record status")
  reject (r.ticketKey ≠ Mutiny.ticketKey networkId r.parentBlockHash r.targetEpoch r.licenseId
    r.ticketIndex) (.format "TicketKey derivation mismatch")

def encode (r : LedgerRecordV1) : Bytes :=
  Bytes.b32 r.ticketKey ++ (Bytes.b32 r.parentBlockHash ++ (Bytes.u64 r.targetEpoch ++
    (Bytes.b32 r.licenseId ++ (Bytes.u16 r.ticketIndex ++ (Bytes.u16 r.workUnitsForEpoch ++
      (Bytes.b32 r.workerId ++ (Bytes.b32 r.sessionId ++ (Bytes.b32 r.assignmentId ++
        (Bytes.u64 r.assignmentSequence ++ [r.status])))))))))

def decode (bytes : Bytes) : Except LedgerError LedgerRecordV1 := do
  reject (bytes.length ≠ ledgerRecordLen) (.format "wrong record length")
  let (ticketKey, bytes) := Bytes.cut 32 bytes
  let (parentBlockHash, bytes) := Bytes.cut 32 bytes
  let (targetEpoch, bytes) := Bytes.cut 8 bytes
  let (licenseId, bytes) := Bytes.cut 32 bytes
  let (ticketIndex, bytes) := Bytes.cut 2 bytes
  let (workUnitsForEpoch, bytes) := Bytes.cut 2 bytes
  let (workerId, bytes) := Bytes.cut 32 bytes
  let (sessionId, bytes) := Bytes.cut 32 bytes
  let (assignmentId, bytes) := Bytes.cut 32 bytes
  let (assignmentSequence, bytes) := Bytes.cut 8 bytes
  .ok { ticketKey := Bytes.toB32 ticketKey
        parentBlockHash := Bytes.toB32 parentBlockHash
        targetEpoch := Bytes.toU64 targetEpoch
        licenseId := Bytes.toB32 licenseId
        ticketIndex := Bytes.toU16 ticketIndex
        workUnitsForEpoch := Bytes.toU16 workUnitsForEpoch
        workerId := Bytes.toB32 workerId
        sessionId := Bytes.toB32 sessionId
        assignmentId := Bytes.toB32 assignmentId
        assignmentSequence := Bytes.toU64 assignmentSequence
        status := bytes.headD 0 }

omit [Crypto] in
@[simp]
theorem length_encode (r : LedgerRecordV1) : r.encode.length = ledgerRecordLen := by
  simp [encode, ledgerRecordLen]

omit [Crypto] in
/-- A record is read back. -/
@[simp]
theorem decode_encode (r : LedgerRecordV1) : decode r.encode = .ok r := by
  rw [decode, length_encode, reject_of_not (by simp), ok_bind]
  simp [encode]

end LedgerRecordV1

/-! ## The ledger file -/

namespace WorkerBudgetLedgerV1

/-- No records. -/
def empty (networkId : UInt32) : WorkerBudgetLedgerV1 where
  networkId := networkId
  generation := 0
  records := []

/-- An assignment is recorded. -/
def assignmentSeen (l : WorkerBudgetLedgerV1) (assignmentId : Bytes32) : Bool :=
  l.records.any fun r => r.assignmentId == assignmentId

/-- A ticket is recorded. -/
def ticketSeen (l : WorkerBudgetLedgerV1) (ticketKey : Bytes32) : Bool :=
  l.records.any fun r => r.ticketKey == ticketKey

/-- The records of a ledger body, each checked before it is written.  {lit}`seen`
holds the assignment ids of the records before. -/
def encodeRecords (networkId : UInt32) :
    List Bytes32 → List LedgerRecordV1 → Except LedgerError Bytes
  | _, [] => .ok []
  | seen, r :: rs => do
    r.validate networkId
    reject (r.assignmentId ∈ seen) .replay
    let rest ← encodeRecords networkId (r.assignmentId :: seen) rs
    .ok (r.encode ++ rest)

def encodeHeader (networkId : UInt32) (generation : UInt64) (count : Nat) : Bytes :=
  ledgerMagic ++ (Bytes.u16 ledgerVersion ++ (Bytes.u32 networkId ++
    (Bytes.u64 generation ++ Bytes.be 4 count)))

/-- The checksum. -/
def bodyChecksum (body : Bytes) : Bytes :=
  Bytes.b32 (sha256Domain ledgerChecksumDomain [body])

def encode (l : WorkerBudgetLedgerV1) : Except LedgerError Bytes := do
  reject (2 ^ 32 ≤ l.records.length) (.format "too many ledger records")
  let records ← encodeRecords l.networkId [] l.records
  let body := encodeHeader l.networkId l.generation l.records.length ++ records
  .ok (body ++ bodyChecksum body)

/-- Read {lit}`count` records off a ledger body. -/
def decodeRecords (networkId : UInt32) :
    List Bytes32 → Nat → Bytes → Except LedgerError (List LedgerRecordV1)
  | _, 0, _ => .ok []
  | seen, count + 1, bytes => do
    let (recordBytes, bytes) := Bytes.cut ledgerRecordLen bytes
    let r ← LedgerRecordV1.decode recordBytes
    r.validate networkId
    reject (r.assignmentId ∈ seen) .replay
    let rest ← decodeRecords networkId (r.assignmentId :: seen) count bytes
    .ok (r :: rest)

def decodeBody (body : Bytes) : Except LedgerError WorkerBudgetLedgerV1 := do
  let (magic, bytes) := Bytes.cut 8 body
  reject (magic ≠ ledgerMagic) (.format "wrong ledger magic")
  let (version, bytes) := Bytes.cut 2 bytes
  reject (Bytes.toU16 version ≠ ledgerVersion) (.format "unsupported ledger version")
  let (networkId, bytes) := Bytes.cut 4 bytes
  let (generation, bytes) := Bytes.cut 8 bytes
  let (count, bytes) := Bytes.cut 4 bytes
  reject (body.length ≠ ledgerHeaderLen + Bytes.beNat count * ledgerRecordLen)
    (.format "record count/length mismatch")
  let records ← decodeRecords (Bytes.toU32 networkId) [] (Bytes.beNat count) bytes
  .ok { networkId := Bytes.toU32 networkId
        generation := Bytes.toU64 generation
        records := records }

def decode (bytes : Bytes) : Except LedgerError WorkerBudgetLedgerV1 := do
  reject (bytes.length < ledgerHeaderLen + ledgerChecksumLen) (.format "ledger file too short")
  let (body, checksum) := Bytes.cut (bytes.length - ledgerChecksumLen) bytes
  reject (checksum ≠ bodyChecksum body) .checksum
  decodeBody body

variable {networkId : UInt32}

/-- The record section of a body is one fixed-width block for each record. -/
theorem length_encodeRecords :
    ∀ {seen : List Bytes32} {rs : List LedgerRecordV1} {bytes : Bytes},
      encodeRecords networkId seen rs = .ok bytes → bytes.length = rs.length * ledgerRecordLen
  | _, [], _, h => by
      simp only [encodeRecords, Except.ok.injEq] at h
      simp [← h]
  | seen, r :: rs, bytes, h => by
      simp only [encodeRecords, ok_rules] at h
      obtain ⟨_, _, _, _, rest, hrest, rfl⟩ := h
      simp [length_encodeRecords hrest, Nat.add_mul, Nat.add_comm]

/-- Every check of the reader is one the writer made. -/
theorem decodeRecords_encodeRecords :
    ∀ {seen : List Bytes32} {rs : List LedgerRecordV1} {bytes : Bytes},
      encodeRecords networkId seen rs = .ok bytes →
        decodeRecords networkId seen rs.length bytes = .ok rs
  | _, [], _, _ => rfl
  | seen, r :: rs, bytes, h => by
      simp only [encodeRecords, ok_rules] at h
      obtain ⟨_, hvalid, _, hfresh, rest, hrest, rfl⟩ := h
      have hcut : Bytes.cut ledgerRecordLen (r.encode ++ rest) = (r.encode, rest) := by
        simp [Bytes.cut, List.take_left', List.drop_left']
      simp only [List.length_cons, decodeRecords, hcut, LedgerRecordV1.decode_encode, ok_bind,
        hvalid, reject_of_not hfresh, decodeRecords_encodeRecords hrest]

variable {l : WorkerBudgetLedgerV1}

theorem decodeBody_encodeHeader {records : Bytes} (hcount : l.records.length < 2 ^ 32)
    (hrecords : encodeRecords l.networkId [] l.records = .ok records) :
    decodeBody (encodeHeader l.networkId l.generation l.records.length ++ records) = .ok l := by
  have hmagic (bs : Bytes) : Bytes.cut 8 (ledgerMagic ++ bs) = (ledgerMagic, bs) := by
    simp [Bytes.cut, List.take_left', List.drop_left']
  have hlen : (encodeHeader l.networkId l.generation l.records.length ++ records).length =
      ledgerHeaderLen + l.records.length * ledgerRecordLen := by
    simp only [encodeHeader, List.length_append, Bytes.length_be, length_ledgerMagic,
      length_encodeRecords hrecords, ledgerHeaderLen]
  have hnat : Bytes.beNat (Bytes.be 4 l.records.length) = l.records.length :=
    Bytes.beNat_be_of_lt (by omega)
  rw [decodeBody, hlen]
  simp only [encodeHeader, List.append_assoc, hmagic, Bytes.cut_be_append, hnat, ne_eq,
    not_true_eq_false, reject_of_not, ok_bind, not_false_eq_true, Bytes.toU16_u16,
    Bytes.toU32_u32, Bytes.toU64_u64, decodeRecords_encodeRecords hrecords]

/-- A ledger that can be written is read back unchanged. -/
theorem decode_encode {bytes : Bytes} (h : l.encode = .ok bytes) :
    decode bytes = .ok l := by
  simp only [encode, ok_rules] at h
  obtain ⟨-, hcount, records, hrecords, rfl⟩ := h
  have hbody := decodeBody_encodeHeader (l := l) (by omega) hrecords
  set body := encodeHeader l.networkId l.generation l.records.length ++ records with hdef
  have hlen : ledgerHeaderLen ≤ body.length := by
    rw [hdef, List.length_append]
    exact Nat.le_add_right_of_le (by simp [encodeHeader, ledgerHeaderLen])
  have hsum : (bodyChecksum body).length = ledgerChecksumLen := Bytes.length_be ..
  have hcut : Bytes.cut ((body ++ bodyChecksum body).length - ledgerChecksumLen)
      (body ++ bodyChecksum body) = (body, bodyChecksum body) := by
    simp [Bytes.cut, hsum]
  rw [decode, hcut, reject_of_not (by simp [hsum]; omega)]
  simp [hbody]

end WorkerBudgetLedgerV1

end Records

end Mutiny
