import Mutiny.Lib.Slice
import Mutiny.Worker.Ledger

/-!
# The ledger file is canonical

What the reader of the ledger accepts is what the writer writes, byte for byte, and the
checks of the writer are the checks of the reader.  The reader works on positions in the
file; written with positions that may lie outside, it is still the same function, so it
never reads outside the file.

Main result:

- Theorem {lit}`ledger_codec_canonical`: the codec is lossless and canonical.
-/

namespace Mutiny

open Result

section Records

variable [Crypto]

/-! ## What is decoded -/

omit [Crypto] in
/-- A record is decoded from its encoding only. -/
theorem LedgerRecordV1.decode_eq_ok {bytes : Bytes} {r : LedgerRecordV1} :
    LedgerRecordV1.decode bytes = .ok r ↔ bytes = r.encode := by
  constructor
  · intro h
    simp only [decode, Bytes.cut, ok_rules, not_not] at h
    rcases h with ⟨_, hlength, rfl⟩
    have hlength : bytes.length = 213 := hlength
    have hstatus : ∀ bs : Bytes, bs.length = 1 → [bs.headD 0] = bs := by
      intro bs hbs
      rcases List.length_eq_one_iff.mp hbs with ⟨b, rfl⟩
      rfl
    simp (disch := simp [hlength]) only [encode, hstatus, Bytes.b32_take, Bytes.u64_take,
      Bytes.u16_take]
  · rintro rfl
    exact decode_encode r

namespace WorkerBudgetLedgerV1

variable {bytes : Bytes} {networkId : UInt32} {seen : List Bytes32} {rs : List LedgerRecordV1}

/-- Records read off the right number of bytes are written back as these bytes. -/
theorem encodeRecords_of_decodeRecords {count : Nat}
    (hlength : bytes.length = count * ledgerRecordLen)
    (h : decodeRecords networkId seen count bytes = .ok rs) :
    encodeRecords networkId seen rs = .ok bytes ∧ rs.length = count := by
  induction count generalizing seen bytes rs with
  | zero =>
    simp only [decodeRecords, Except.ok.injEq] at h
    subst h
    rw [Nat.zero_mul, List.length_eq_zero_iff] at hlength
    subst hlength
    exact ⟨rfl, rfl⟩
  | succ count ih =>
    simp only [decodeRecords, Bytes.cut, ok_rules, LedgerRecordV1.decode_eq_ok] at h
    rcases h with ⟨r, hr, _, hvalid, _, hfresh, rest, hrest, rfl⟩
    have hdrop : (bytes.drop ledgerRecordLen).length = count * ledgerRecordLen := by
      rw [List.length_drop, hlength, Nat.add_mul]
      omega
    rcases ih hdrop hrest with ⟨hencode, hcount⟩
    refine ⟨?_, by rw [List.length_cons, hcount]⟩
    simp only [encodeRecords, hvalid, reject_of_not hfresh, hencode, ok_bind, ← hr,
      List.take_append_drop]

/-- What the writer has checked of the records. -/
theorem valid_of_encodeRecords (h : encodeRecords networkId seen rs = .ok bytes) :
    (∀ r ∈ rs, r.validate networkId = .ok ()) ∧ (∀ r ∈ rs, r.assignmentId ∉ seen) ∧
      (rs.map (·.assignmentId)).Nodup := by
  induction rs generalizing seen bytes with
  | nil => simp
  | cons r rs ih =>
    simp only [encodeRecords, ok_rules] at h
    rcases h with ⟨_, hvalid, _, hfresh, rest, hrest, -⟩
    rcases ih hrest with ⟨hvalids, hfreshs, hnodup⟩
    refine ⟨List.forall_mem_cons.mpr ⟨hvalid, hvalids⟩,
      List.forall_mem_cons.mpr ⟨hfresh, fun r' hr' hseen => ?_⟩, ?_⟩
    · exact hfreshs r' hr' (List.mem_cons_of_mem _ hseen)
    · rw [List.map_cons, List.nodup_cons]
      refine ⟨fun hmem => ?_, hnodup⟩
      rcases List.mem_map.mp hmem with ⟨r', hr', heq⟩
      exact hfreshs r' hr' (heq ▸ List.mem_cons_self)

variable {l : WorkerBudgetLedgerV1}

/-- A body is decoded from its encoding only. -/
theorem eq_encodeHeader_of_decodeBody {body : Bytes} (hlong : ledgerHeaderLen ≤ body.length)
    (h : decodeBody body = .ok l) :
    l.records.length < 2 ^ 32 ∧ ∃ records, encodeRecords l.networkId [] l.records = .ok records ∧
      body = encodeHeader l.networkId l.generation l.records.length ++ records := by
  have hlong : 26 ≤ body.length := hlong
  simp only [decodeBody, Bytes.cut, ok_rules] at h
  rcases h with ⟨_, hmagic, _, hversion, _, hlength, rs, hrecords, rfl⟩
  replace hmagic := not_not.mp (reject_eq_ok.mp hmagic)
  replace hversion := not_not.mp (reject_eq_ok.mp hversion)
  replace hlength := not_not.mp (reject_eq_ok.mp hlength)
  have hrest : (((((body.drop 8).drop 2).drop 4).drop 8).drop 4).length =
      Bytes.beNat (((((body.drop 8).drop 2).drop 4).drop 8).take 4) * ledgerRecordLen := by
    rw [ledgerHeaderLen] at hlength
    simp only [List.length_drop]
    omega
  rcases encodeRecords_of_decodeRecords hrest hrecords with ⟨hencode, hcount⟩
  refine ⟨?_, _, hencode, ?_⟩
  · have hbound := Bytes.beNat_lt (((((body.drop 8).drop 2).drop 4).drop 8).take 4)
    rw [List.length_take_of_le (by simp; omega)] at hbound
    rw [hcount]
    omega
  · have hfields : ∀ bs : Bytes, bs.length = body.length - 8 → bs = Bytes.u16 (Bytes.toU16
        (bs.take 2)) ++ (Bytes.u32 (Bytes.toU32 ((bs.drop 2).take 4)) ++
          (Bytes.u64 (Bytes.toU64 (((bs.drop 2).drop 4).take 8)) ++
            (Bytes.be 4 (Bytes.beNat ((((bs.drop 2).drop 4).drop 8).take 4)) ++
              (((bs.drop 2).drop 4).drop 8).drop 4))) := by
      intro bs hbs
      simp (disch := grind) only [Bytes.be_take, Bytes.u64_take, Bytes.u32_take, Bytes.u16_take]
    rw [encodeHeader, hcount, ← hversion, ← hmagic]
    simp only [List.append_assoc]
    rw [← hfields (body.drop 8) (List.length_drop ..), List.take_append_drop]

/-- What is decoded encodes to the same bytes. -/
theorem encode_of_decode (h : decode bytes = .ok l) :
    l.encode = .ok bytes := by
  simp only [decode, Bytes.cut, ok_rules] at h
  rcases h with ⟨_, hlong, _, hsum, hbody⟩
  replace hsum := not_not.mp (reject_eq_ok.mp hsum)
  have hlength : ledgerHeaderLen ≤ (bytes.take (bytes.length - ledgerChecksumLen)).length := by
    rw [List.length_take]
    omega
  rcases eq_encodeHeader_of_decodeBody hlength hbody with ⟨hcount, records, hrecords, hbytes⟩
  simp only [encode, reject_of_not (not_le.mpr hcount), ok_bind, hrecords, Except.ok.injEq,
    ← hbytes]
  rw [← hsum, List.take_append_drop]

end WorkerBudgetLedgerV1

/-! ## Positions -/

namespace LedgerRecordV1

open Slice

/-- The next {lit}`n` bytes of a record. -/
def takeField (n : Nat) (bytes : Bytes) (p : Nat) : Except (Fault LedgerError) (Bytes × Nat) := do
  let out ← range bytes p (p + n)
  .ok (out, p + n)

/-- The reader of a record, with the positions it reads at. -/
def decodeIndexed (bytes : Bytes) : Except (Fault LedgerError) LedgerRecordV1 := do
  refuse (bytes.length ≠ ledgerRecordLen) (.format "wrong record length")
  let (ticketKey, p) ← takeField 32 bytes 0
  let (parentBlockHash, p) ← takeField 32 bytes p
  let (targetEpoch, p) ← takeField 8 bytes p
  let (licenseId, p) ← takeField 32 bytes p
  let (ticketIndex, p) ← takeField 2 bytes p
  let (workUnitsForEpoch, p) ← takeField 2 bytes p
  let (workerId, p) ← takeField 32 bytes p
  let (sessionId, p) ← takeField 32 bytes p
  let (assignmentId, p) ← takeField 32 bytes p
  let (assignmentSequence, p) ← takeField 8 bytes p
  let status ← byteAt bytes p
  .ok { ticketKey := Bytes.toB32 ticketKey
        parentBlockHash := Bytes.toB32 parentBlockHash
        targetEpoch := Bytes.toU64 targetEpoch
        licenseId := Bytes.toB32 licenseId
        ticketIndex := Bytes.toU16 ticketIndex
        workUnitsForEpoch := Bytes.toU16 workUnitsForEpoch
        workerId := Bytes.toB32 workerId
        sessionId := Bytes.toB32 sessionId
        assignmentId := Bytes.toB32 assignmentId
        assignmentSequence := Bytes.toU64 assignmentSequence
        status := status }

omit [Crypto] in
theorem takeField_eq {n p : Nat} {bytes : Bytes} (h : p + n ≤ bytes.length) :
    takeField n bytes p = .ok ((bytes.drop p).take n, p + n) := by
  simp [takeField, range, h]

omit [Crypto] in
theorem byteAt_eq {i : Nat} {bytes : Bytes} (h : i < bytes.length) :
    byteAt (ε := LedgerError) bytes i = .ok ((bytes.drop i).headD 0) := by
  rw [byteAt_eq_ok, List.getElem?_eq_getElem h, List.drop_eq_getElem_cons h, List.headD_cons]

omit [Crypto] in
/-- The reader with positions is the reader without. -/
theorem decodeIndexed_eq (bytes : Bytes) :
    decodeIndexed bytes = lift (LedgerRecordV1.decode bytes) := by
  by_cases hlength : bytes.length = ledgerRecordLen
  · have hpass : ¬ bytes.length ≠ ledgerRecordLen := not_not.mpr hlength
    have hlength' : bytes.length = 213 := hlength
    simp (disch := simp [hlength']) only [decodeIndexed, decode, takeField_eq, byteAt_eq, Bytes.cut,
      ok_bind, refuse, reject_of_not hpass, List.drop_drop, List.drop_zero, Nat.zero_add]
    rfl
  · simp [decodeIndexed, decode, hlength, refuse, reject, lift, Except.mapError]

end LedgerRecordV1

namespace WorkerBudgetLedgerV1

open Slice

/-- The loop over the records, with the position of the next one. -/
def decodeRecordsIndexed (networkId : UInt32) (body : Bytes) :
    List Bytes32 → Nat → Nat → Except (Fault LedgerError) (List LedgerRecordV1)
  | _, 0, _ => .ok []
  | seen, count + 1, p => do
    let recordBytes ← range body p (p + ledgerRecordLen)
    let r ← LedgerRecordV1.decodeIndexed recordBytes
    lift (r.validate networkId)
    refuse (r.assignmentId ∈ seen) .replay
    let rest ← decodeRecordsIndexed networkId body (r.assignmentId :: seen) count
      (p + ledgerRecordLen)
    .ok (r :: rest)

/-- The reader of what stands before the checksum, with the positions it reads at. -/
def decodeBodyIndexed (body : Bytes) : Except (Fault LedgerError) WorkerBudgetLedgerV1 := do
  let magic ← range body 0 (0 + 8)
  refuse (magic ≠ ledgerMagic) (.format "wrong ledger magic")
  let version ← range body 8 (8 + 2)
  refuse (Bytes.toU16 version ≠ ledgerVersion) (.format "unsupported ledger version")
  let networkId ← range body 10 (10 + 4)
  let generation ← range body 14 (14 + 8)
  let count ← range body 22 (22 + 4)
  refuse (body.length ≠ ledgerHeaderLen + Bytes.beNat count * ledgerRecordLen)
    (.format "record count/length mismatch")
  let records ← decodeRecordsIndexed (Bytes.toU32 networkId) body [] (Bytes.beNat count) 26
  .ok { networkId := Bytes.toU32 networkId
        generation := Bytes.toU64 generation
        records := records }

/-- The reader of a ledger, with the positions it reads at. -/
def decodeIndexed (bytes : Bytes) : Except (Fault LedgerError) WorkerBudgetLedgerV1 := do
  refuse (bytes.length < ledgerHeaderLen + ledgerChecksumLen) (.format "ledger file too short")
  let bodyLen := bytes.length - ledgerChecksumLen
  let body ← range bytes 0 bodyLen
  let checksum ← range bytes bodyLen bytes.length
  refuse (checksum ≠ bodyChecksum body) .checksum
  decodeBodyIndexed body

omit [Crypto] in
theorem range_eq {p n : Nat} {bytes : Bytes} (h : p + n ≤ bytes.length) :
    range (ε := LedgerError) bytes p (p + n) = .ok ((bytes.drop p).take n) := by
  simp [range, h]

theorem decodeRecordsIndexed_eq {networkId : UInt32} {body : Bytes} {count p : Nat}
    {seen : List Bytes32} (h : p + count * ledgerRecordLen ≤ body.length) :
    decodeRecordsIndexed networkId body seen count p =
      lift (decodeRecords networkId seen count (body.drop p)) := by
  induction count generalizing seen p with
  | zero => rfl
  | succ count ih =>
    have hfirst : p + ledgerRecordLen ≤ body.length := by
      rw [Nat.add_mul] at h
      omega
    have hrest : p + ledgerRecordLen + count * ledgerRecordLen ≤ body.length := by
      rw [Nat.add_mul] at h
      omega
    simp only [decodeRecordsIndexed, decodeRecords, Bytes.cut, range_eq hfirst, ok_bind,
      LedgerRecordV1.decodeIndexed_eq, ih hrest, List.drop_drop, lift_bind, lift_reject, lift_ok]

theorem decodeBodyIndexed_eq {body : Bytes} (hheader : ledgerHeaderLen ≤ body.length) :
    decodeBodyIndexed body = lift (decodeBody body) := by
  have hheader' : 26 ≤ body.length := hheader
  have h8 : 0 + 8 ≤ body.length := by omega
  have h10 : 8 + 2 ≤ body.length := by omega
  have h14 : 10 + 4 ≤ body.length := by omega
  have h22 : 14 + 8 ≤ body.length := by omega
  have h26 : 22 + 4 ≤ body.length := by omega
  simp only [decodeBodyIndexed, decodeBody, Bytes.cut, range_eq h8, range_eq h10, range_eq h14,
    range_eq h22, range_eq h26, ok_bind, List.drop_drop, List.drop_zero, Nat.reduceAdd, lift_bind,
    lift_reject, lift_ok]
  by_cases hcount : body.length =
      ledgerHeaderLen + Bytes.beNat ((body.drop 22).take 4) * ledgerRecordLen
  · -- the records fill the body exactly, so each one is read inside of it
    have hrecords : 26 + Bytes.beNat ((body.drop 22).take 4) * ledgerRecordLen ≤ body.length :=
      hcount.ge
    rw [decodeRecordsIndexed_eq hrecords]
    exact congrArg (· >>= _) (lift_reject _).symm
  · have hrefuse (e : LedgerError) : refuse (body.length ≠
        ledgerHeaderLen + Bytes.beNat ((body.drop 22).take 4) * ledgerRecordLen) e =
        .error (.refused e) :=
      if_pos hcount
    simp only [hrefuse, error_bind]
    exact congrArg (· >>= _) (lift_reject _).symm

theorem decodeIndexed_eq (bytes : Bytes) : decodeIndexed bytes = lift (decode bytes) := by
  by_cases hshort : bytes.length < ledgerHeaderLen + ledgerChecksumLen
  · simp [decodeIndexed, decode, hshort, refuse, reject, lift, Except.mapError]
  have hbody : range (ε := LedgerError) bytes 0 (bytes.length - ledgerChecksumLen) =
      .ok (bytes.take (bytes.length - ledgerChecksumLen)) := by
    simp [range]
  have hchecksum : range (ε := LedgerError) bytes (bytes.length - ledgerChecksumLen) bytes.length =
      .ok (bytes.drop (bytes.length - ledgerChecksumLen)) := by
    simp [range, List.take_of_length_le]
  have hheader : ledgerHeaderLen ≤ (bytes.take (bytes.length - ledgerChecksumLen)).length := by
    rw [List.length_take]
    omega
  simp only [decodeIndexed, decode, Bytes.cut, hbody, hchecksum, ok_bind, refuse,
    reject_of_not hshort, decodeBodyIndexed_eq hheader, lift_bind]
  exact congrArg (· >>= _) (lift_reject _).symm

end WorkerBudgetLedgerV1

/-- The ledger file is lossless and canonical: what is encoded is decoded unchanged, what is
decoded encodes to the same bytes, the records that were decoded have different assignments, a
ticket within the budget and the key of their ticket, and nothing is read outside the file. -/
theorem ledger_codec_canonical :
    (∀ l bytes, WorkerBudgetLedgerV1.encode l = .ok bytes →
      WorkerBudgetLedgerV1.decodeIndexed bytes = .ok l) ∧
    (∀ bytes l, WorkerBudgetLedgerV1.decodeIndexed bytes = .ok l →
      l.encode = .ok bytes ∧ (l.records.map (·.assignmentId)).Nodup ∧
      ∀ r ∈ l.records, r.ticketIndex < r.workUnitsForEpoch ∧
        r.ticketKey = ticketKey l.networkId r.parentBlockHash r.targetEpoch r.licenseId
          r.ticketIndex) ∧
    ∀ bytes, Slice.InBounds (WorkerBudgetLedgerV1.decodeIndexed bytes) := by
  simp only [WorkerBudgetLedgerV1.decodeIndexed_eq, Slice.lift_eq_ok]
  refine ⟨fun l bytes h => WorkerBudgetLedgerV1.decode_encode h, fun bytes l h => ?_,
    fun bytes => .lift _⟩
  have hencode := WorkerBudgetLedgerV1.encode_of_decode h
  refine ⟨hencode, ?_⟩
  simp only [WorkerBudgetLedgerV1.encode, bind_eq_ok] at hencode
  rcases hencode with ⟨_, -, records, hrecords, -⟩
  rcases WorkerBudgetLedgerV1.valid_of_encodeRecords hrecords with ⟨hvalid, -, hnodup⟩
  refine ⟨hnodup, fun r hr => ?_⟩
  have hchecks := hvalid r hr
  simp only [LedgerRecordV1.validate, ok_rules, not_not] at hchecks
  rcases hchecks with ⟨_, hbudget, _, -, hkey⟩
  exact ⟨UInt16.not_le.mp hbudget, hkey⟩

end Records

end Mutiny
