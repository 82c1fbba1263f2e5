import Mutiny.Protocol.Decode

/-!
# Canonical payloads

Each payload decoder inverts the writer of its payload, and accepts nothing the writer
does not produce: an operation has one encoding.  The decoders of fixed length are treated
beside their definitions; here are those with lists, manifests and length fields.
-/

namespace Mutiny

open Result Reader

/-! ## Length fields -/

variable {bs rest : Bytes}

theorem im_eq_ok {α : Type} {r : Reader DecodeError α} {enc : α → Bytes} {a : α}
    (hreads : ∀ a, Reads r (enc a) a) (hcanonical : Canonical r enc) :
    im r bs = .ok (a, rest) ↔ bs = enc a ++ rest := by
  rw [im, run_mapError_eq_ok]
  constructor
  · exact fun h => hcanonical h
  · rintro rfl
    exact hreads a rest

theorem im_readU16Be_eq_ok {v : UInt16} :
    im readU16Be bs = .ok (v, rest) ↔ bs = Bytes.u16 v ++ rest :=
  im_eq_ok reads_u16 canonical_u16

theorem im_readU32Be_eq_ok {v : UInt32} :
    im readU32Be bs = .ok (v, rest) ↔ bs = Bytes.u32 v ++ rest :=
  im_eq_ok reads_u32 canonical_u32

theorem im_readVaruint_eq_ok {v : UInt64} :
    im readVaruint bs = .ok (v, rest) ↔ bs = encodeVaruint v ++ rest :=
  im_eq_ok reads_varuint canonical_varuint

theorem readVaruint_eq_ok {v : UInt64} :
    readVaruint bs = .ok (v, rest) ↔ bs = encodeVaruint v ++ rest := by
  rw [← im_readVaruint_eq_ok, im, run_mapError_eq_ok]

/-- A length field that says how many bytes follow. -/
theorem encodeVaruint_append_eq {len : UInt64} (h : bs.length = len.toNat) :
    encodeVaruint len ++ bs = encodeVar bs := by
  rw [encodeVar, h, UInt64.ofNat_toNat]

theorem readVar_eq_ok {field : Bytes} :
    readVar bs = .ok (field, rest) ↔ field.length < 2 ^ 64 ∧ bs = encodeVar field ++ rest := by
  simp only [readVar, run_bind_eq_ok, im_readVaruint_eq_ok, run_take_eq_ok]
  constructor
  · rintro ⟨len, _, rfl, hlength, rfl⟩
    refine ⟨hlength ▸ len.toNat_lt, ?_⟩
    rw [← List.append_assoc, encodeVaruint_append_eq hlength]
  · rintro ⟨hlength, rfl⟩
    exact ⟨UInt64.ofNat field.length, field ++ rest, List.append_assoc ..,
      (UInt64.toNat_ofNat_of_lt' hlength).symm, rfl⟩

/-! ## Operations -/

variable {bytes : Bytes} {op : ProtocolOperationV1}

/-- The bytes of an operation, and nothing else, are read back as that operation. -/
theorem decodeProtocolOperationBytes_eq_ok :
    decodeProtocolOperationBytes bytes = .ok op ↔
      op.payload.length < 2 ^ 64 ∧ op.encode = bytes := by
  constructor
  · intro h
    simp only [decodeProtocolOperationBytes, Bytes.cut, ok_rules, not_not] at h
    rcases h with ⟨_, hlength, ⟨len, payload⟩, hlen, _, hpayload, rfl⟩
    refine ⟨hpayload ▸ len.toNat_lt, ?_⟩
    have hrest := readVaruint_eq_ok.mp hlen
    rw [encodeVaruint_append_eq hpayload] at hrest
    simp (disch := grind) only [ProtocolOperationV1.encode, ← hrest, Bytes.u16_take]
  · rintro ⟨hlength, rfl⟩
    exact decodeProtocolOperationBytes_encode hlength

/-! ## Manifests -/

variable {n : Nat}

/-- Pairs of keys read off the right number of bytes. -/
theorem readManifestEntries_of_length (h : bytes.length = n * 64) :
    (readManifestEntries n bytes).length = n ∧
      (readManifestEntries n bytes).flatMap LicenseManifestEntryV1.encode = bytes := by
  induction n generalizing bytes with
  | zero =>
    rw [Nat.zero_mul, List.length_eq_zero_iff] at h
    subst h
    exact ⟨rfl, rfl⟩
  | succ n ih =>
    have hrest : ((bytes.drop 32).drop 32).length = n * 64 := by
      simp only [List.length_drop]
      omega
    rcases ih hrest with ⟨hlength, hbytes⟩
    simp only [readManifestEntries, Bytes.cut, List.length_cons, List.flatMap_cons, hlength,
      hbytes, LicenseManifestEntryV1.encode, List.append_assoc, true_and]
    rw [Bytes.b32_take (by grind), Bytes.b32_take (by omega)]

theorem readManifestEntries_flatMap (entries : List LicenseManifestEntryV1) :
    readManifestEntries entries.length (entries.flatMap LicenseManifestEntryV1.encode) =
      entries := by
  induction entries with
  | nil => rfl
  | cons e entries ih =>
    simp only [List.length_cons, readManifestEntries, List.flatMap_cons,
      LicenseManifestEntryV1.encode, List.append_assoc, Bytes.cut_be_append, Bytes.toB32_b32]
    congr 1

theorem length_flatMap_entry (entries : List LicenseManifestEntryV1) :
    (entries.flatMap LicenseManifestEntryV1.encode).length = entries.length * 64 := by
  simp [List.length_flatMap, LicenseManifestEntryV1.encode]

variable {m : MutLicenseManifestV1}

theorem MutLicenseManifestV1.encode_eq_ok (h : m.encode = .ok bytes) :
    bytes.length = 42 + m.licenses.length * 64 ∧
      0 < m.licenses.length ∧ m.licenses.length ≤ 1024 := by
  simp only [encode, validate, ok_rules, not_or, not_lt] at h
  rcases h with ⟨_, ⟨-, hsome, hmany⟩, rfl⟩
  refine ⟨?_, List.length_pos_iff.mpr hsome, hmany⟩
  simp only [List.length_append, Bytes.length_be, length_flatMap_entry]
  omega

theorem BtcLicenseManifestV1.encode_eq_ok {m : BtcLicenseManifestV1} (h : m.encode = .ok bytes) :
    bytes.length = 74 + m.licenses.length * 64 ∧
      0 < m.licenses.length ∧ m.licenses.length ≤ 1024 := by
  simp only [encode, validate, ok_rules, not_or, not_lt] at h
  rcases h with ⟨_, ⟨-, hsome, hmany⟩, rfl⟩
  refine ⟨?_, List.length_pos_iff.mpr hsome, hmany⟩
  simp only [List.length_append, Bytes.length_be, length_flatMap_entry]
  omega

/-- A count of licences is read back. -/
theorem toNat_licenseCount (h : n ≤ 1024) : (UInt32.ofNat n).toNat = n := by
  apply UInt32.toNat_ofNat_of_lt'
  rw [UInt32.size]
  omega

/-- The manifest decoder accepts exactly the encodings of manifests. -/
theorem decodeMutManifest_eq_ok :
    decodeMutManifest bytes = .ok m ↔ m.encode = .ok bytes := by
  constructor
  · intro h
    simp only [decodeMutManifest, Bytes.cut, ok_rules] at h
    rcases h with ⟨_, hshort, _, -, _, hlength, _, hvalid, rfl⟩
    replace hlength := not_not.mp (reject_eq_ok.mp hlength)
    -- the rest of the bytes is the list
    have hrest : ((((bytes.drop 2).drop 4).drop 32).drop 4).length =
        Bytes.beNat ((((bytes.drop 2).drop 4).drop 32).take 4) * 64 := by
      simp only [List.length_drop]
      omega
    rcases readManifestEntries_of_length hrest with ⟨hcount, hentries⟩
    simp only [MutLicenseManifestV1.encode, hvalid, ok_bind, Except.ok.injEq, hcount, hentries]
    change Bytes.u16 _ ++ (Bytes.u32 _ ++ (Bytes.b32 _ ++ (Bytes.u32 (Bytes.toU32 _) ++ _))) = _
    simp (disch := grind) only [Bytes.u16_take, Bytes.u32_take, Bytes.b32_take]
  · intro h
    rcases MutLicenseManifestV1.encode_eq_ok h with ⟨hlength, hsome, hmany⟩
    simp only [MutLicenseManifestV1.encode, ok_rules] at h
    rcases h with ⟨_, hvalid, rfl⟩
    have hcount : Bytes.beNat (Bytes.u32 (UInt32.ofNat m.licenses.length)) = m.licenses.length := by
      rw [Bytes.u32, toNat_licenseCount hmany, Bytes.beNat_be_of_lt (by omega)]
    simp only [decodeMutManifest, Bytes.cut_be_append, hcount, readManifestEntries_flatMap,
      Bytes.toU16_u16, Bytes.toU32_u32, Bytes.toB32_b32, hlength, ok_rules]
    exact ⟨(), by omega, (), by omega, (), by simp, (), hvalid, trivial⟩

/-- Bitcoin manifests have one encoding. -/
theorem BtcLicenseManifestV1.decode_eq_ok {m : BtcLicenseManifestV1} :
    BtcLicenseManifestV1.decode bytes = .ok m ↔ m.encode = .ok bytes := by
  constructor
  · intro h
    simp only [BtcLicenseManifestV1.decode, Bytes.cut, ok_rules, Prod.exists, im_readU16Be_eq_ok,
      im_readU32Be_eq_ok] at h
    rcases h with ⟨version, _, rfl, networkId, bs, rfl, _, hshort, count, entries, hbs, _, hlimits,
      _, hvalid, rfl⟩
    rw [not_or, not_or, not_not] at hlimits
    rcases readManifestEntries_of_length hlimits.2.2 with ⟨hcount, hentries⟩
    simp only [BtcLicenseManifestV1.encode, hvalid, ok_bind, Except.ok.injEq, hcount, hentries,
      UInt32.ofNat_toNat, ← hbs]
    simp (disch := grind) only [Bytes.b32_take]
  · intro h
    rcases BtcLicenseManifestV1.encode_eq_ok h with ⟨hlength, hsome, hmany⟩
    simp only [BtcLicenseManifestV1.encode, ok_rules] at h
    rcases h with ⟨_, hvalid, rfl⟩
    have hcount := toNat_licenseCount hmany
    have hlimits : ¬ (UInt32.ofNat m.licenses.length = 0 ∨ 1024 < UInt32.ofNat m.licenses.length ∨
        (m.licenses.flatMap LicenseManifestEntryV1.encode).length ≠
          (UInt32.ofNat m.licenses.length).toNat * 64) := by
      rw [← UInt32.toNat_inj, UInt32.lt_iff_toNat_lt, hcount, length_flatMap_entry]
      have hzero : (0 : UInt32).toNat = 0 := rfl
      have hlimit : (1024 : UInt32).toNat = 1024 := rfl
      omega
    simp only [BtcLicenseManifestV1.decode, ok_rules, Prod.exists, im_readU16Be_eq_ok,
      im_readU32Be_eq_ok]
    refine ⟨_, _, rfl, _, _, rfl, (), by simp; omega, ?_⟩
    simp only [Bytes.cut_be_append, Bytes.toB32_b32]
    exact ⟨_, _, rfl, (), hlimits, (), by simpa [hcount, readManifestEntries_flatMap] using hvalid,
      by rw [hcount, readManifestEntries_flatMap]⟩

/-! ## Purchases -/

/-- Native purchases have one encoding. -/
theorem decodeNativePurchaseOperation_eq_ok {p : LicensePurchaseMutV1} :
    decodeNativePurchaseOperation op = .ok p ↔ p.operation = .ok op := by
  constructor
  · intro h
    simp only [decodeNativePurchaseOperation, Bytes.cut, ok_rules, not_or, not_not, Prod.exists,
      readVaruint_eq_ok, decodeMutManifest_eq_ok] at h
    rcases h with ⟨_, ⟨htype, hversion⟩, _, hshort, len, bytes, hlen, _, hbytes, manifest,
      hmanifest, rfl⟩
    rcases op with ⟨opType, opVersion, payload⟩
    dsimp only at htype hversion hlen hshort
    subst htype hversion
    rw [encodeVaruint_append_eq hbytes] at hlen
    simp only [LicensePurchaseMutV1.operation, hmanifest, ok_bind, ← hlen]
    simp (disch := grind) only [Bytes.u16_take, Bytes.b32_take]
  · intro h
    simp only [LicensePurchaseMutV1.operation, ok_rules] at h
    rcases h with ⟨manifest, hmanifest, rfl⟩
    rcases MutLicenseManifestV1.encode_eq_ok hmanifest with ⟨hlength, hsome, hmany⟩
    have hsmall : manifest.length < 2 ^ 64 := by omega
    have hpos := length_encodeVaruint_pos (UInt64.ofNat manifest.length)
    simp only [decodeNativePurchaseOperation, Bytes.cut_be_append, ok_rules, Prod.exists,
      readVaruint_eq_ok, decodeMutManifest_eq_ok, Bytes.toB32_b32, Bytes.toU16_u16]
    refine ⟨(), by simp, (), ?_, UInt64.ofNat manifest.length, manifest, rfl, (), ?_, p.manifest,
      hmanifest, rfl⟩
    · simp only [encodeVar, List.length_append, Bytes.length_be]
      omega
    · rw [UInt64.toNat_ofNat_of_lt' hsmall]
      simp

/-- The limits the decoder of a purchase enforces; no byte string has 2^64 bytes. -/
structure BitcoinSpvProofV1.WithinLimits (proof : BitcoinSpvProofV1) : Prop where
  rawTransaction : proof.rawTransaction.length < 2 ^ 64
  merkleBranch : proof.merkleBranch.length ≤ 64
  headers : proof.headers.length ≤ 64

variable {k : Nat}

theorem branch_eq_ok {branch : List Bytes32} :
    (∃ xs, replicateM (take ProtocolError.invalidManifest 32) k bs = .ok (xs, rest) ∧
        xs.map Bytes.toB32 = branch) ↔
      branch.length = k ∧ bs = branch.flatMap Bytes.b32 ++ rest :=
  replicateM_take_eq_ok (fun _ => Bytes.b32_toB32) Bytes.toB32_b32 fun _ => Bytes.length_be ..

theorem headers_eq_ok {headers : List BitcoinHeader} :
    (∃ xs, replicateM (take ProtocolError.invalidManifest 80) k bs = .ok (xs, rest) ∧
        xs.map (fun raw => ({ raw := Bytes.toB80 raw } : BitcoinHeader)) = headers) ↔
      headers.length = k ∧ bs = (headers.flatMap fun header => Bytes.b80 header.raw) ++ rest :=
  replicateM_take_eq_ok (g := fun raw => ({ raw := Bytes.toB80 raw } : BitcoinHeader))
    (fun _ => Bytes.b80_toB80)
    (fun header => congrArg BitcoinHeader.mk (Bytes.toB80_b80 header.raw))
    fun _ => Bytes.length_be ..

/-- A count field of at most 64. -/
theorem count_le {n : UInt64} (h : ¬ 64 < n) : n.toNat ≤ 64 := by
  rwa [UInt64.lt_iff_toNat_lt, not_lt] at h

theorem toNat_count (h : k ≤ 64) :
    (UInt64.ofNat k).toNat = k ∧ ¬ 64 < UInt64.ofNat k := by
  have hcount : (UInt64.ofNat k).toNat = k := by
    rw [UInt64.toNat_ofNat']
    omega
  exact ⟨hcount, by rwa [UInt64.lt_iff_toNat_lt, hcount, not_lt]⟩

/-- The decoder accepts exactly the payloads of purchases within its limits. -/
theorem LicensePurchaseBtcV1.decodePayload_eq_ok {p : LicensePurchaseBtcV1} :
    LicensePurchaseBtcV1.decodePayload bytes = .ok p ↔
      p.proof.WithinLimits ∧ p.payload = .ok bytes := by
  have hmanifest {field mid rest : Bytes} {m : BtcLicenseManifestV1} :
      (BtcLicenseManifestV1.decode field).map (fun m => (m, mid)) = .ok (m, rest) ↔
        m.encode = .ok field ∧ mid = rest := by
    rw [← BtcLicenseManifestV1.decode_eq_ok]
    cases BtcLicenseManifestV1.decode field <;> simp [Except.map]
  constructor
  · intro h
    simp only [LicensePurchaseBtcV1.decodePayload, ok_rules, not_not, Prod.exists] at h
    rcases h with ⟨p', rest, h, _, rfl, rfl⟩
    rcases run_bind_eq_ok.mp h with ⟨field, mid, hfield, h⟩
    rcases run_bind_eq_ok.mp h with ⟨manifest, _, hm, h⟩
    rcases hmanifest.mp hm with ⟨hencode, rfl⟩
    simp only [run_bind_eq_ok, readVar_eq_ok, im_readU32Be_eq_ok, im_readVaruint_eq_ok,
      run_rejectIf_eq_ok, run_pure_eq_ok] at hfield h
    rcases h with ⟨raw, _, ⟨hraw, rfl⟩, payment, _, rfl, output, _, rfl, txIndex, _, rfl,
      branchLen, _, rfl, _, _, ⟨hbranch, rfl⟩, branch, _, hbranchRead, headerLen, _, rfl, _, _,
      ⟨hheaders, rfl⟩, headers, _, hheadersRead, height, _, rfl, rfl, rfl⟩
    rcases branch_eq_ok.mp ⟨branch, hbranchRead, rfl⟩ with ⟨hbranchLen, rfl⟩
    rcases headers_eq_ok.mp ⟨headers, hheadersRead, rfl⟩ with ⟨hheaderLen, rfl⟩
    refine ⟨⟨hraw, hbranchLen ▸ count_le hbranch, hheaderLen ▸ count_le hheaders⟩, ?_⟩
    simp only [payload, hencode, ok_bind, hbranchLen, hheaderLen, UInt64.ofNat_toNat, hfield.2,
      List.append_nil]
  · rintro ⟨hlimits, h⟩
    simp only [payload, ok_rules] at h
    rcases h with ⟨field, hencode, rfl⟩
    rcases BtcLicenseManifestV1.encode_eq_ok hencode with ⟨hlength, -, hmany⟩
    rcases toNat_count hlimits.merkleBranch with ⟨hbranchLen, hbranch⟩
    rcases toNat_count hlimits.headers with ⟨hheaderLen, hheaders⟩
    rcases branch_eq_ok.mpr ⟨hbranchLen.symm, rfl⟩ with ⟨branch, hbranchRead, hbranchEq⟩
    rcases headers_eq_ok.mpr ⟨hheaderLen.symm, rfl⟩ with ⟨headers, hheadersRead, hheadersEq⟩
    simp only [LicensePurchaseBtcV1.decodePayload, ok_rules, not_not, Prod.exists]
    refine ⟨p, [], ?_, (), rfl, rfl⟩
    refine run_bind_eq_ok.mpr ⟨field, _, readVar_eq_ok.mpr ⟨by omega, rfl⟩, ?_⟩
    refine run_bind_eq_ok.mpr ⟨p.manifest, _, hmanifest.mpr ⟨hencode, rfl⟩, ?_⟩
    simp only [run_bind_eq_ok, readVar_eq_ok, im_readU32Be_eq_ok, im_readVaruint_eq_ok,
      run_rejectIf_eq_ok, run_pure_eq_ok]
    refine ⟨_, _, ⟨hlimits.rawTransaction, rfl⟩, _, _, rfl, _, _, rfl, _, _, rfl, _, _, rfl, (), _,
      ⟨hbranch, rfl⟩, branch, _, hbranchRead, _, _, rfl, (), _, ⟨hheaders, rfl⟩, headers, _,
      hheadersRead, p.proof.containingBlockHeight, [], (List.append_nil _).symm, ?_, rfl⟩
    rw [hbranchEq, hheadersEq]

/-! ## Headers -/

/-- What the reader of the header wire accepts is the encoding of its value. -/
theorem packMReadVaruint_canonical {fuel shift value v : Nat} {consumed : Bytes}
    (h : packMReadVaruint fuel shift value consumed bs = .ok (v, rest)) :
    consumed ++ bs = writeVaruint 10 v ++ rest := by
  induction fuel generalizing shift value consumed bs with
  | zero => cases h
  | succ fuel ih =>
    cases bs with
    | nil => cases h
    | cons byte bs =>
      simp only [packMReadVaruint] at h
      split_ifs at h with hoverflow hlast hminimal
      · cases h
        rw [not_not.mp hminimal, List.append_assoc, List.singleton_append]
      · have hrest := ih h
        rwa [List.append_assoc, List.singleton_append] at hrest

/-- It accepts what the other reader accepts, if that is minimal. -/
theorem packMReadVaruint_of_readVaruintBytes {fuel shift value v : Nat} {consumed : Bytes}
    (h : readVaruintBytes fuel shift value bs = .ok (v, rest))
    (hminimal : consumed ++ bs = writeVaruint 10 v ++ rest) :
    packMReadVaruint fuel shift value consumed bs = .ok (v, rest) := by
  induction fuel generalizing shift value consumed bs with
  | zero => cases h
  | succ fuel ih =>
    cases bs with
    | nil => cases h
    | cons byte bs =>
      rw [← List.singleton_append, ← List.append_assoc] at hminimal
      simp only [readVaruintBytes] at h
      split_ifs at h with htop hhigh hwide hlast
      · cases h
        have hwritten := List.append_cancel_right hminimal
        rw [packMReadVaruint, if_neg (by omega), if_pos hlast,
          if_neg (not_not.mpr hwritten.symm)]
      · rw [packMReadVaruint, if_neg (by omega), if_neg hlast]
        exact ih h hminimal

theorem packMReadVaruint_writeVaruint (h : n < 2 ^ 64) (rest : Bytes) :
    packMReadVaruint 10 0 0 [] (writeVaruint 10 n ++ rest) = .ok (n, rest) := by
  refine packMReadVaruint_of_readVaruintBytes ?_ (List.nil_append _)
  have hloop := readVaruintBytes_writeVaruint 10 0 0 n rest (by decide) (by omega) (by omega)
    (by decide) (by decide)
  rwa [pow_zero, Nat.mul_one, Nat.add_zero] at hloop

theorem readRawHeaders_of_length (h : bytes.length = n * 80) :
    (readRawHeaders n bytes).length = n ∧
      ((readRawHeaders n bytes).flatMap fun header => Bytes.b80 header.raw) = bytes := by
  induction n generalizing bytes with
  | zero =>
    rw [Nat.zero_mul, List.length_eq_zero_iff] at h
    subst h
    exact ⟨rfl, rfl⟩
  | succ n ih =>
    have hrest : (bytes.drop 80).length = n * 80 := by
      rw [List.length_drop]
      omega
    rcases ih hrest with ⟨hlength, hbytes⟩
    simp only [readRawHeaders, Bytes.cut, List.length_cons, List.flatMap_cons, hlength, hbytes,
      true_and]
    exact Bytes.b80_take (by omega)

theorem readRawHeaders_flatMap (headers : List BitcoinHeader) :
    readRawHeaders headers.length (headers.flatMap fun header => Bytes.b80 header.raw) =
      headers := by
  induction headers with
  | nil => rfl
  | cons header headers ih =>
    simp only [List.length_cons, readRawHeaders, List.flatMap_cons, Bytes.cut_be_append,
      Bytes.toB80_b80, ih]

variable {h : BitcoinHeadersV1}

/-- The decoder accepts exactly the payloads of header batches. -/
theorem BitcoinHeadersV1.decodePayload_eq_ok :
    decodePayload bytes = .ok h ↔ h.payload = .ok bytes := by
  constructor
  · intro hdecode
    simp only [decodePayload, Bytes.cut, ok_rules, not_not, Prod.exists] at hdecode
    rcases hdecode with ⟨_, hshort, count, rest, hcount, _, hlimits, _, hlength, rfl⟩
    rcases readRawHeaders_of_length hlength with ⟨hheaders, hbytes⟩
    have hrest := packMReadVaruint_canonical hcount
    rw [List.nil_append] at hrest
    have hsome : readRawHeaders count rest ≠ [] := by
      rw [← List.length_pos_iff, hheaders]
      omega
    simp only [payload, hheaders, hbytes, ← hrest, ok_rules]
    refine ⟨(), by simp only [hsome, false_or]; omega, ?_⟩
    simp (disch := grind) only [Bytes.b32_take, Bytes.u32_take]
  · intro hpayload
    simp only [payload, ok_rules] at hpayload
    rcases hpayload with ⟨_, hlimits, rfl⟩
    rw [not_or, maxHeaders, not_lt, ← List.length_eq_zero_iff] at hlimits
    have hlength : (h.headers.flatMap fun header => Bytes.b80 header.raw).length =
        h.headers.length * 80 := by
      simp [List.length_flatMap]
    simp only [decodePayload, Bytes.cut_be_append, ok_rules, Prod.exists,
      packMReadVaruint_writeVaruint (show h.headers.length < 2 ^ 64 by omega), Prod.mk.injEq]
    refine ⟨(), ?_, _, _, ⟨rfl, rfl⟩, (), by rw [maxHeaders]; omega, (), by rw [hlength]; simp, ?_⟩
    · simp only [List.length_append, Bytes.length_be, hlength]
      omega
    · rw [readRawHeaders_flatMap, Bytes.toU32_u32, Bytes.toB32_b32]

/-- Header operations have one encoding. -/
theorem BitcoinHeadersV1.fromOperation_eq_ok :
    fromOperation op = .ok h ↔ h.toOperation = .ok op := by
  simp only [fromOperation, toOperation, ok_rules, not_or, not_not, decodePayload_eq_ok]
  constructor
  · rintro ⟨_, ⟨htype, hversion⟩, hpayload⟩
    refine ⟨_, hpayload, ?_⟩
    rw [← htype, ← hversion]
  · rintro ⟨bytes, hpayload, rfl⟩
    exact ⟨(), ⟨rfl, rfl⟩, hpayload⟩

end Mutiny
