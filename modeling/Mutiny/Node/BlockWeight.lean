import Mutiny.Node.BlockPayload
import Mutiny.Protocol.Canonical

/-!
# The weight of a block is its size

The weight limit and the fee controller count the bytes of a body without encoding it.  The count
is the number of bytes the encoder writes after the header: the length function of the VarUInt
agrees with its writer, and the two readers of a VarUInt accept the same prefixes.

Main result:

- Theorem {lit}`varuint_canonical_and_weight_exact`: the code is canonical, the weight the
  true size.
-/

namespace Mutiny

open Result

/-! ## The other reader -/

/-- A value that was read fits in 64 bits: nine groups of seven bits, and one bit more. -/
theorem packMReadVaruint_lt {fuel shift value v : Nat} {consumed bs rest : Bytes}
    (hvalue : value < 2 ^ shift) (hshift : 7 ∣ shift)
    (h : packMReadVaruint fuel shift value consumed bs = .ok (v, rest)) : v < 2 ^ 64 := by
  induction fuel generalizing shift value consumed bs with
  | zero => cases h
  | succ fuel ih =>
    cases bs with
    | nil => cases h
    | cons byte bs =>
      have hlow : byte.toNat % 128 < 2 ^ 7 := Nat.mod_lt _ (by decide)
      have hgroup : value ||| (byte.toNat % 128) <<< shift < 2 ^ (shift + 7) := by
        apply Nat.or_lt_two_pow
        · exact hvalue.trans_le (Nat.pow_le_pow_right (by decide) (by omega))
        · rw [Nat.shiftLeft_eq, Nat.add_comm, Nat.pow_add]
          exact Nat.mul_lt_mul_of_pos_right hlow (by positivity)
      simp only [packMReadVaruint] at h
      split_ifs at h with hoverflow hlast hminimal
      · cases h
        rcases Nat.lt_or_ge shift 63 with hsmall | hlarge
        · exact hgroup.trans_le (Nat.pow_le_pow_right (by decide) (by omega))
        · -- the last group may hold one bit
          obtain rfl : shift = 63 := by omega
          have hbit : byte.toNat % 128 < 2 ^ 1 := by omega
          apply Nat.or_lt_two_pow
          · omega
          · rw [Nat.shiftLeft_eq]
            omega
      · exact ih hgroup (Nat.dvd_add_self_right.mpr hshift) h

/-- The reader of the header wire accepts what the strict reader accepts, with the same value. -/
theorem packMReadVaruint_eq_ok {bs rest : Bytes} {n : Nat} :
    packMReadVaruint 10 0 0 [] bs = .ok (n, rest) ↔
      ∃ v : UInt64, v.toNat = n ∧ readVaruint bs = .ok (v, rest) := by
  constructor
  · intro h
    have hlt : n < 2 ^ 64 := packMReadVaruint_lt (by decide) (by decide) h
    have hbytes := packMReadVaruint_canonical h
    refine ⟨UInt64.ofNat n, UInt64.toNat_ofNat_of_lt' hlt, ?_⟩
    rw [readVaruint_eq_ok, encodeVaruint, UInt64.toNat_ofNat_of_lt' hlt, ← hbytes, List.nil_append]
  · rintro ⟨v, rfl, h⟩
    rw [readVaruint_eq_ok] at h
    rw [h, encodeVaruint, packMReadVaruint_writeVaruint v.toNat_lt]

/-! ## Lengths -/

/-- The loop counts the groups the writer writes after the first one. -/
theorem varuintLenFrom_eq (fuel value len : Nat) :
    varuintLenFrom fuel value len + 1 = len + (writeVaruint (fuel + 1) value).length := by
  induction fuel generalizing value len with
  | zero =>
    rw [varuintLenFrom, writeVaruint]
    split <;> rfl
  | succ fuel ih =>
    rw [varuintLenFrom, writeVaruint]
    by_cases hmore : 128 ≤ value
    · have hrest : value / 128 ≠ 0 := by omega
      rw [if_pos hmore, if_pos hrest, ih, List.length_cons]
      omega
    · have hrest : ¬ value / 128 ≠ 0 := by omega
      rw [if_neg hmore, if_neg hrest, List.length_singleton]

theorem varuintLen_eq (value : Nat) : varuintLen value = (writeVaruint 10 value).length := by
  have h : varuintLenFrom 9 value 1 + 1 = 1 + (writeVaruint 10 value).length :=
    varuintLenFrom_eq 9 value 1
  rw [varuintLen]
  omega

theorem countLength_eq_ok {weight w : UInt64} {len : Nat} :
    countLength weight len = .ok w ↔ w.toNat = weight.toNat + len := by
  rw [countLength, okOr_eq_ok, UInt64.tryFrom_eq_some]

/-- Counting a part after another overflows exactly when counting both at once does. -/
theorem countLength_bind (weight : UInt64) (m n : Nat) :
    (countLength weight m >>= fun w => countLength w n) = countLength weight (m + n) := by
  by_cases hfits : weight.toNat + m < 2 ^ 64
  · have hw : countLength weight m = .ok (UInt64.ofNat (weight.toNat + m)) := by
      rw [countLength_eq_ok, UInt64.toNat_ofNat_of_lt' hfits]
    rw [hw, ok_bind, countLength, countLength, UInt64.toNat_ofNat_of_lt' hfits, Nat.add_assoc]
  · have hall : ¬ weight.toNat + (m + n) < 2 ^ 64 := by omega
    simp only [countLength, UInt64.tryFrom, if_neg hfits, if_neg hall]
    rfl

theorem foldlM_countLength {α : Type} (len : α → Nat) (parts : List α) (weight : UInt64) :
    parts.foldlM (fun w part => countLength w (len part)) weight =
      countLength weight (parts.map len).sum := by
  induction parts generalizing weight with
  | nil =>
    symm
    exact countLength_eq_ok.mpr (Nat.add_zero _).symm
  | cons part parts ih =>
    simp only [List.foldlM_cons, ih, List.map_cons, List.sum_cons, countLength_bind]

variable {operations : List ProtocolOperationV1}

/-- The weight is the number of bytes of the body, if that fits. -/
theorem blockBodyWeight_eq_ok (header : HeaderV1) {txs : List TransactionV1} {w : UInt64} :
    blockBodyWeight txs operations = .ok w ↔
      (blockBytes header txs operations).length = 272 + w.toNat := by
  have hstart : (UInt64.ofNat (varuintLen txs.length)).toNat = varuintLen txs.length := by
    have hshort := length_writeVaruint_le 10 txs.length
    rw [← varuintLen_eq] at hshort
    exact UInt64.toNat_ofNat_of_lt' (hshort.trans_lt (by decide))
  simp only [blockBodyWeight, foldlM_countLength, countLength_bind]
  rw [countLength_eq_ok, hstart, varuintLen_eq, varuintLen_eq, blockBytes]
  simp only [List.length_append, List.length_flatMap, HeaderV1.length_encode]
  change w.toNat = _ + ((txs.map fun tx => tx.encodeFull.length).sum + _) ↔ _
  omega

/-! ## The payload of a block -/

/-- The payload of a stored block is its header and the encodings it stores. -/
theorem length_of_encodeBlockPayload {block : BlockState} {txs : List TransactionV1} {out : Bytes}
    (htxs : block.transactions = txs.map TransactionV1.encodeFull)
    (hoperations : block.protocolOperations = operations.map ProtocolOperationV1.encode)
    (h : encodeBlockPayload block = .ok out) (header : HeaderV1) :
    out.length = (blockBytes header txs operations).length ∧ out.length ≤ maxP2pPayload := by
  simp only [encodeBlockPayload, ok_rules, not_not] at h
  rcases h with ⟨_, hheader, _, -, _, -, _, hlimit, rfl⟩
  refine ⟨?_, Nat.not_lt.mp hlimit⟩
  rw [htxs, hoperations, ← List.flatMap_def, ← List.flatMap_def, blockBytes]
  simp only [List.length_append, List.length_map, HeaderV1.length_encode, hheader]

/-- The VarUInt is a canonical prefix code: reading what was written in front of any bytes gives
the value and leaves the bytes; what is consumed is the encoding of the value and a failed read
consumes nothing; the second reader accepts the same prefixes with the same values; and the length
function is the length of the encoding.  So the weight of a body is the number of bytes that are
written after the header, for the lists of a stored block that is served and for any others. -/
theorem varuint_canonical_and_weight_exact :
    (∀ v suffix, readVaruintInPlace (encodeVaruint v ++ suffix) = (.ok v, suffix)) ∧
    (∀ input, (∃ v rest, readVaruintInPlace input = (.ok v, rest) ∧
        input = encodeVaruint v ++ rest) ∨
      ∃ e, readVaruintInPlace input = (.error e, input)) ∧
    (∀ input n rest, packMReadVaruint 10 0 0 [] input = .ok (n, rest) ↔
      ∃ v, v.toNat = n ∧ readVaruintInPlace input = (.ok v, rest)) ∧
    (∀ v : UInt64, varuintLen v.toNat = (encodeVaruint v).length) ∧
    (∀ (block : BlockState) txs operations out,
      block.transactions = txs.map TransactionV1.encodeFull →
      block.protocolOperations = operations.map ProtocolOperationV1.encode →
      encodeBlockPayload block = .ok out →
      ∃ w, blockBodyWeight txs operations = .ok w ∧ out.length = 272 + w.toNat) ∧
    ∀ header txs operations w, blockBodyWeight txs operations = .ok w ↔
      (blockBytes header txs operations).length = 272 + w.toNat := by
  refine ⟨?_, ?_, ?_, fun v => varuintLen_eq _, ?_,
    fun header _ _ _ => blockBodyWeight_eq_ok header⟩
  · intro v suffix
    exact readVaruintInPlace_eq_ok.mpr (reads_varuint v suffix)
  · intro input
    rcases readVaruintInPlace_eq input with ⟨v, rest, hread, hplace⟩ | ⟨e, -, hplace⟩
    · exact .inl ⟨v, rest, hplace, canonical_varuint hread⟩
    · exact .inr ⟨e, hplace⟩
  · intro input n rest
    simp only [packMReadVaruint_eq_ok, readVaruintInPlace_eq_ok]
  · intro block txs operations out htxs hoperations hout
    rcases length_of_encodeBlockPayload htxs hoperations hout (HeaderV1.decode [])
      with ⟨hlength, hlimit⟩
    have hheader : 272 ≤ out.length := by
      rw [hlength, blockBytes, List.length_append, HeaderV1.length_encode]
      omega
    have hsmall : out.length - 272 < 2 ^ 64 := by
      rw [maxP2pPayload] at hlimit
      omega
    refine ⟨UInt64.ofNat (out.length - 272), ?_, ?_⟩
    · rw [blockBodyWeight_eq_ok (HeaderV1.decode []), UInt64.toNat_ofNat_of_lt' hsmall, ← hlength]
      omega
    · rw [UInt64.toNat_ofNat_of_lt' hsmall]
      omega

end Mutiny
