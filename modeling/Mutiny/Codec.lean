import Mutiny.Lib.Reader
import Mathlib.Data.Nat.Bitwise

/-!
# Consensus encodings

Integers are written big-endian at fixed width, lengths as canonical VarUInts:
seven bits a byte, least significant first, the high bit set on every byte but
the last.
-/

namespace Mutiny

open Reader

/-- The errors of the decoders. -/
inductive DecodeError where
  | unexpectedEof
  | overflow
  | nonCanonicalVarUInt
  | varUIntTooLong
deriving DecidableEq, Repr

def DecodeError.message : DecodeError → String
  | .unexpectedEof => "unexpected end of input"
  | .overflow => "VarUInt overflow"
  | .nonCanonicalVarUInt => "non-canonical VarUInt"
  | .varUIntTooLong => "VarUInt exceeds the maximum encoded length"

def readU8 : Reader DecodeError UInt8 := do
  let b ← take .unexpectedEof 1
  pure (b.headD 0)

def readU16Be : Reader DecodeError UInt16 := do
  let b ← take .unexpectedEof 2
  pure (Bytes.toU16 b)

def readU32Be : Reader DecodeError UInt32 := do
  let b ← take .unexpectedEof 4
  pure (Bytes.toU32 b)

def readU64Be : Reader DecodeError UInt64 := do
  let b ← take .unexpectedEof 8
  pure (Bytes.toU64 b)

def readU256Be : Reader DecodeError Bytes32 := do
  let b ← take .unexpectedEof 32
  pure (Bytes.toB32 b)

/-- The writer's loop.  A 64-bit value is exhausted after ten bytes. -/
def writeVaruint : Nat → Nat → Bytes
  | 0, _ => []
  | fuel + 1, value =>
    if value / 128 ≠ 0 then UInt8.ofNat (value % 128 + 128) :: writeVaruint fuel (value / 128)
    else [UInt8.ofNat (value % 128)]

/-- The shortest VarUInt of a value. -/
def encodeVaruint (value : UInt64) : Bytes := writeVaruint 10 value.toNat

/-- The reader's loop: {lit}`fuel` is the number of bytes it may still consume. -/
def readVaruintBytes : Nat → Nat → Nat → Bytes → Except DecodeError (Nat × Bytes)
  | 0, _, _, _ => .error .varUIntTooLong
  | _ + 1, _, _, [] => .error .unexpectedEof
  | fuel + 1, shift, value, byte :: rest =>
    let payload := byte.toNat % 128
    if shift = 63 ∧ 1 < payload then .error .overflow
    else if 63 < shift ∧ payload ≠ 0 then .error .overflow
    else if 64 ≤ shift then .error .overflow
    else
      let value := value ||| payload <<< shift
      if byte.toNat < 128 then .ok (value, rest)
      else readVaruintBytes fuel (shift + 7) value rest

/-- Strict reader: the bytes consumed must be the encoding of the value. -/
def readVaruint : Reader DecodeError UInt64 := fun input =>
  match readVaruintBytes 10 0 0 input with
  | .error e => .error e
  | .ok (value, rest) =>
    if encodeVaruint (UInt64.ofNat value) ≠ input.take (input.length - rest.length) then
      .error .nonCanonicalVarUInt
    else .ok (UInt64.ofNat value, rest)

/-- The strict reader on the slice it is given: what it returns, and the slice it leaves
behind.  Every early return leaves {lit}`input`. -/
def readVaruintInPlace (input : Bytes) : Except DecodeError UInt64 × Bytes :=
  match readVaruintBytes 10 0 0 input with
  | .error e => (.error e, input)
  | .ok (value, rest) =>
    if encodeVaruint (UInt64.ofNat value) ≠ input.take (input.length - rest.length) then
      (.error .nonCanonicalVarUInt, input)
    else (.ok (UInt64.ofNat value), rest)

/-! ## Round trips -/

theorem reads_u8 (b : UInt8) : Reads readU8 [b] b :=
  reads_take_map (g := fun bs => bs.headD 0) rfl

theorem reads_u16 (v : UInt16) : Reads readU16Be (Bytes.u16 v) v := by
  have h : Reads readU16Be (Bytes.u16 v) (Bytes.toU16 (Bytes.u16 v)) :=
    reads_take_map (Bytes.length_be ..)
  rwa [Bytes.toU16_u16] at h

theorem reads_u32 (v : UInt32) : Reads readU32Be (Bytes.u32 v) v := by
  have h : Reads readU32Be (Bytes.u32 v) (Bytes.toU32 (Bytes.u32 v)) :=
    reads_take_map (Bytes.length_be ..)
  rwa [Bytes.toU32_u32] at h

theorem reads_u64 (v : UInt64) : Reads readU64Be (Bytes.u64 v) v := by
  have h : Reads readU64Be (Bytes.u64 v) (Bytes.toU64 (Bytes.u64 v)) :=
    reads_take_map (Bytes.length_be ..)
  rwa [Bytes.toU64_u64] at h

theorem reads_u256 (v : Bytes32) : Reads readU256Be (Bytes.b32 v) v := by
  have h : Reads readU256Be (Bytes.b32 v) (Bytes.toB32 (Bytes.b32 v)) :=
    reads_take_map (Bytes.length_be ..)
  rwa [Bytes.toB32_b32] at h

/-- Reading back the low digits: the accumulator holds the digits already read, below
{lit}`2 ^ shift`, and the value that is left fits in the remaining bits. -/
theorem readVaruintBytes_writeVaruint (fuel shift acc v : Nat) (rest : Bytes)
    (hacc : acc < 2 ^ shift) (hv : v * 2 ^ shift < 2 ^ 64) (hfuel : v < 128 ^ fuel)
    (hpos : 0 < fuel) (hshift : shift < 64) :
    readVaruintBytes fuel shift acc (writeVaruint fuel v ++ rest) =
      .ok (v * 2 ^ shift + acc, rest) := by
  induction fuel generalizing shift acc v with
  | zero => omega
  | succ fuel ih =>
    have hdigit : v % 128 < 128 := Nat.mod_lt _ (by decide)
    have hor (p : Nat) : acc ||| p <<< shift = p * 2 ^ shift + acc := by
      rw [Nat.shiftLeft_eq, Nat.mul_comm p, Nat.two_pow_add_eq_or_of_lt hacc, Nat.or_comm]
    have hle : v % 128 * 2 ^ shift ≤ v * 2 ^ shift := Nat.mul_le_mul_right _ (Nat.mod_le v 128)
    have htop : ¬ (shift = 63 ∧ 1 < v % 128) := by
      rintro ⟨rfl, hone⟩
      omega
    by_cases hmore : v / 128 ≠ 0
    · have hbyte : (UInt8.ofNat (v % 128 + 128)).toNat = v % 128 + 128 := by
        rw [UInt8.toNat_ofNat']
        omega
      have hmod : (v % 128 + 128) % 128 = v % 128 := by omega
      have hfits : v / 128 * 2 ^ (shift + 7) + v % 128 * 2 ^ shift = v * 2 ^ shift := by
        have hsplit := Nat.div_add_mod v 128
        calc v / 128 * 2 ^ (shift + 7) + v % 128 * 2 ^ shift
            = (128 * (v / 128) + v % 128) * 2 ^ shift := by rw [pow_add]; ring
          _ = v * 2 ^ shift := by rw [hsplit]
      have hpos' : 0 < fuel := by
        rcases Nat.eq_zero_or_pos fuel with rfl | h
        · simp only [zero_add, pow_one] at hfuel
          omega
        · exact h
      have hshift' : shift + 7 < 64 := by
        by_contra hbig
        have hone : 1 ≤ v / 128 := Nat.one_le_iff_ne_zero.mpr hmore
        have hpow : 2 ^ 64 ≤ 2 ^ (shift + 7) := Nat.pow_le_pow_right (by decide) (by omega)
        have hmul := Nat.mul_le_mul_right (2 ^ (shift + 7)) hone
        omega
      have hacc' : v % 128 * 2 ^ shift + acc < 2 ^ (shift + 7) := by
        have hup : (v % 128 + 1) * 2 ^ shift ≤ 128 * 2 ^ shift :=
          Nat.mul_le_mul_right _ hdigit
        rw [Nat.add_mul, Nat.one_mul] at hup
        have hseven : 2 ^ (shift + 7) = 128 * 2 ^ shift := by rw [pow_add]; ring
        omega
      have hstep := ih (shift + 7) (v % 128 * 2 ^ shift + acc) (v / 128) hacc' (by omega)
        (by rw [pow_succ] at hfuel; omega) hpos' hshift'
      rw [writeVaruint, if_pos hmore, List.cons_append, readVaruintBytes]
      simp only [hbyte, hmod, if_neg htop]
      rw [if_neg (by omega), if_neg (by omega), if_neg (by omega), hor, hstep]
      congr 2
      omega
    · have hsmall : v % 128 = v := by omega
      have hbyte : (UInt8.ofNat (v % 128)).toNat = v % 128 := by
        rw [UInt8.toNat_ofNat']
        omega
      have hmod : v % 128 % 128 = v % 128 := Nat.mod_mod ..
      rw [writeVaruint, if_neg hmore, List.cons_append, readVaruintBytes]
      simp only [hbyte, hmod, if_neg htop]
      rw [if_neg (by omega), if_neg (by omega), if_pos hdigit, hor, hsmall]
      rfl

theorem length_encodeVaruint_pos (v : UInt64) : 0 < (encodeVaruint v).length := by
  unfold encodeVaruint writeVaruint
  split <;> simp

theorem length_writeVaruint_le (fuel value : Nat) : (writeVaruint fuel value).length ≤ fuel := by
  induction fuel generalizing value with
  | zero => simp [writeVaruint]
  | succ fuel ih =>
    unfold writeVaruint
    split
    · exact Nat.succ_le_succ (ih _)
    · simp

/-- The strict reader inverts the writer. -/
theorem reads_varuint (v : UInt64) : Reads readVaruint (encodeVaruint v) v := by
  intro rest
  have hloop := readVaruintBytes_writeVaruint 10 0 0 v.toNat rest (by decide)
    (by have := v.toNat_lt; omega) (by have := v.toNat_lt; omega) (by decide) (by decide)
  simp only [pow_zero, Nat.mul_one, Nat.add_zero] at hloop
  have hlen : (encodeVaruint v ++ rest).length - rest.length = (encodeVaruint v).length := by
    rw [List.length_append, Nat.add_sub_cancel]
  have hof : UInt64.ofNat v.toNat = v := UInt64.ofNat_toNat
  rw [readVaruint, encodeVaruint, hloop]
  simp only [hof]
  rw [← encodeVaruint, hlen, List.take_left, if_neg (by simp)]

/-! ## Canonical encodings -/

theorem canonical_u8 : Canonical readU8 fun b => [b] := by
  apply canonical_take_map
  intro bs hlen
  rcases List.length_eq_one_iff.mp hlen with ⟨b, rfl⟩
  rfl

theorem canonical_u16 : Canonical readU16Be Bytes.u16 :=
  canonical_take_map fun _ => Bytes.u16_toU16

theorem canonical_u32 : Canonical readU32Be Bytes.u32 :=
  canonical_take_map fun _ => Bytes.u32_toU32

theorem canonical_u64 : Canonical readU64Be Bytes.u64 :=
  canonical_take_map fun _ => Bytes.u64_toU64

theorem canonical_u256 : Canonical readU256Be Bytes.b32 :=
  canonical_take_map fun _ => Bytes.b32_toB32

/-- The reader's loop leaves a suffix of its input. -/
theorem exists_consumed_readVaruintBytes {fuel shift value : Nat} {input : Bytes}
    {v : Nat} {rest : Bytes} (h : readVaruintBytes fuel shift value input = .ok (v, rest)) :
    ∃ consumed, input = consumed ++ rest := by
  induction fuel generalizing shift value input with
  | zero => cases h
  | succ fuel ih =>
    cases input with
    | nil => cases h
    | cons byte tail =>
      simp only [readVaruintBytes] at h
      split_ifs at h with htop hhigh hwide hlast
      · cases h
        exact ⟨[byte], rfl⟩
      · rcases ih h with ⟨consumed, rfl⟩
        exact ⟨byte :: consumed, rfl⟩

/-- The re-encoding test of the strict reader makes it canonical. -/
theorem canonical_varuint : Canonical readVaruint encodeVaruint := by
  intro input v rest h
  unfold readVaruint at h
  split at h
  · cases h
  · rename_i value rest' hloop
    rcases exists_consumed_readVaruintBytes hloop with ⟨consumed, rfl⟩
    rw [List.length_append, Nat.add_sub_cancel, List.take_left] at h
    split_ifs at h with hdiffer
    cases h
    rw [not_not.mp hdiffer]

/-- In place, the strict reader advances the slice when it succeeds and leaves it when it
fails. -/
theorem readVaruintInPlace_eq (input : Bytes) :
    (∃ v rest, readVaruint input = .ok (v, rest) ∧ readVaruintInPlace input = (.ok v, rest)) ∨
      ∃ e, readVaruint input = .error e ∧ readVaruintInPlace input = (.error e, input) := by
  unfold readVaruint readVaruintInPlace
  cases readVaruintBytes 10 0 0 input with
  | error e => exact .inr ⟨e, rfl, rfl⟩
  | ok result =>
    by_cases hdiffer : encodeVaruint (UInt64.ofNat result.1) ≠
        input.take (input.length - result.2.length)
    · exact .inr ⟨.nonCanonicalVarUInt, by simp only [if_pos hdiffer],
        by simp only [if_pos hdiffer]⟩
    · exact .inl ⟨UInt64.ofNat result.1, result.2, by simp only [if_neg hdiffer],
        by simp only [if_neg hdiffer]⟩

theorem readVaruintInPlace_eq_ok {input rest : Bytes} {v : UInt64} :
    readVaruintInPlace input = (.ok v, rest) ↔ readVaruint input = .ok (v, rest) := by
  rcases readVaruintInPlace_eq input with ⟨v', rest', hread, hplace⟩ | ⟨e, hread, hplace⟩
  · rw [hread, hplace, Prod.mk.injEq, Except.ok.injEq, Except.ok.injEq, Prod.mk.injEq]
  · rw [hread, hplace]
    simp

end Mutiny
