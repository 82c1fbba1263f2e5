import Mathlib.Algebra.Order.Ring.Nat
import Mathlib.Data.List.Basic
import Mathlib.Tactic.Positivity
import Mathlib.Tactic.Ring

/-!
# Byte strings and big-endian integers

Fixed-width unsigned integers are written most significant byte first.  A
fixed-size byte array is the bit vector it denotes, so that its order is the
lexicographic order of its bytes.
-/

/-- A byte string. -/
abbrev Bytes := List UInt8

/-- An array of 32 bytes, as the number its bytes spell. -/
abbrev Bytes32 := BitVec 256

instance : LawfulBEq Bytes32 := inferInstance

/-- An array of 64 bytes, as the number its bytes spell. -/
abbrev Bytes64 := BitVec 512

/-- An array of 80 bytes, as the number its bytes spell. -/
abbrev Bytes80 := BitVec 640

namespace Bytes

/-- The low {lit}`n` bytes of {lit}`v`, most significant first. -/
def be : Nat → Nat → Bytes
  | 0, _ => []
  | n + 1, v => UInt8.ofNat (v / 256 ^ n) :: be n v

/-- The number a byte string spells, most significant byte first. -/
def beNat (bs : Bytes) : Nat :=
  bs.foldl (fun acc b => acc * 256 + b.toNat) 0

@[simp]
theorem length_be (n v : Nat) : (be n v).length = n := by
  induction n with
  | zero => rfl
  | succ n ih => simp [be, ih]

private theorem foldl_be (n v acc : Nat) :
    (be n v).foldl (fun acc b => acc * 256 + b.toNat) acc = acc * 256 ^ n + v % 256 ^ n := by
  induction n generalizing acc with
  | zero => simp [be, Nat.mod_one]
  | succ n ih =>
    have hdigit : v % 256 ^ (n + 1) = v / 256 ^ n % 256 * 256 ^ n + v % 256 ^ n := by
      rw [pow_succ, Nat.mod_mul, Nat.add_comm, Nat.mul_comm]
    simp only [be, List.foldl_cons, ih, UInt8.toNat_ofNat', Nat.reducePow]
    rw [hdigit, pow_succ]
    ring

/-- Writing and reading a number keeps its low bytes. -/
theorem beNat_be (n v : Nat) : beNat (be n v) = v % 256 ^ n := by
  simp [beNat, foldl_be]

variable {n : Nat}

theorem beNat_be_of_lt {v : Nat} (h : v < 256 ^ n) : beNat (be n v) = v := by
  rw [beNat_be, Nat.mod_eq_of_lt h]

private theorem foldl_acc (bs : Bytes) (acc : Nat) :
    bs.foldl (fun acc b => acc * 256 + b.toNat) acc = acc * 256 ^ bs.length + beNat bs := by
  induction bs generalizing acc with
  | nil => simp [beNat]
  | cons b bs ih =>
    simp only [beNat, List.foldl_cons, List.length_cons]
    rw [ih, ih (0 * 256 + b.toNat), pow_succ]
    ring

theorem beNat_cons (b : UInt8) (bs : Bytes) :
    beNat (b :: bs) = b.toNat * 256 ^ bs.length + beNat bs := by
  rw [beNat, List.foldl_cons, foldl_acc, Nat.zero_mul, Nat.zero_add]

theorem beNat_append (as bs : Bytes) :
    beNat (as ++ bs) = beNat as * 256 ^ bs.length + beNat bs := by
  rw [beNat, List.foldl_append, foldl_acc]
  rfl

theorem beNat_lt (bs : Bytes) : beNat bs < 256 ^ bs.length := by
  induction bs with
  | nil => simp [beNat]
  | cons b bs ih =>
    have hb : b.toNat < 256 := b.toNat_lt
    calc beNat (b :: bs) = b.toNat * 256 ^ bs.length + beNat bs := beNat_cons b bs
      _ < b.toNat * 256 ^ bs.length + 256 ^ bs.length := by omega
      _ = (b.toNat + 1) * 256 ^ bs.length := by ring
      _ ≤ 256 * 256 ^ bs.length := Nat.mul_le_mul_right _ hb
      _ = 256 ^ (b :: bs).length := by rw [List.length_cons, pow_succ, Nat.mul_comm]

/-- Only the value modulo the width matters to what is written. -/
theorem be_add_mul (n v k : Nat) : be n (k * 256 ^ n + v) = be n v := by
  induction n generalizing k with
  | zero => rfl
  | succ n ih =>
    have hk : k * 256 ^ (n + 1) + v = k * 256 * 256 ^ n + v := by ring
    simp only [be]
    rw [hk, ih]
    congr 1
    rw [Nat.add_comm, Nat.add_mul_div_right _ _ (by positivity)]
    apply UInt8.toNat_inj.mp
    rw [UInt8.toNat_ofNat', UInt8.toNat_ofNat', Nat.add_mul_mod_self_right]

/-- Reading a byte string and writing it back gives the same bytes. -/
theorem be_beNat (bs : Bytes) : be bs.length (beNat bs) = bs := by
  induction bs with
  | nil => rfl
  | cons b bs ih =>
    have hdiv : beNat (b :: bs) / 256 ^ bs.length = b.toNat := by
      rw [beNat_cons, Nat.add_comm, Nat.add_mul_div_right _ _ (by positivity),
        Nat.div_eq_of_lt (beNat_lt bs), Nat.zero_add]
    simp only [List.length_cons, be, hdiv, UInt8.ofNat_toNat]
    rw [beNat_cons, be_add_mul, ih]

theorem be_injective {v w : Nat} (hv : v < 256 ^ n) (hw : w < 256 ^ n) (h : be n v = be n w) :
    v = w := by
  rw [← beNat_be_of_lt hv, h, beNat_be_of_lt hw]

@[simp]
theorem take_be_append (n v : Nat) (bs : Bytes) : (be n v ++ bs).take n = be n v :=
  List.take_left' (length_be n v)

@[simp]
theorem drop_be_append (n v : Nat) (bs : Bytes) : (be n v ++ bs).drop n = bs :=
  List.drop_left' (length_be n v)

/-! ## Typed fields -/

/-- Cut the first {lit}`n` bytes off a byte string. -/
def cut (n : Nat) (bs : Bytes) : Bytes × Bytes :=
  (bs.take n, bs.drop n)

/-- A reader that cuts a field off a concatenation finds the field and leaves the rest. -/
@[simp]
theorem cut_be_append (n v : Nat) (bs : Bytes) : cut n (be n v ++ bs) = (be n v, bs) := by
  simp [cut]

/-- The bytes of a 16-bit integer. -/
abbrev u16 (v : UInt16) : Bytes := be 2 v.toNat

/-- The bytes of a 32-bit integer. -/
abbrev u32 (v : UInt32) : Bytes := be 4 v.toNat

/-- The bytes of a 64-bit integer. -/
abbrev u64 (v : UInt64) : Bytes := be 8 v.toNat

/-- The bytes of a 32-byte array. -/
abbrev b32 (v : Bytes32) : Bytes := be 32 v.toNat

/-- The bytes of a 64-byte array. -/
abbrev b64 (v : Bytes64) : Bytes := be 64 v.toNat

/-- The bytes of an 80-byte array. -/
abbrev b80 (v : Bytes80) : Bytes := be 80 v.toNat

/-- Read a 16-bit integer. -/
def toU16 (bs : Bytes) : UInt16 := UInt16.ofNat (beNat bs)

/-- Read a 32-bit integer. -/
def toU32 (bs : Bytes) : UInt32 := UInt32.ofNat (beNat bs)

/-- Read a 64-bit integer. -/
def toU64 (bs : Bytes) : UInt64 := UInt64.ofNat (beNat bs)

/-- Read a 32-byte array. -/
def toB32 (bs : Bytes) : Bytes32 := BitVec.ofNat 256 (beNat bs)

/-- Read a 64-byte array. -/
def toB64 (bs : Bytes) : Bytes64 := BitVec.ofNat 512 (beNat bs)

/-- Read an 80-byte array. -/
def toB80 (bs : Bytes) : Bytes80 := BitVec.ofNat 640 (beNat bs)

@[simp]
theorem toU16_u16 (v : UInt16) : toU16 (u16 v) = v := by
  rw [toU16, beNat_be_of_lt v.toNat_lt, UInt16.ofNat_toNat]

@[simp]
theorem toU32_u32 (v : UInt32) : toU32 (u32 v) = v := by
  rw [toU32, beNat_be_of_lt v.toNat_lt, UInt32.ofNat_toNat]

@[simp]
theorem toU64_u64 (v : UInt64) : toU64 (u64 v) = v := by
  rw [toU64, beNat_be_of_lt v.toNat_lt, UInt64.ofNat_toNat]

/-- An array of {lit}`n` bytes spells a number below {lit}`256 ^ n`. -/
theorem toNat_lt_pow (v : BitVec (8 * n)) : v.toNat < 256 ^ n := by
  rw [show (256 : Nat) = 2 ^ 8 from rfl, ← Nat.pow_mul]
  exact v.isLt

@[simp]
theorem toB32_b32 (v : Bytes32) : toB32 (b32 v) = v := by
  rw [toB32, beNat_be_of_lt (toNat_lt_pow (n := 32) v), BitVec.ofNat_toNat, BitVec.setWidth_eq]

@[simp]
theorem toB80_b80 (v : Bytes80) : toB80 (b80 v) = v := by
  rw [toB80, beNat_be_of_lt (toNat_lt_pow (n := 80) v), BitVec.ofNat_toNat, BitVec.setWidth_eq]

@[simp]
theorem toB64_b64 (v : Bytes64) : toB64 (b64 v) = v := by
  rw [toB64, beNat_be_of_lt (toNat_lt_pow (n := 64) v), BitVec.ofNat_toNat, BitVec.setWidth_eq]

/-! ## Fields in front of other fields -/

/-- Fields of one width in front of other bytes are told apart. -/
theorem be_append_inj {v w : Nat} {xs ys : Bytes} :
    be n v ++ xs = be n w ++ ys ↔ be n v = be n w ∧ xs = ys := by
  constructor
  · intro h
    exact List.append_inj h (by rw [length_be, length_be])
  · rintro ⟨hfield, hrest⟩
    rw [hfield, hrest]

theorem u16_inj {v w : UInt16} : u16 v = u16 w ↔ v = w :=
  ⟨fun h => by rw [← toU16_u16 v, h, toU16_u16], congrArg u16⟩

theorem u32_inj {v w : UInt32} : u32 v = u32 w ↔ v = w :=
  ⟨fun h => by rw [← toU32_u32 v, h, toU32_u32], congrArg u32⟩

theorem u64_inj {v w : UInt64} : u64 v = u64 w ↔ v = w :=
  ⟨fun h => by rw [← toU64_u64 v, h, toU64_u64], congrArg u64⟩

theorem b32_inj {v w : Bytes32} : b32 v = b32 w ↔ v = w :=
  ⟨fun h => by rw [← toB32_b32 v, h, toB32_b32], congrArg b32⟩

theorem b64_inj {v w : Bytes64} : b64 v = b64 w ↔ v = w := by
  constructor
  · intro h
    exact BitVec.eq_of_toNat_eq
      (be_injective (toNat_lt_pow (n := 64) v) (toNat_lt_pow (n := 64) w) h)
  · intro h
    rw [h]

/-- A tag that differs from another one early does not begin what follows that one. -/
theorem isPrefixOf_append_eq_false {tag other : Bytes} (htag : n ≤ tag.length)
    (hother : n ≤ other.length) (hne : tag.take n ≠ other.take n) (bs : Bytes) :
    tag.isPrefixOf (other ++ bs) = false := by
  rw [Bool.eq_false_iff, ne_eq, List.isPrefixOf_iff_prefix]
  rintro ⟨rest, heq⟩
  have htake := congrArg (List.take n) heq
  rw [List.take_append_of_le_length htag, List.take_append_of_le_length hother] at htake
  exact hne htake

theorem b80_inj {v w : Bytes80} : b80 v = b80 w ↔ v = w := by
  constructor
  · intro h
    exact BitVec.eq_of_toNat_eq
      (be_injective (toNat_lt_pow (n := 80) v) (toNat_lt_pow (n := 80) w) h)
  · intro h
    rw [h]

variable {bs : Bytes}

/-- An array read off {lit}`n` bytes is written as those bytes. -/
theorem be_toNat_ofNat (h : bs.length = n) :
    be n (BitVec.ofNat (8 * n) (beNat bs)).toNat = bs := by
  have hlt : beNat bs < 2 ^ (8 * n) := by
    have hlen := beNat_lt bs
    rwa [h, show (256 : Nat) = 2 ^ 8 from rfl, ← Nat.pow_mul] at hlen
  rw [BitVec.toNat_ofNat, Nat.mod_eq_of_lt hlt, ← h, be_beNat]

theorem b32_toB32 (h : bs.length = 32) : b32 (toB32 bs) = bs :=
  be_toNat_ofNat (n := 32) h

theorem b64_toB64 (h : bs.length = 64) : b64 (toB64 bs) = bs :=
  be_toNat_ofNat (n := 64) h

theorem b80_toB80 (h : bs.length = 80) : b80 (toB80 bs) = bs :=
  be_toNat_ofNat (n := 80) h

theorem u32_toU32 (h : bs.length = 4) : u32 (toU32 bs) = bs := by
  have hlt : beNat bs < 2 ^ 32 := by
    have hlen := beNat_lt bs
    rwa [h] at hlen
  rw [u32, toU32, UInt32.toNat_ofNat', Nat.mod_eq_of_lt hlt, ← h, be_beNat]

theorem u16_toU16 (h : bs.length = 2) : u16 (toU16 bs) = bs := by
  have hlt : beNat bs < 2 ^ 16 := by
    have hlen := beNat_lt bs
    rwa [h] at hlen
  rw [u16, toU16, UInt16.toNat_ofNat', Nat.mod_eq_of_lt hlt, ← h, be_beNat]

theorem u64_toU64 (h : bs.length = 8) : u64 (toU64 bs) = bs := by
  have hlt : beNat bs < 2 ^ 64 := by
    have hlen := beNat_lt bs
    rwa [h] at hlen
  rw [u64, toU64, UInt64.toNat_ofNat', Nat.mod_eq_of_lt hlt, ← h, be_beNat]

theorem be_take (h : n ≤ bs.length) :
    be n (beNat (bs.take n)) ++ bs.drop n = bs := by
  have hback := be_beNat (bs.take n)
  rw [List.length_take_of_le h] at hback
  rw [hback, List.take_append_drop]

theorem u16_take (h : 2 ≤ bs.length) :
    u16 (toU16 (bs.take 2)) ++ bs.drop 2 = bs := by
  rw [u16_toU16 (List.length_take_of_le h), List.take_append_drop]

theorem u32_take (h : 4 ≤ bs.length) :
    u32 (toU32 (bs.take 4)) ++ bs.drop 4 = bs := by
  rw [u32_toU32 (List.length_take_of_le h), List.take_append_drop]

theorem u64_take (h : 8 ≤ bs.length) :
    u64 (toU64 (bs.take 8)) ++ bs.drop 8 = bs := by
  rw [u64_toU64 (List.length_take_of_le h), List.take_append_drop]

theorem b32_take (h : 32 ≤ bs.length) :
    b32 (toB32 (bs.take 32)) ++ bs.drop 32 = bs := by
  rw [b32_toB32 (List.length_take_of_le h), List.take_append_drop]

theorem b80_take (h : 80 ≤ bs.length) :
    b80 (toB80 (bs.take 80)) ++ bs.drop 80 = bs := by
  rw [b80_toB80 (List.length_take_of_le h), List.take_append_drop]

theorem cut_append {field rest : Bytes} (h : field.length = n) :
    cut n (field ++ rest) = (field, rest) := by
  rw [cut, List.take_left' h, List.drop_left' h]

/-- The number a byte string spells, least significant byte first. -/
def leNat (bs : Bytes) : Nat := beNat bs.reverse

/-- Little-endian bytes of a 32-bit number. -/
def le32 (v : UInt32) : Bytes := (be 4 v.toNat).reverse

theorem leNat_le32 (v : UInt32) : leNat (le32 v) = v.toNat := by
  rw [leNat, le32, List.reverse_reverse, beNat_be_of_lt v.toNat_lt]

/-- Little-endian bytes of a 64-bit number. -/
def le64 (v : UInt64) : Bytes := (be 8 v.toNat).reverse

/-- Little-endian bytes of a number. -/
def le (n v : Nat) : Bytes := (be n v).reverse

@[simp]
theorem length_le (n v : Nat) : (le n v).length = n := by
  rw [le, List.length_reverse, length_be]

theorem leNat_le {v : Nat} (h : v < 256 ^ n) : leNat (le n v) = v := by
  rw [leNat, le, List.reverse_reverse, beNat_be_of_lt h]

theorem le_leNat (h : bs.length = n) : le n (leNat bs) = bs := by
  rw [le, leNat, ← h, ← List.length_reverse, be_beNat, List.reverse_reverse]

theorem leNat_lt (h : bs.length = n) : leNat bs < 256 ^ n := by
  rw [leNat, ← h, ← List.length_reverse]
  exact beNat_lt _

/-- The bytes of an array in the opposite order. -/
def reverse32 (v : Bytes32) : Bytes32 := toB32 (b32 v).reverse

/-- The lowercase hexadecimal digit of a number below sixteen. -/
def hexDigit (n : Nat) : Char := ("0123456789abcdef".toList).getD n '?'

/-- Lowercase hexadecimal text. -/
def hexEncode (bs : Bytes) : String :=
  String.ofList (bs.flatMap fun b => [hexDigit (b.toNat / 16), hexDigit (b.toNat % 16)])

/-- The bytes of an ASCII text. -/
def ascii (s : String) : Bytes := s.toList.map fun c => UInt8.ofNat c.toNat

end Bytes
