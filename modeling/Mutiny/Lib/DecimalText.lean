import Mutiny.Lib.Checked
import Mathlib.Algebra.BigOperators.Group.List.Basic
import Mathlib.Tactic.Ring

/-!
# Decimal text

Texts of decimal digits and the numbers they stand for: the checked reader of a 64-bit
number, padding on either side, and the split of a text at its point.
-/

namespace DecimalText

/-- The number a text of digits stands for. -/
def value (text : List Char) : Nat := Nat.ofDigitChars 10 text 0

/-- Every character is a decimal digit. -/
def Digits (text : List Char) : Prop := ∀ c ∈ text, c.isDigit = true

/-- The number of bytes of a text. -/
def utf8Len (text : List Char) : Nat := (text.map Char.utf8Size).sum

/-- The next digit of a 64-bit number. -/
def pushDigit (n : UInt64) (c : Char) : Option UInt64 := do
  let n ← n.checkedMul 10
  n.checkedAdd (UInt64.ofNat (c.toNat - '0'.toNat))

/-- The 64-bit number a text of digits stands for, if there is one. -/
def fromStr (text : List Char) : Option UInt64 :=
  if text = [] then none else text.foldlM pushDigit 0

/-! ## The checked reader -/

theorem pushDigit_eq_some {n m : UInt64} {c : Char} :
    pushDigit n c = some m ↔ m.toNat = 10 * n.toNat + (c.toNat - '0'.toNat) := by
  have hdigit : (UInt64.ofNat (c.toNat - '0'.toNat)).toNat = c.toNat - '0'.toNat := by
    apply UInt64.toNat_ofNat_of_lt'
    have hchar := c.val.toNat_lt
    exact (Nat.sub_le ..).trans_lt (hchar.trans (by decide))
  simp only [pushDigit, Option.bind_eq_bind, Option.bind_eq_some_iff, UInt64.checkedMul_eq_some,
    UInt64.checkedAdd_eq_some, hdigit]
  constructor
  · rintro ⟨k, hk, hm⟩
    rw [hm, hk, Nat.mul_comm]
    rfl
  · intro hm
    have hfits : n.toNat * 10 < 2 ^ 64 := by
      have := m.toNat_lt
      omega
    refine ⟨UInt64.ofNat (n.toNat * 10), UInt64.toNat_ofNat_of_lt' hfits, ?_⟩
    rw [UInt64.toNat_ofNat_of_lt' hfits, hm, Nat.mul_comm]

/-- Reading on never makes the number smaller. -/
theorem le_ofDigitChars (text : List Char) (n : Nat) : n ≤ Nat.ofDigitChars 10 text n := by
  induction text generalizing n with
  | nil => simp
  | cons c text ih =>
    rw [Nat.ofDigitChars_cons]
    exact le_trans (by omega) (ih _)

variable {text : List Char}

/-- The loop of the reader stops early exactly when the whole number does not fit. -/
theorem foldlM_pushDigit_eq_some {n m : UInt64} :
    text.foldlM pushDigit n = some m ↔ m.toNat = Nat.ofDigitChars 10 text n.toNat := by
  induction text generalizing n with
  | nil =>
    simp only [List.foldlM_nil, Option.pure_def, Option.some.injEq, Nat.ofDigitChars_nil,
      ← UInt64.toNat_inj]
    exact eq_comm
  | cons c text ih =>
    simp only [List.foldlM_cons, Option.bind_eq_bind, Option.bind_eq_some_iff,
      pushDigit_eq_some, ih, Nat.ofDigitChars_cons]
    constructor
    · rintro ⟨k, hk, hm⟩
      rw [hm, hk]
    · intro hm
      have hfits : 10 * n.toNat + (c.toNat - '0'.toNat) < 2 ^ 64 := by
        have hle := le_ofDigitChars text (10 * n.toNat + (c.toNat - '0'.toNat))
        have := m.toNat_lt
        omega
      refine ⟨UInt64.ofNat _, UInt64.toNat_ofNat_of_lt' hfits, ?_⟩
      rw [UInt64.toNat_ofNat_of_lt' hfits, hm]

/-- The checked reader returns the value of the text, if that fits. -/
theorem fromStr_eq_some {n : UInt64} :
    fromStr text = some n ↔ text ≠ [] ∧ n.toNat = value text := by
  unfold fromStr
  split
  · next hempty => simp [hempty]
  · next hsome => simp only [foldlM_pushDigit_eq_some, ne_eq, hsome, not_false_eq_true, true_and,
      value, UInt64.toNat_zero]

/-! ## Digits and their number -/

theorem Digits.append {front back : List Char} (hfront : Digits front) (hback : Digits back) :
    Digits (front ++ back) :=
  fun c hc => (List.mem_append.mp hc).elim (hfront c) (hback c)

theorem digits_zeros (n : Nat) : Digits (List.replicate n '0') := by
  intro c hc
  rw [List.eq_of_mem_replicate hc]
  rfl

theorem digits_toDigits (n : Nat) : Digits (Nat.toDigits 10 n) :=
  fun _ hc => Nat.isDigit_of_mem_toDigits (by decide) (by decide) hc

theorem Digits.point_notMem (h : Digits text) : '.' ∉ text :=
  fun hpoint => absurd (h _ hpoint) (by decide)

/-- A digit is one byte. -/
theorem Digits.utf8Len_eq (h : Digits text) : utf8Len text = text.length := by
  have hone : ∀ c ∈ text, c.utf8Size = 1 := by
    intro c hc
    have hdigit := h c hc
    simp only [Char.isDigit, Bool.and_eq_true, decide_eq_true_eq] at hdigit
    have hascii : c.val ≤ 127 := UInt32.le_trans hdigit.2 (by decide)
    simp [Char.utf8Size, hascii]
  rw [utf8Len, List.map_congr_left hone, List.map_const', List.sum_replicate_nat, Nat.mul_one]

theorem ofDigitChars_lt (h : Digits text) (n : Nat) :
    Nat.ofDigitChars 10 text n < (n + 1) * 10 ^ text.length := by
  induction text generalizing n with
  | nil => simp
  | cons c text ih =>
    have hdigit := h c List.mem_cons_self
    simp only [Char.isDigit, Bool.and_eq_true, decide_eq_true_eq] at hdigit
    have hnine : c.toNat - '0'.toNat ≤ 9 := by
      have hle : c.toNat ≤ '9'.toNat := UInt32.le_iff_toNat_le.mp hdigit.2
      exact (Nat.sub_le_sub_right hle _).trans (by decide)
    rw [Nat.ofDigitChars_cons, List.length_cons, Nat.pow_succ]
    refine (ih (fun c' hc' => h c' (List.mem_cons_of_mem _ hc')) _).trans_le ?_
    calc (10 * n + (c.toNat - '0'.toNat) + 1) * 10 ^ text.length
        ≤ ((n + 1) * 10) * 10 ^ text.length := Nat.mul_le_mul_right _ (by omega)
      _ = (n + 1) * (10 ^ text.length * 10) := by ring

theorem Digits.value_lt (h : Digits text) : value text < 10 ^ text.length := by
  have hlt := ofDigitChars_lt h 0
  rwa [Nat.zero_add, Nat.one_mul] at hlt

/-- Zeros at the end are powers of ten. -/
theorem value_append_zeros (text : List Char) (n : Nat) :
    value (text ++ List.replicate n '0') = value text * 10 ^ n := by
  rw [value, Nat.ofDigitChars_append, Nat.ofDigitChars_replicate_zero, Nat.mul_comm, value]

/-- Zeros in front count for nothing. -/
theorem value_zeros_append (text : List Char) (n : Nat) :
    value (List.replicate n '0' ++ text) = value text := by
  rw [value, Nat.ofDigitChars_append, Nat.ofDigitChars_replicate_zero, Nat.mul_zero, value]

theorem value_toDigits (n : Nat) : value (Nat.toDigits 10 n) = n :=
  Nat.ofDigitChars_ten_toDigits

/-! ## The point -/

/-- A text is the whole part and, after a point, the decimals; without a point it has none. -/
def Pointed (text whole decimals : List Char) : Prop :=
  text = whole ++ '.' :: decimals ∨ text = whole ∧ decimals = []

/-- A text that splits into at most two parts is made of them. -/
theorem pointed_of_splitOn (h : (text.splitOn '.')[2]? = none) :
    ∃ whole, (text.splitOn '.').head? = some whole ∧
      Pointed text whole ((text.splitOn '.')[1]?.getD []) := by
  have hjoin := @List.intercalate_splitOn _ text _ _ '.'
  rcases hparts : text.splitOn '.' with _ | ⟨whole, _ | ⟨decimals, _ | ⟨third, rest⟩⟩⟩
  · exact absurd hparts (List.splitOn_ne_nil _ _)
  · rw [hparts] at hjoin
    exact ⟨whole, rfl, .inr ⟨by simpa using hjoin.symm, rfl⟩⟩
  · rw [hparts] at hjoin
    exact ⟨whole, rfl, .inl (by simpa [List.intercalate] using hjoin.symm)⟩
  · rw [hparts] at h
    simp at h

/-- A text of digits with at most one point is split into its parts. -/
theorem Pointed.splitOn {whole decimals : List Char} (h : Pointed text whole decimals)
    (hwhole : Digits whole) (hdecimals : Digits decimals) :
    (text.splitOn '.').head? = some whole ∧ (text.splitOn '.')[1]?.getD [] = decimals ∧
      (text.splitOn '.')[2]? = none := by
  rcases h with rfl | ⟨rfl, rfl⟩
  · rw [List.splitOn_append_cons_self_of_not_mem hwhole.point_notMem,
      List.splitOn_eq_singleton hdecimals.point_notMem]
    exact ⟨rfl, rfl, rfl⟩
  · rw [List.splitOn_eq_singleton hwhole.point_notMem]
    exact ⟨rfl, rfl, rfl⟩

end DecimalText
