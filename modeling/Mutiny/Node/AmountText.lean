import Mutiny.Lib.DecimalText
import Mutiny.Node.WalletPayment
import Mathlib.Data.Rat.Floor

/-!
# Amounts as text

A command gives an amount as a decimal number of coins, and the node prints amounts the same way
with eight decimals.  The reader splits the text at its point, pads the decimals to eight digits
and checks every product and sum for overflow.

Main result:

- Theorem {lit}`amount_text_exact`: printing and reading are exact.
-/

namespace Mutiny

open Result DecimalText

/-- The characters of {lit}`text` are its whole part, {lit}`whole`, and at most eight decimals. -/
structure AmountParts (text whole decimals : List Char) : Prop where
  pointed : Pointed text whole decimals
  nonempty : whole ≠ []
  wholeDigits : Digits whole
  decimalDigits : Digits decimals
  short : decimals.length ≤ 8

/-- The text is a decimal number with at most eight decimals, and {lit}`q` is that number. -/
def Denotes (s : String) (q : ℚ) : Prop :=
  ∃ whole decimals, AmountParts s.toList whole decimals ∧
    q = value whole + (value decimals : ℚ) / 10 ^ decimals.length

/-- The strikes of a decimal amount. -/
def parseMutAmount (s : String) : Except String UInt64 := do
  let text := s.toList
  reject (text.head? = some '-' ∨ text.head? = some '+' ∨ text = [])
    "amount must be a positive decimal MUT value"
  let parts := text.splitOn '.'
  let whole := parts.head?.getD ['0']
  let frac := parts[1]?.getD []
  reject (parts[2]?.isSome ∨ whole = [] ∨ 8 < utf8Len frac)
    "amount must have at most 8 decimal places"
  reject (¬ whole.all Char.isDigit ∨ ¬ frac.all Char.isDigit)
    "amount contains non-decimal characters"
  let wholeValue ← okOr (fromStr whole) "amount is too large"
  let fracText := frac ++ List.replicate (8 - utf8Len frac) '0'
  let fracValue ← if fracText = [] then .ok 0
    else okOr (fromStr fracText) "invalid fractional amount"
  okOr (wholeValue.checkedMul strikesPerMut >>= fun v => v.checkedAdd fracValue)
    "amount is too large"

/-! ## Reading -/

/-- The strikes of an amount given by its parts. -/
def strikesOf (whole decimals : List Char) : Nat :=
  value whole * 10 ^ 8 + value decimals * 10 ^ (8 - decimals.length)

variable {text whole decimals : List Char}

/-- An amount does not start with a sign. -/
theorem AmountParts.unsigned (h : AmountParts text whole decimals) :
    ¬ (text.head? = some '-' ∨ text.head? = some '+' ∨ text = []) := by
  rcases List.exists_cons_of_ne_nil h.nonempty with ⟨c, rest, rfl⟩
  have hdigit := h.wholeDigits c List.mem_cons_self
  rcases h.pointed with rfl | ⟨rfl, -⟩ <;>
    · simp only [List.cons_append, List.head?_cons, Option.some.injEq, reduceCtorEq, or_false,
        not_or]
      constructor <;>
        · rintro rfl
          exact absurd hdigit (by decide)

/-- The padded decimals are eight digits. -/
theorem AmountParts.fromStr_padded (h : AmountParts text whole decimals) :
    ∃ n, fromStr (decimals ++ List.replicate (8 - utf8Len decimals) '0') = some n ∧
      n.toNat = value decimals * 10 ^ (8 - decimals.length) := by
  have hshort := h.short
  have hpadded : (decimals ++ List.replicate (8 - decimals.length) '0').length = 8 := by
    rw [List.length_append, List.length_replicate]
    omega
  have hlt := (h.decimalDigits.append (digits_zeros (8 - decimals.length))).value_lt
  rw [hpadded, value_append_zeros] at hlt
  have hfits : value decimals * 10 ^ (8 - decimals.length) < 2 ^ 64 := hlt.trans (by decide)
  refine ⟨UInt64.ofNat _, ?_, UInt64.toNat_ofNat_of_lt' hfits⟩
  rw [h.decimalDigits.utf8Len_eq, fromStr_eq_some, value_append_zeros]
  refine ⟨?_, UInt64.toNat_ofNat_of_lt' hfits⟩
  rw [← List.length_pos_iff, hpadded]
  decide

/-- The two checked steps fail exactly when their result does not fit. -/
theorem checkedMul_strikesPerMut_add (m n : UInt64) :
    (m.checkedMul strikesPerMut >>= fun v => v.checkedAdd n) =
      UInt64.tryFrom (m.toNat * 10 ^ 8 + n.toNat) := by
  have hstrikes : strikesPerMut.toNat = 10 ^ 8 := by decide
  ext a
  simp only [Option.bind_eq_bind, Option.bind_eq_some_iff, UInt64.checkedMul_eq_some,
    UInt64.checkedAdd_eq_some, UInt64.tryFrom_eq_some, hstrikes]
  constructor
  · rintro ⟨v, hv, ha⟩
    rw [ha, hv]
  · intro ha
    have hfits : m.toNat * 10 ^ 8 < 2 ^ 64 :=
      (Nat.le_add_right _ n.toNat).trans_lt (ha ▸ a.toNat_lt)
    refine ⟨UInt64.ofNat _, UInt64.toNat_ofNat_of_lt' hfits, ?_⟩
    rw [UInt64.toNat_ofNat_of_lt' hfits, ha]

/-- A text with the parts of an amount is read as its strikes, if they fit. -/
theorem parseMutAmount_eq {s : String} (h : AmountParts s.toList whole decimals) :
    parseMutAmount s =
      okOr (UInt64.tryFrom (strikesOf whole decimals)) "amount is too large" := by
  rcases h.pointed.splitOn h.wholeDigits h.decimalDigits with ⟨hhead, hsecond, hthird⟩
  rcases h.fromStr_padded with ⟨n, hpadded, hn⟩
  have hnonempty : decimals ++ List.replicate (8 - utf8Len decimals) '0' ≠ [] :=
    (fromStr_eq_some.mp hpadded).1
  have hshape : ¬ ((none : Option (List Char)).isSome ∨ whole = [] ∨ 8 < utf8Len decimals) := by
    have hshort := h.short
    rw [h.decimalDigits.utf8Len_eq]
    simp [h.nonempty, hshort]
  have hdigits : ¬ (¬ whole.all Char.isDigit ∨ ¬ decimals.all Char.isDigit) := by
    simp only [List.all_eq_true, not_or, not_not]
    exact ⟨h.wholeDigits, h.decimalDigits⟩
  rw [parseMutAmount]
  simp only [hhead, hsecond, hthird, Option.getD_some]
  rw [reject_of_not h.unsigned, ok_bind, reject_of_not hshape, ok_bind, reject_of_not hdigits,
    ok_bind, hpadded]
  cases hwhole : fromStr whole with
  | some m =>
    have hm := (fromStr_eq_some.mp hwhole).2
    have hok (e : String) (k : UInt64) : okOr (some k) e = .ok k := rfl
    rw [hok, ok_bind, if_neg hnonempty, hok, ok_bind, checkedMul_strikesPerMut_add, hm, hn,
      strikesOf]
  | none =>
    -- the whole part alone is too large
    have hlarge : ¬ value whole < 2 ^ 64 := fun hfits => by
      have hsome : fromStr whole = some (UInt64.ofNat (value whole)) :=
        fromStr_eq_some.mpr ⟨h.nonempty, UInt64.toNat_ofNat_of_lt' hfits⟩
      rw [hwhole] at hsome
      cases hsome
    have hall : ¬ strikesOf whole decimals < 2 ^ 64 := fun hfits => by
      have hle : value whole ≤ strikesOf whole decimals :=
        (Nat.le_mul_of_pos_right _ (by decide)).trans (Nat.le_add_right ..)
      exact hlarge (hle.trans_lt hfits)
    rw [UInt64.tryFrom, if_neg hall]
    rfl

/-- The checks on a text find the parts of an amount. -/
theorem amountParts_of_parseMutAmount {s : String} {v : UInt64} (h : parseMutAmount s = .ok v) :
    ∃ whole decimals, AmountParts s.toList whole decimals := by
  rw [parseMutAmount] at h
  rcases bind_eq_ok.mp h with ⟨_, -, h⟩
  rcases bind_eq_ok.mp h with ⟨_, hshape, h⟩
  rcases bind_eq_ok.mp h with ⟨_, hdigits, -⟩
  rw [reject_eq_ok, not_or, not_or, Option.not_isSome_iff_eq_none] at hshape
  rcases pointed_of_splitOn hshape.1 with ⟨whole, hhead, hpointed⟩
  rw [hhead, Option.getD_some] at hshape hdigits
  rw [reject_eq_ok, not_or, not_not, not_not, List.all_eq_true, List.all_eq_true] at hdigits
  refine ⟨whole, _, hpointed, hshape.2.1, hdigits.1, hdigits.2, ?_⟩
  rw [← Digits.utf8Len_eq hdigits.2]
  exact Nat.not_lt.mp hshape.2.2

/-- The texts that are read as an amount, and the amount. -/
theorem parseMutAmount_eq_ok {s : String} {v : UInt64} :
    parseMutAmount s = .ok v ↔ ∃ whole decimals, AmountParts s.toList whole decimals ∧
      v.toNat = strikesOf whole decimals := by
  constructor
  · intro h
    rcases amountParts_of_parseMutAmount h with ⟨whole, decimals, hparts⟩
    rw [parseMutAmount_eq hparts, okOr_eq_ok, UInt64.tryFrom_eq_some] at h
    exact ⟨whole, decimals, hparts, h⟩
  · rintro ⟨whole, decimals, hparts, hv⟩
    rw [parseMutAmount_eq hparts, okOr_eq_ok, UInt64.tryFrom_eq_some, hv]

/-! ## Numbers -/

/-- The strikes of an amount are its number times {lit}`10 ^ 8`. -/
theorem AmountParts.strikesOf_eq (h : AmountParts text whole decimals) :
    (strikesOf whole decimals : ℚ) =
      (value whole + (value decimals : ℚ) / 10 ^ decimals.length) * 10 ^ 8 := by
  have hpow : (10 : ℚ) ^ 8 = 10 ^ decimals.length * 10 ^ (8 - decimals.length) := by
    rw [← pow_add, Nat.add_sub_cancel' h.short]
  have hpos : (10 : ℚ) ^ decimals.length ≠ 0 := by positivity
  rw [strikesOf, add_mul]
  push_cast
  congr 1
  rw [hpow]
  field_simp

/-- The printed amount has eight decimals. -/
theorem amountParts_formatMut (amount : UInt64) :
    ∃ decimals, AmountParts (formatMut amount).toList
      (Nat.toDigits 10 (amount.toNat / 10 ^ 8)) decimals ∧ decimals.length = 8 ∧
        value decimals = amount.toNat % 10 ^ 8 := by
  have hwhole : (amount / strikesPerMut).toNat = amount.toNat / 10 ^ 8 := by
    rw [UInt64.toNat_div]
    rfl
  have hrest : (amount % strikesPerMut).toNat = amount.toNat % 10 ^ 8 := by
    rw [UInt64.toNat_mod]
    rfl
  have hshort : (Nat.toDigits 10 (amount.toNat % 10 ^ 8)).length ≤ 8 := by
    rw [Nat.length_toDigits_le_iff (by decide) (by decide)]
    exact Nat.mod_lt _ (by decide)
  have htext : (formatMut amount).toList = Nat.toDigits 10 (amount.toNat / 10 ^ 8) ++ '.' ::
      (List.replicate (8 - (Nat.toDigits 10 (amount.toNat % 10 ^ 8)).length) '0' ++
        Nat.toDigits 10 (amount.toNat % 10 ^ 8)) := by
    have hprint (n : UInt64) : toString n = n.toNat.repr := rfl
    simp only [formatMut, hprint, hwhole, hrest, String.toList_append, Nat.toList_repr,
      String.toList_ofList, ← String.length_toList]
    simp
  refine ⟨_, ⟨.inl htext, Nat.toDigits_ne_nil, digits_toDigits _,
    (digits_zeros _).append (digits_toDigits _), ?_⟩, ?_, ?_⟩
  · rw [List.length_append, List.length_replicate]
    omega
  · rw [List.length_append, List.length_replicate]
    omega
  · rw [value_zeros_append, value_toDigits]

/-- Amounts as text are exact: a printed amount is read back, a text that is read denotes the
amount it is read as, and a decimal number with at most eight decimals is refused only when its
strikes or its whole part do not fit in 64 bits. -/
theorem amount_text_exact :
    (∀ amount, parseMutAmount (formatMut amount) = .ok amount) ∧
    (∀ s v, parseMutAmount s = .ok v → Denotes s ((v.toNat : ℚ) / 10 ^ 8)) ∧
    ∀ s q e, Denotes s q → parseMutAmount s = .error e →
      2 ^ 64 ≤ q * 10 ^ 8 ∨ 2 ^ 64 ≤ ⌊q⌋ := by
  refine ⟨fun amount => ?_, fun s v h => ?_, fun s q e hq h => ?_⟩
  · rcases amountParts_formatMut amount with ⟨decimals, hparts, hlength, hvalue⟩
    rw [parseMutAmount_eq_ok]
    refine ⟨_, decimals, hparts, ?_⟩
    rw [strikesOf, value_toDigits, hlength, hvalue, Nat.sub_self, pow_zero, Nat.mul_one,
      Nat.div_add_mod']
  · rcases parseMutAmount_eq_ok.mp h with ⟨whole, decimals, hparts, hv⟩
    refine ⟨whole, decimals, hparts, ?_⟩
    rw [hv, hparts.strikesOf_eq]
    field_simp
  · rcases hq with ⟨whole, decimals, hparts, rfl⟩
    left
    rw [← hparts.strikesOf_eq]
    have hlarge : ¬ strikesOf whole decimals < 2 ^ 64 := fun hfits => by
      rw [parseMutAmount_eq hparts, UInt64.tryFrom, if_pos hfits] at h
      cases h
    exact_mod_cast Nat.not_lt.mp hlarge

end Mutiny
