import Mutiny.Lib.Bytes

/-!
# Hexadecimal texts of either letter case

Thirty-two bytes are written as sixty-four digits.  A writer uses lower-case letters, a
reader accepts either case, so that different texts may denote the same bytes.
-/

/-- A digit of 32 bytes in base sixteen, counted from the last. -/
def Bytes.digit (v : Bytes32) (i : Nat) : Nat := v.toNat / 16 ^ i % 16

/-- Bytes with the same digits are the same. -/
theorem Bytes.eq_of_digit {v w : Bytes32} (h : ∀ i < 64, digit v i = digit w i) : v = w := by
  have hlow : ∀ n ≤ 64, v.toNat % 16 ^ n = w.toNat % 16 ^ n := by
    intro n
    induction n with
    | zero => simp [Nat.mod_one]
    | succ n ih =>
      intro hn
      have hdigit := h n (by omega)
      unfold digit at hdigit
      rw [Nat.mod_pow_succ, Nat.mod_pow_succ, ih (by omega), hdigit]
  have hall := hlow 64 (by omega)
  have hsize : 16 ^ 64 = 2 ^ 256 := by decide
  rw [hsize, Nat.mod_eq_of_lt v.isLt, Nat.mod_eq_of_lt w.isLt] at hall
  exact BitVec.eq_of_toNat_eq hall

/-- A text of 32 bytes: the bytes it denotes, and which of its letters are in upper case. -/
structure HexText where
  bytes : Bytes32
  upper : BitVec 64
  letters : ∀ i : Fin 64, upper.getLsbD i = true → 10 ≤ Bytes.digit bytes i
deriving DecidableEq, Repr

namespace HexText

/-- The text a writer makes: no letter is in upper case. -/
def encode (v : Bytes32) : HexText := ⟨v, 0, by simp⟩

/-- Whether a text has no letter in upper case. -/
def IsLower (t : HexText) : Prop := t.upper = 0

instance : DecidablePred IsLower := fun t => inferInstanceAs (Decidable (t.upper = 0))

@[simp]
theorem bytes_encode (v : Bytes32) : (encode v).bytes = v := rfl

@[simp]
theorem isLower_encode (v : Bytes32) : (encode v).IsLower := rfl

/-- A text in lower case is the one a writer makes of its bytes. -/
theorem eq_encode {t : HexText} {v : Bytes32} : t = encode v ↔ t.IsLower ∧ t.bytes = v := by
  rcases t with ⟨bytes, upper, letters⟩
  rw [encode, HexText.mk.injEq, IsLower, and_comm]

@[simp]
theorem encode_inj {v w : Bytes32} : encode v = encode w ↔ v = w := by
  rw [eq_encode]
  simp

/-- The ASCII code of a digit. -/
def code (upper : Bool) (d : Nat) : Nat :=
  if d < 10 then 48 + d else if upper then 55 + d else 87 + d

/-- The characters of a text, which order texts. -/
def text (t : HexText) : List Nat :=
  (List.finRange 64).reverse.map fun i => code (t.upper.getLsbD i) (Bytes.digit t.bytes i)

theorem code_inj {u w : Bool} {d e : Nat} (hd : d < 16) (he : e < 16) (hu : u = true → 10 ≤ d)
    (hw : w = true → 10 ≤ e) (h : code u d = code w e) : u = w ∧ d = e := by
  cases u <;> cases w <;> simp only [code] at h <;> grind

/-- A text is known by its characters: the bytes and the upper-case letters are all of it. -/
theorem text_inj {t t' : HexText} (h : t.text = t'.text) : t = t' := by
  have hdigits : ∀ i : Fin 64, t.upper.getLsbD i = t'.upper.getLsbD i ∧
      Bytes.digit t.bytes i = Bytes.digit t'.bytes i := by
    intro i
    have hcode := List.map_eq_map_iff.mp h i (by simp)
    exact code_inj (Nat.mod_lt _ (by omega)) (Nat.mod_lt _ (by omega)) (t.letters i)
      (t'.letters i) hcode
  have hbytes : t.bytes = t'.bytes :=
    Bytes.eq_of_digit fun i hi => (hdigits ⟨i, hi⟩).2
  have hupper : t.upper = t'.upper :=
    BitVec.eq_of_getLsbD_eq fun i hi => (hdigits ⟨i, hi⟩).1
  rcases t with ⟨_, _, _⟩
  rcases t' with ⟨_, _, _⟩
  cases hbytes
  cases hupper
  rfl

end HexText
