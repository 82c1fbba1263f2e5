import Mutiny.Bitcoin
import Mutiny.Lib.Lists

/-!
# Bitcoin transactions on the wire

The parser of Bitcoin transactions skips the witness.  Here is the transaction it reads,
with its serialization and the one without the witness, and that the parser accepts
exactly the serializations.

Main result:

- Theorem {lit}`parse_ignores_witness`: the witness does not change the result.
-/

namespace Mutiny

open Result Reader Lists

/-! ## Length prefixes -/

/-- The shortest form of a length prefix. -/
def encodeCompactSize (n : UInt64) : Bytes :=
  if n.toNat < 0xfd then [UInt8.ofNat n.toNat]
  else if n.toNat < 0x10000 then 0xfd :: Bytes.le 2 n.toNat
  else if n.toNat < 0x100000000 then 0xfe :: Bytes.le 4 n.toNat
  else 0xff :: Bytes.le 8 n.toNat

/-- A length of {lit}`n` bytes after its marker, refused below the least value that needs
so many. -/
def readWideSize (first : Bytes) (n min : Nat) : Reader BitcoinError (UInt64 × Bytes) := do
  let raw ← Reader.take .truncated n
  rejectIf (Bytes.leNat raw < min) .badCompactSize
  pure (UInt64.ofNat (Bytes.leNat raw), first ++ raw)

theorem readCompactSize_cons (b : UInt8) (tail : Bytes) :
    readCompactSize (b :: tail) =
      if b = 0xfd then readWideSize [b] 2 0xfd tail
      else if b = 0xfe then readWideSize [b] 4 0x10000 tail
      else if b = 0xff then readWideSize [b] 8 0x100000000 tail
      else .ok ((UInt64.ofNat b.toNat, [b]), tail) := by
  split_ifs with hfd hfe hff
  · subst hfd
    rfl
  · subst hfe
    rfl
  · subst hff
    rfl
  · rw [readCompactSize, run_bind_eq_ok]
    refine ⟨[b], tail, rfl, ?_⟩
    simp only [List.headD_cons]
    rfl

theorem consumes_readWideSize {first : Bytes} {n min : Nat} (hn : n ≤ 8) :
    Consumes (readWideSize first n min) fun p used =>
      min ≤ p.1.toNat ∧ p.1.toNat < 256 ^ n ∧ used = Bytes.le n p.1.toNat ∧
        p.2 = first ++ used := by
  have hwidth : 256 ^ n ≤ 2 ^ 64 := Nat.pow_le_pow_right (by decide) hn
  intro bs p rest
  simp only [readWideSize, run_bind_eq_ok, run_take_eq_ok, run_rejectIf_eq_ok, run_pure_eq_ok]
  constructor
  · rintro ⟨raw, _, ⟨hraw, rfl⟩, _, _, ⟨hmin, rfl⟩, rfl, rfl⟩
    have hlt := Bytes.leNat_lt hraw
    have hvalue : (UInt64.ofNat (Bytes.leNat raw)).toNat = Bytes.leNat raw :=
      UInt64.toNat_ofNat_of_lt' (hlt.trans_le hwidth)
    rw [Nat.not_lt] at hmin
    exact ⟨raw, ⟨by rwa [hvalue], by rwa [hvalue], by rw [hvalue, Bytes.le_leNat hraw], rfl⟩, rfl⟩
  · rintro ⟨used, ⟨hmin, hlt, rfl, hbytes⟩, rfl⟩
    refine ⟨_, rest, ⟨Bytes.length_le .., rfl⟩, (), rest, ⟨?_, rfl⟩, ?_, rfl⟩
    · rwa [Bytes.leNat_le hlt, Nat.not_lt]
    · rw [Bytes.leNat_le hlt, UInt64.ofNat_toNat, ← hbytes]

/-- A length prefix is accepted in its shortest form only. -/
theorem consumes_readCompactSize :
    Consumes readCompactSize fun p used => used = p.2 ∧ p.2 = encodeCompactSize p.1 := by
  intro bs p rest
  constructor
  · intro h
    rcases bs with - | ⟨b, tail⟩
    · cases h
    rw [readCompactSize_cons] at h
    unfold encodeCompactSize
    split_ifs at h with hfd hfe hff
    · rcases (consumes_readWideSize (by decide)).mp h with ⟨_, ⟨hmin, hlt, rfl, hbytes⟩, rfl⟩
      refine ⟨p.2, ⟨rfl, ?_⟩, by rw [hbytes]; rfl⟩
      rw [if_neg (by omega), if_pos (by omega), hbytes, hfd]
      rfl
    · rcases (consumes_readWideSize (by decide)).mp h with ⟨_, ⟨hmin, hlt, rfl, hbytes⟩, rfl⟩
      refine ⟨p.2, ⟨rfl, ?_⟩, by rw [hbytes]; rfl⟩
      rw [if_neg (by omega), if_neg (by omega), if_pos (by omega), hbytes, hfe]
      rfl
    · rcases (consumes_readWideSize (by decide)).mp h with ⟨_, ⟨hmin, hlt, rfl, hbytes⟩, rfl⟩
      refine ⟨p.2, ⟨rfl, ?_⟩, by rw [hbytes]; rfl⟩
      rw [if_neg (by omega), if_neg (by omega), if_neg (by omega), hbytes, hff]
      rfl
    · cases h
      have hb := b.toNat_lt
      have hvalue : (UInt64.ofNat b.toNat).toNat = b.toNat :=
        UInt64.toNat_ofNat_of_lt' (hb.trans (by decide))
      have hsmall : b.toNat < 0xfd := by
        have h₁ : b.toNat ≠ 0xfd := fun h => hfd (UInt8.toNat_inj.mp h)
        have h₂ : b.toNat ≠ 0xfe := fun h => hfe (UInt8.toNat_inj.mp h)
        have h₃ : b.toNat ≠ 0xff := fun h => hff (UInt8.toNat_inj.mp h)
        omega
      refine ⟨[b], ⟨rfl, ?_⟩, rfl⟩
      rw [hvalue, if_pos hsmall, UInt8.ofNat_toNat]
  · rintro ⟨used, ⟨rfl, hbytes⟩, rfl⟩
    have hbound := p.1.toNat_lt
    unfold encodeCompactSize at hbytes
    split_ifs at hbytes with h₁ h₂ h₃
    · have hsmall : (UInt8.ofNat p.1.toNat).toNat = p.1.toNat :=
        UInt8.toNat_ofNat_of_lt' (h₁.trans (by decide))
      have hne (c : UInt8) (hc : 0xfd ≤ c.toNat) : UInt8.ofNat p.1.toNat ≠ c := by
        rintro rfl
        omega
      rw [hbytes, List.singleton_append, readCompactSize_cons, if_neg (hne _ (by decide)),
        if_neg (hne _ (by decide)), if_neg (hne _ (by decide)), hsmall, UInt64.ofNat_toNat,
        ← hbytes]
    · rw [hbytes, List.cons_append, readCompactSize_cons, if_pos rfl]
      exact (consumes_readWideSize (by decide)).mpr
        ⟨_, ⟨Nat.not_lt.mp h₁, h₂, rfl, hbytes⟩, rfl⟩
    · rw [hbytes, List.cons_append, readCompactSize_cons, if_neg (by decide), if_pos rfl]
      exact (consumes_readWideSize (by decide)).mpr
        ⟨_, ⟨Nat.not_lt.mp h₂, h₃, rfl, hbytes⟩, rfl⟩
    · rw [hbytes, List.cons_append, readCompactSize_cons, if_neg (by decide), if_neg (by decide),
        if_pos rfl]
      exact (consumes_readWideSize (by decide)).mpr
        ⟨_, ⟨Nat.not_lt.mp h₃, hbound, rfl, hbytes⟩, rfl⟩

variable {bs rest : Bytes}

/-- A count and as many encodings. -/
theorem readCounted_iff {α : Type} {r : Reader BitcoinError α} {P : α → Prop} {enc : α → Bytes}
    (h : Consumes r fun a used => P a ∧ used = enc a) {p : UInt64 × Bytes} {as : List α} :
    (∃ mid, readCompactSize bs = .ok (p, mid) ∧
        Reader.replicateM r p.1.toNat mid = .ok (as, rest)) ↔
      as.length < 2 ^ 64 ∧ (∀ a ∈ as, P a) ∧
        p = (UInt64.ofNat as.length, encodeCompactSize (UInt64.ofNat as.length)) ∧
        bs = encodeCompactSize (UInt64.ofNat as.length) ++ (as.flatMap enc ++ rest) := by
  constructor
  · rintro ⟨mid, hsize, hread⟩
    rcases consumes_readCompactSize.mp hsize with ⟨_, ⟨rfl, hbytes⟩, rfl⟩
    rcases (h.replicateM_enc _).mp hread with ⟨_, ⟨hlength, hall, rfl⟩, rfl⟩
    rw [hlength, UInt64.ofNat_toNat]
    exact ⟨p.1.toNat_lt, hall, by rw [← hbytes], by rw [hbytes]⟩
  · rintro ⟨hlength, hall, rfl, rfl⟩
    have hcount : (UInt64.ofNat as.length).toNat = as.length := UInt64.toNat_ofNat_of_lt' hlength
    exact ⟨_, consumes_readCompactSize.mpr ⟨_, ⟨rfl, rfl⟩, rfl⟩,
      (h.replicateM_enc _).mpr ⟨_, ⟨hcount.symm, hall, rfl⟩, rfl⟩⟩

/-! ## Inputs, outputs and witnesses -/

/-- A byte string behind its length. -/
def sized (bs : Bytes) : Bytes := encodeCompactSize (UInt64.ofNat bs.length) ++ bs

theorem sized_of_length {n : UInt64} (h : bs.length = n.toNat) :
    sized bs = encodeCompactSize n ++ bs := by
  rw [sized, h, UInt64.ofNat_toNat]

/-- An input, in bytes. -/
structure BitcoinTxIn where
  outpoint : Bytes
  script : Bytes
  sequence : Bytes
deriving DecidableEq, Repr

def BitcoinTxIn.encode (i : BitcoinTxIn) : Bytes := i.outpoint ++ (sized i.script ++ i.sequence)

/-- The parts have the lengths of the format. -/
structure BitcoinTxIn.WellFormed (i : BitcoinTxIn) : Prop where
  outpoint : i.outpoint.length = 36
  script : i.script.length < 2 ^ 64
  sequence : i.sequence.length = 4

def BitcoinTxOutput.encode (o : BitcoinTxOutput) : Bytes :=
  Bytes.le 8 o.valueSats.toNat ++ sized o.scriptPubkey

/-- The items of one input's witness. -/
def encodeStack (stack : List Bytes) : Bytes :=
  encodeCompactSize (UInt64.ofNat stack.length) ++ stack.flatMap sized

/-- The lengths of a list and of its byte strings fit the length prefixes. -/
def Sized (items : List Bytes) : Prop :=
  items.length < 2 ^ 64 ∧ ∀ item ∈ items, item.length < 2 ^ 64

theorem consumes_readTxIn :
    Consumes readTxIn fun bytes used =>
      (∃ i : BitcoinTxIn, i.WellFormed ∧ bytes = i.encode) ∧ used = bytes := by
  intro bs bytes rest
  simp only [readTxIn, run_bind_eq_ok, run_take_eq_ok, run_pure_eq_ok]
  constructor
  · rintro ⟨outpoint, _, ⟨houtpoint, rfl⟩, p, _, hsize, script, _, ⟨hscript, rfl⟩, sequence, _,
      ⟨hsequence, rfl⟩, rfl, rfl⟩
    rcases consumes_readCompactSize.mp hsize with ⟨_, ⟨rfl, henc⟩, rfl⟩
    refine ⟨_, ⟨⟨⟨outpoint, script, sequence⟩, ⟨houtpoint, ?_, hsequence⟩, ?_⟩, rfl⟩, ?_⟩
    · rw [hscript]
      exact p.1.toNat_lt
    · rw [BitcoinTxIn.encode, sized_of_length hscript, henc, List.append_assoc]
    · simp only [List.append_assoc]
  · rintro ⟨_, ⟨⟨i, hi, rfl⟩, rfl⟩, rfl⟩
    have hlen : (UInt64.ofNat i.script.length).toNat = i.script.length :=
      UInt64.toNat_ofNat_of_lt' hi.script
    refine ⟨i.outpoint, _, ⟨hi.outpoint, List.append_assoc ..⟩,
      (UInt64.ofNat i.script.length, encodeCompactSize (UInt64.ofNat i.script.length)),
      i.script ++ (i.sequence ++ rest), consumes_readCompactSize.mpr ⟨_, ⟨rfl, rfl⟩, ?_⟩, i.script,
      i.sequence ++ rest, ⟨hlen.symm, rfl⟩, i.sequence, rest, ⟨hi.sequence, rfl⟩, ?_, rfl⟩
    · simp only [sized, List.append_assoc]
    · simp only [BitcoinTxIn.encode, sized, List.append_assoc]

theorem consumes_readTxOut :
    Consumes readTxOut fun p used =>
      (p.1.scriptPubkey.length < 2 ^ 64 ∧ p.2 = p.1.encode) ∧ used = p.2 := by
  intro bs p rest
  simp only [readTxOut, run_bind_eq_ok, run_take_eq_ok, run_pure_eq_ok]
  constructor
  · rintro ⟨value, _, ⟨hvalue, rfl⟩, q, _, hsize, script, _, ⟨hscript, rfl⟩, rfl, rfl⟩
    rcases consumes_readCompactSize.mp hsize with ⟨_, ⟨rfl, henc⟩, rfl⟩
    have hlt : Bytes.leNat value < 2 ^ 64 := Bytes.leNat_lt hvalue
    refine ⟨_, ⟨⟨?_, ?_⟩, rfl⟩, ?_⟩
    · rw [hscript]
      exact q.1.toNat_lt
    · rw [BitcoinTxOutput.encode, sized_of_length hscript, henc, UInt64.toNat_ofNat_of_lt' hlt,
        Bytes.le_leNat hvalue]
    · simp only [List.append_assoc]
  · rintro ⟨_, ⟨⟨hscript, henc⟩, rfl⟩, rfl⟩
    rcases p with ⟨o, bytes⟩
    change bytes = o.encode at henc
    subst henc
    have hlen : (UInt64.ofNat o.scriptPubkey.length).toNat = o.scriptPubkey.length :=
      UInt64.toNat_ofNat_of_lt' hscript
    refine ⟨Bytes.le 8 o.valueSats.toNat, _, ⟨Bytes.length_le .., List.append_assoc ..⟩,
      (UInt64.ofNat o.scriptPubkey.length, encodeCompactSize (UInt64.ofNat o.scriptPubkey.length)),
      o.scriptPubkey ++ rest, consumes_readCompactSize.mpr ⟨_, ⟨rfl, rfl⟩, ?_⟩, o.scriptPubkey,
      rest, ⟨hlen.symm, rfl⟩, ?_, rfl⟩
    · simp only [sized, List.append_assoc]
    · rw [Bytes.leNat_le o.valueSats.toNat_lt, UInt64.ofNat_toNat, BitcoinTxOutput.encode, sized]

/-- One item of a witness. -/
theorem consumes_readItem :
    Consumes (do
      let (len, _) ← readCompactSize
      Reader.take .truncated len.toNat : Reader BitcoinError Bytes) fun item used =>
        item.length < 2 ^ 64 ∧ used = sized item := by
  intro bs item rest
  simp only [run_bind_eq_ok, run_take_eq_ok]
  constructor
  · rintro ⟨p, _, hsize, hitem, rfl⟩
    rcases consumes_readCompactSize.mp hsize with ⟨_, ⟨rfl, henc⟩, rfl⟩
    refine ⟨sized item, ⟨?_, rfl⟩, ?_⟩
    · rw [hitem]
      exact p.1.toNat_lt
    · rw [sized_of_length hitem, henc, List.append_assoc]
  · rintro ⟨_, ⟨hitem, rfl⟩, rfl⟩
    refine ⟨(UInt64.ofNat item.length, encodeCompactSize (UInt64.ofNat item.length)), item ++ rest,
      consumes_readCompactSize.mpr ⟨_, ⟨rfl, rfl⟩, ?_⟩, ?_, rfl⟩
    · rw [sized, List.append_assoc]
    · exact (UInt64.toNat_ofNat_of_lt' hitem).symm

theorem consumes_readWitness :
    Consumes readWitness fun _ used => ∃ stack, Sized stack ∧ used = encodeStack stack := by
  intro bs u rest
  simp only [readWitness, run_bind_eq_ok, run_pure_eq_ok]
  constructor
  · rintro ⟨p, _, hsize, stack, _, hitems, -, rfl⟩
    rcases (readCounted_iff consumes_readItem).mp ⟨_, hsize, hitems⟩ with
      ⟨hlength, hsized, rfl, rfl⟩
    exact ⟨_, ⟨stack, ⟨hlength, hsized⟩, rfl⟩, (List.append_assoc ..).symm⟩
  · rintro ⟨_, ⟨stack, hstack, rfl⟩, rfl⟩
    rcases (readCounted_iff consumes_readItem).mpr
      ⟨hstack.1, hstack.2, rfl, List.append_assoc ..⟩ with ⟨mid, hsize, hitems⟩
    exact ⟨_, mid, hsize, stack, rest, hitems, trivial, rfl⟩

/-! ## Transactions -/

/-- What the identifier of a transaction covers besides its version and lock time. -/
structure BitcoinTxBody where
  inputs : List BitcoinTxIn
  outputs : List BitcoinTxOutput
deriving DecidableEq, Repr

/-- A body with inputs and outputs that fit their counts. -/
structure BitcoinTxBody.WellFormed (t : BitcoinTxBody) : Prop where
  inputs : t.inputs ≠ [] ∧ t.inputs.length < 2 ^ 64 ∧ ∀ i ∈ t.inputs, i.WellFormed
  outputs : t.outputs ≠ [] ∧ t.outputs.length < 2 ^ 64 ∧
    ∀ o ∈ t.outputs, o.scriptPubkey.length < 2 ^ 64

def BitcoinTxBody.encode (t : BitcoinTxBody) : Bytes :=
  encodeCompactSize (UInt64.ofNat t.inputs.length) ++ (t.inputs.flatMap (·.encode) ++
    (encodeCompactSize (UInt64.ofNat t.outputs.length) ++ t.outputs.flatMap (·.encode)))

/-- A transaction.  The witness is the flag and, for each input, the items. -/
structure BitcoinTx extends BitcoinTxBody where
  version : Bytes
  witness : Option (UInt8 × List (List Bytes))
  lockTime : Bytes
deriving DecidableEq, Repr

namespace BitcoinTx

/-- A body and parts that fit the format. -/
structure WellFormed (t : BitcoinTx) : Prop where
  body : t.toBitcoinTxBody.WellFormed
  version : t.version.length = 4
  witness : ∀ flag witnesses, t.witness = some (flag, witnesses) →
    flag ≠ 0 ∧ witnesses.length = t.inputs.length ∧ ∀ stack ∈ witnesses, Sized stack
  lockTime : t.lockTime.length = 4

/-- The serialization without the witness. -/
def stripped (t : BitcoinTx) : Bytes := t.version ++ (t.toBitcoinTxBody.encode ++ t.lockTime)

/-- The serialization, with the witness if there is one. -/
def serialize (t : BitcoinTx) : Bytes :=
  match t.witness with
  | none => t.stripped
  | some (flag, witnesses) =>
    t.version ++ (0x00 :: flag :: (t.toBitcoinTxBody.encode ++
      (witnesses.flatMap encodeStack ++ t.lockTime)))

end BitcoinTx

variable {inputs : List Bytes}

/-- Byte strings that are all encodings. -/
theorem exists_map_encode (h : ∀ bytes ∈ inputs, ∃ i : BitcoinTxIn, i.WellFormed ∧ bytes = i.encode)
    :
    ∃ is : List BitcoinTxIn, (∀ i ∈ is, i.WellFormed) ∧ inputs = is.map (·.encode) := by
  induction inputs with
  | nil => exact ⟨[], by simp, rfl⟩
  | cons bytes inputs ih =>
    rcases List.forall_mem_cons.mp h with ⟨⟨i, hi, rfl⟩, hrest⟩
    rcases ih hrest with ⟨is, his, rfl⟩
    exact ⟨i :: is, List.forall_mem_cons.mpr ⟨hi, his⟩, rfl⟩

theorem ofNat_length_ne_zero {α : Type} {as : List α} (hlength : as.length < 2 ^ 64) :
    UInt64.ofNat as.length ≠ 0 ↔ as ≠ [] := by
  rw [Ne, ← UInt64.toNat_inj, UInt64.toNat_ofNat_of_lt' hlength]
  exact List.length_eq_zero_iff.not

/-- The values the parser reads between the marker and the witness. -/
def BodyRead (total : Nat) (bs : Bytes) (vin : UInt64 × Bytes) (inputs : List Bytes)
    (vout : UInt64 × Bytes) (outs : List (BitcoinTxOutput × Bytes)) (rest : Bytes) : Prop :=
  ∃ mid mid' mid'', readCompactSize bs = .ok (vin, mid) ∧
    ¬ (vin.1 = 0 ∨ total / 41 + 1 < vin.1.toNat) ∧
    Reader.replicateM readTxIn vin.1.toNat mid = .ok (inputs, mid') ∧
    readCompactSize mid' = .ok (vout, mid'') ∧
    ¬ (vout.1 = 0 ∨ total / 9 + 1 < vout.1.toNat) ∧
    Reader.replicateM readTxOut vout.1.toNat mid'' = .ok (outs, rest)

variable {total : Nat}

theorem body_of_read {vin vout : UInt64 × Bytes} {outs : List (BitcoinTxOutput × Bytes)}
    (h : BodyRead total bs vin inputs vout outs rest) :
    ∃ t : BitcoinTxBody, t.WellFormed ∧ vin.1.toNat = t.inputs.length ∧
      outs.map (·.1) = t.outputs ∧ bs = t.encode ++ rest ∧
      vin.2 ++ (inputs.flatten ++ (vout.2 ++ (outs.map (·.2)).flatten)) = t.encode := by
  rcases h with ⟨mid, mid', mid'', hvin, hvinCount, hinputs, hvout, hvoutCount, houts⟩
  rcases (readCounted_iff consumes_readTxIn).mp ⟨_, hvin, hinputs⟩ with ⟨hlength, hall, rfl, rfl⟩
  rcases (readCounted_iff consumes_readTxOut).mp ⟨_, hvout, houts⟩ with
    ⟨hlength', hall', rfl, rfl⟩
  rcases exists_map_encode hall with ⟨is, his, rfl⟩
  have hsnd : outs.map (·.2) = (outs.map (·.1)).map (·.encode) := by
    rw [List.map_map]
    exact List.map_congr_left fun p hp => (hall' p hp).2
  have houtputs : outs.flatMap (·.2) = (outs.map (·.1)).flatMap (·.encode) := by
    rw [List.flatMap_def, hsnd, List.flatMap_def]
  have hinputs' : (is.map (·.encode)).flatMap (fun bytes => bytes) = is.flatMap (·.encode) := by
    rw [List.flatMap_map]
  rw [List.length_map] at hlength
  refine ⟨⟨is, outs.map (·.1)⟩, ⟨⟨?_, hlength, his⟩, ?_, ?_, ?_⟩, ?_, rfl, ?_, ?_⟩
  · exact (ofNat_length_ne_zero hlength).mp fun hzero => hvinCount (Or.inl (by simpa using hzero))
  · intro hnone
    exact (ofNat_length_ne_zero hlength').mp (fun hzero => hvoutCount (Or.inl hzero))
      (List.map_eq_nil_iff.mp hnone)
  · rwa [List.length_map]
  · intro o ho
    rcases List.mem_map.mp ho with ⟨p, hp, rfl⟩
    exact (hall' p hp).1
  · rw [List.length_map, UInt64.toNat_ofNat_of_lt' hlength]
  · rw [BitcoinTxBody.encode, List.length_map, List.length_map, hinputs', houtputs]
    simp only [List.append_assoc]
  · rw [BitcoinTxBody.encode, List.length_map, List.length_map, hsnd, List.flatMap_def,
      List.flatMap_def]

theorem length_encodeCompactSize (n : UInt64) : 1 ≤ (encodeCompactSize n).length := by
  unfold encodeCompactSize
  split_ifs <;> simp

theorem BitcoinTxIn.WellFormed.length_encode {i : BitcoinTxIn} (h : i.WellFormed) :
    41 ≤ i.encode.length := by
  have hsize := length_encodeCompactSize (UInt64.ofNat i.script.length)
  simp only [BitcoinTxIn.encode, sized, List.length_append, h.outpoint, h.sequence]
  omega

theorem BitcoinTxOutput.length_encode (o : BitcoinTxOutput) :
    9 + o.scriptPubkey.length ≤ o.encode.length := by
  have hsize := length_encodeCompactSize (UInt64.ofNat o.scriptPubkey.length)
  simp only [BitcoinTxOutput.encode, sized, List.length_append, Bytes.length_le]
  omega

variable {t : BitcoinTxBody}

/-- The bounds the parser puts on the counts hold of every serialization. -/
theorem BitcoinTxBody.WellFormed.counts (h : t.WellFormed) :
    41 * t.inputs.length ≤ t.encode.length ∧ 9 * t.outputs.length ≤ t.encode.length := by
  have hinputs : 41 * t.inputs.length ≤ (t.inputs.flatMap (·.encode)).length :=
    mul_length_le_flatMap fun i hi => (h.inputs.2.2 i hi).length_encode
  have houtputs : 9 * t.outputs.length ≤ (t.outputs.flatMap (·.encode)).length :=
    mul_length_le_flatMap fun o _ => (Nat.le_add_right _ _).trans o.length_encode
  simp only [BitcoinTxBody.encode, List.length_append]
  omega

theorem read_of_body (h : t.WellFormed) (htotal : t.encode.length ≤ total) (rest : Bytes) :
    BodyRead total (t.encode ++ rest)
      (UInt64.ofNat t.inputs.length, encodeCompactSize (UInt64.ofNat t.inputs.length))
      (t.inputs.map (·.encode))
      (UInt64.ofNat t.outputs.length, encodeCompactSize (UInt64.ofNat t.outputs.length))
      (t.outputs.map fun o => (o, o.encode)) rest := by
  rcases h.counts with ⟨hinputs, houtputs⟩
  rcases h with ⟨⟨hsome, hlength, hall⟩, hsome', hlength', hall'⟩
  have hcount : (UInt64.ofNat t.inputs.length).toNat = t.inputs.length :=
    UInt64.toNat_ofNat_of_lt' hlength
  have hcount' : (UInt64.ofNat t.outputs.length).toNat = t.outputs.length :=
    UInt64.toNat_ofNat_of_lt' hlength'
  let coded := t.outputs.map fun o => (o, o.encode)
  have houts : ∃ mid'', readCompactSize (encodeCompactSize (UInt64.ofNat t.outputs.length) ++
        (t.outputs.flatMap (·.encode) ++ rest)) =
          .ok ((UInt64.ofNat t.outputs.length,
            encodeCompactSize (UInt64.ofNat t.outputs.length)), mid'') ∧
      Reader.replicateM readTxOut (UInt64.ofNat t.outputs.length).toNat mid'' =
        .ok (coded, rest) := by
    refine (readCounted_iff consumes_readTxOut).mpr ⟨?_, ?_, ?_, ?_⟩
    · rwa [List.length_map]
    · simpa [coded] using hall'
    · rw [List.length_map]
    · rw [List.length_map, List.flatMap_map]
  have hins : ∃ mid, readCompactSize (t.encode ++ rest) =
        .ok ((UInt64.ofNat t.inputs.length,
          encodeCompactSize (UInt64.ofNat t.inputs.length)), mid) ∧
      Reader.replicateM readTxIn (UInt64.ofNat t.inputs.length).toNat mid =
        .ok (t.inputs.map (·.encode), encodeCompactSize (UInt64.ofNat t.outputs.length) ++
          (t.outputs.flatMap (·.encode) ++ rest)) := by
    refine (readCounted_iff consumes_readTxIn).mpr ⟨?_, ?_, ?_, ?_⟩
    · rwa [List.length_map]
    · intro bytes hbytes
      rcases List.mem_map.mp hbytes with ⟨i, hi, rfl⟩
      exact ⟨i, hall i hi, rfl⟩
    · rw [List.length_map]
    · rw [List.length_map, List.flatMap_map, BitcoinTxBody.encode]
      simp only [List.append_assoc]
  rcases houts with ⟨mid'', hvout, houts⟩
  rcases hins with ⟨mid, hvin, hins⟩
  refine ⟨mid, _, mid'', hvin, ?_, hins, hvout, ?_, houts⟩
  · rw [not_or, hcount]
    exact ⟨(ofNat_length_ne_zero hlength).mpr hsome, by omega⟩
  · rw [not_or, hcount']
    exact ⟨(ofNat_length_ne_zero hlength').mpr hsome', by omega⟩

/-! ## The parser -/

theorem peekSegwit_eq_ok {segwit : Bool} :
    peekSegwit bs = .ok (segwit, rest) ↔ rest = bs ∧
      (segwit = true ↔ ∃ flag tail, bs = 0x00 :: flag :: tail ∧ flag ≠ 0x00) := by
  unfold peekSegwit
  rw [Except.ok.injEq, Prod.mk.injEq, and_comm, eq_comm (a := bs)]
  refine and_congr_right fun _ => ?_
  split
  · rename_i flag tail
    cases segwit <;> simp
  · rename_i hother
    cases segwit
    · simp only [Bool.false_eq_true, true_iff, false_iff, not_exists, not_and]
      intro flag tail hbs
      exact absurd hbs (hother flag tail)
    · simp only [Bool.false_eq_true, true_iff, false_iff, not_exists, not_and]
      intro flag tail hbs
      exact absurd hbs (hother flag tail)

theorem encodeCompactSize_head {n : UInt64} (h : n ≠ 0) :
    ∃ b tail, encodeCompactSize n = b :: tail ∧ b ≠ 0 := by
  unfold encodeCompactSize
  split_ifs with hsmall
  · refine ⟨_, [], rfl, ?_⟩
    have hvalue : (UInt8.ofNat n.toNat).toNat = n.toNat :=
      UInt8.toNat_ofNat_of_lt' (hsmall.trans (by decide))
    intro hzero
    rw [hzero] at hvalue
    exact h (UInt64.toNat_inj.mp hvalue.symm)
  · exact ⟨_, _, rfl, by decide⟩
  · exact ⟨_, _, rfl, by decide⟩
  · exact ⟨_, _, rfl, by decide⟩

/-- Without a witness the bytes after the version are no marker: there is an input. -/
theorem BitcoinTxBody.WellFormed.no_marker (h : t.WellFormed) (rest : Bytes) :
    ¬ ∃ flag tail, t.encode ++ rest = 0x00 :: flag :: tail ∧ flag ≠ 0x00 := by
  rintro ⟨flag, tail, hbytes, -⟩
  rcases encodeCompactSize_head ((ofNat_length_ne_zero h.inputs.2.1).mpr h.inputs.1) with
    ⟨b, bs, hhead, hne⟩
  rw [BitcoinTxBody.encode, hhead] at hbytes
  exact hne (List.cons.inj hbytes).1

/-- The witnesses of as many inputs. -/
theorem readWitnesses_iff {n : Nat} :
    (∃ units, Reader.replicateM readWitness n bs = .ok (units, rest)) ↔
      ∃ witnesses : List (List Bytes), witnesses.length = n ∧ (∀ stack ∈ witnesses, Sized stack) ∧
        bs = witnesses.flatMap encodeStack ++ rest := by
  constructor
  · rintro ⟨units, h⟩
    rcases (consumes_readWitness.replicateM n).mp h with ⟨_, ⟨hlength, pieces, hpieces, rfl⟩, rfl⟩
    have hstacks : ∃ witnesses : List (List Bytes), witnesses.length = units.length ∧
        (∀ stack ∈ witnesses, Sized stack) ∧ pieces = witnesses.map encodeStack := by
      clear h hlength
      induction hpieces with
      | nil => exact ⟨[], rfl, by simp, rfl⟩
      | cons hpiece _ ih =>
        rcases hpiece with ⟨stack, hstack, rfl⟩
        rcases ih with ⟨witnesses, hlength, hall, rfl⟩
        exact ⟨stack :: witnesses, by rw [List.length_cons, hlength, List.length_cons],
          List.forall_mem_cons.mpr ⟨hstack, hall⟩, rfl⟩
    rcases hstacks with ⟨witnesses, hcount, hall, rfl⟩
    exact ⟨witnesses, hcount.trans hlength, hall, by rw [List.flatMap_def]⟩
  · rintro ⟨witnesses, hlength, hall, rfl⟩
    refine ⟨witnesses.map fun _ => (), (consumes_readWitness.replicateM n).mpr
      ⟨_, ⟨by rw [List.length_map, hlength], witnesses.map encodeStack, ?_, List.flatMap_def⟩, rfl⟩⟩
    rw [List.forall₂_map_left_iff, List.forall₂_map_right_iff, List.forall₂_same]
    exact fun stack hstack => ⟨stack, hall stack hstack, rfl⟩

/-- What the parser accepts is a serialization. -/
theorem serialize_of_readTransaction {stripped : Bytes} {outputs : List BitcoinTxOutput}
    (h : readTransaction total bs = .ok ((outputs, stripped), rest)) :
    ∃ t : BitcoinTx, t.WellFormed ∧ bs = t.serialize ++ rest ∧ outputs = t.outputs ∧
      stripped = t.stripped := by
  simp only [readTransaction, run_bind_eq_ok, run_take_eq_ok] at h
  rcases h with ⟨version, _, ⟨hversion, rfl⟩, segwit, _, hpeek, h⟩
  rcases peekSegwit_eq_ok.mp hpeek with ⟨rfl, hmarker⟩
  cases segwit with
  | false =>
    simp only [Bool.false_eq_true, if_false, run_bind_eq_ok, run_take_eq_ok, run_rejectIf_eq_ok,
      run_pure_eq_ok, Prod.mk.injEq] at h
    rcases h with ⟨vin, _, hvin, _, _, ⟨hvinCount, rfl⟩, inputs, _, hinputs, vout, _, hvout, _, _,
      ⟨hvoutCount, rfl⟩, outs, _, houts, lockTime, _, ⟨hlock, rfl⟩, ⟨rfl, rfl⟩, rfl⟩
    rcases body_of_read ⟨_, _, _, hvin, hvinCount, hinputs, hvout, hvoutCount, houts⟩ with
      ⟨body, hbody, -, houtputs, rfl, hbytes⟩
    refine ⟨⟨body, version, none, lockTime⟩, ⟨hbody, hversion, fun _ _ hnone => (by cases hnone),
      hlock⟩, ?_, houtputs, ?_⟩
    · simp only [BitcoinTx.serialize, BitcoinTx.stripped, List.append_assoc]
    · simp only [BitcoinTx.stripped, ← hbytes, List.append_assoc]
  | true =>
    rcases hmarker.mp rfl with ⟨flag, tail, rfl, hflag⟩
    simp only [if_true, run_bind_eq_ok, run_take_eq_ok, run_rejectIf_eq_ok, run_pure_eq_ok,
      Prod.mk.injEq] at h
    rcases h with ⟨marker, mid, ⟨hlength, hmark⟩, vin, _, hvin, _, _, ⟨hvinCount, rfl⟩, inputs, _,
      hinputs, vout, _, hvout, _, _, ⟨hvoutCount, rfl⟩, outs, _, houts, units, _, hwitness,
      lockTime, _, ⟨hlock, rfl⟩, ⟨rfl, rfl⟩, rfl⟩
    have hmark' : [0x00, flag] = marker ∧ tail = mid := List.append_inj hmark hlength.symm
    rcases hmark' with ⟨rfl, rfl⟩
    rcases body_of_read ⟨_, _, _, hvin, hvinCount, hinputs, hvout, hvoutCount, houts⟩ with
      ⟨body, hbody, hcount, houtputs, rfl, hbytes⟩
    rcases readWitnesses_iff.mp ⟨units, hwitness⟩ with ⟨witnesses, hwitnesses, hsized, rfl⟩
    refine ⟨⟨body, version, some (flag, witnesses), lockTime⟩, ⟨hbody, hversion, ?_, hlock⟩, ?_,
      houtputs, ?_⟩
    · intro flag' witnesses' hsome
      cases hsome
      exact ⟨hflag, hwitnesses.trans hcount, hsized⟩
    · simp only [BitcoinTx.serialize, List.append_assoc, List.cons_append]
    · simp only [BitcoinTx.stripped, ← hbytes, List.append_assoc]

variable {t : BitcoinTx}

/-- Every serialization is accepted. -/
theorem readTransaction_serialize (h : t.WellFormed) (rest : Bytes)
    (htotal : t.serialize.length ≤ total) :
    readTransaction total (t.serialize ++ rest) = .ok ((t.outputs, t.stripped), rest) := by
  rcases t with ⟨body, version, witness, lockTime⟩
  have hfst : (body.outputs.map fun o => (o, o.encode)).map (·.1) = body.outputs := by
    rw [List.map_map]
    exact List.map_id _
  have hsnd : (body.outputs.map fun o => (o, o.encode)).map (·.2) =
      body.outputs.map (·.encode) := by
    rw [List.map_map]
    rfl
  simp only [readTransaction, run_bind_eq_ok, run_take_eq_ok]
  cases witness with
  | none =>
    have hlength : body.encode.length ≤ total := by
      simp only [BitcoinTx.serialize, BitcoinTx.stripped, List.length_append] at htotal
      omega
    have hread := read_of_body h.body hlength (lockTime ++ rest)
    rcases hread with ⟨mid, mid', mid'', hvin, hvinCount, hinputs, hvout, hvoutCount, houts⟩
    refine ⟨version, body.encode ++ (lockTime ++ rest), ⟨h.version, ?_⟩, false, _,
      peekSegwit_eq_ok.mpr ⟨rfl, ?_⟩, ?_⟩
    · simp only [BitcoinTx.serialize, BitcoinTx.stripped, List.append_assoc]
    · exact iff_of_false Bool.false_ne_true (h.body.no_marker _)
    · simp only [Bool.false_eq_true, if_false, run_bind_eq_ok, run_take_eq_ok,
        run_rejectIf_eq_ok, run_pure_eq_ok, Prod.mk.injEq]
      refine ⟨_, mid, hvin, (), mid, ⟨hvinCount, rfl⟩, _, mid', hinputs, _, mid'', hvout, (),
        mid'', ⟨hvoutCount, rfl⟩, _, _, houts, lockTime, rest, ⟨h.lockTime, rfl⟩, ⟨hfst, ?_⟩, rfl⟩
      rw [hsnd]
      simp only [BitcoinTx.stripped, BitcoinTxBody.encode, List.flatMap_def, List.append_assoc]
  | some w =>
    rcases w with ⟨flag, witnesses⟩
    rcases h.witness flag witnesses rfl with ⟨hflag, hcount, hsized⟩
    have hlength : body.encode.length ≤ total := by
      simp only [BitcoinTx.serialize, List.length_append, List.length_cons] at htotal
      omega
    have hread := read_of_body h.body hlength
      (witnesses.flatMap encodeStack ++ (lockTime ++ rest))
    rcases hread with ⟨mid, mid', mid'', hvin, hvinCount, hinputs, hvout, hvoutCount, houts⟩
    have hinputCount : (UInt64.ofNat body.inputs.length).toNat = body.inputs.length :=
      UInt64.toNat_ofNat_of_lt' h.body.inputs.2.1
    have hwitness : ∃ units, Reader.replicateM readWitness
        (UInt64.ofNat body.inputs.length).toNat
        (witnesses.flatMap encodeStack ++ (lockTime ++ rest)) = .ok (units, lockTime ++ rest) :=
      readWitnesses_iff.mpr ⟨witnesses, hcount.trans hinputCount.symm, hsized, rfl⟩
    rcases hwitness with ⟨units, hwitness⟩
    refine ⟨version, 0x00 :: flag :: (body.encode ++ (witnesses.flatMap encodeStack ++
      (lockTime ++ rest))), ⟨h.version, ?_⟩, true, _, peekSegwit_eq_ok.mpr ⟨rfl, ?_⟩, ?_⟩
    · simp only [BitcoinTx.serialize, List.append_assoc, List.cons_append]
    · exact iff_of_true rfl ⟨flag, _, rfl, hflag⟩
    · simp only [if_true, run_bind_eq_ok, run_take_eq_ok, run_rejectIf_eq_ok, run_pure_eq_ok,
        Prod.mk.injEq]
      refine ⟨[0x00, flag], _, ⟨rfl, rfl⟩, _, mid, hvin, (), mid, ⟨hvinCount, rfl⟩, _, mid',
        hinputs, _, mid'', hvout, (), mid'', ⟨hvoutCount, rfl⟩, _, _, houts, units, _, hwitness,
        lockTime, rest, ⟨h.lockTime, rfl⟩, ⟨hfst, ?_⟩, rfl⟩
      rw [hsnd]
      simp only [BitcoinTx.stripped, BitcoinTxBody.encode, List.flatMap_def, List.append_assoc]

theorem BitcoinTx.WellFormed.without_witness (h : t.WellFormed) :
    BitcoinTx.WellFormed { t with witness := none } :=
  ⟨h.body, h.version, fun _ _ hnone => (by cases hnone), h.lockTime⟩

/-- No serialization begins with another one. -/
theorem BitcoinTx.eq_nil_of_append {t' : BitcoinTx} (h : t.WellFormed) (h' : t'.WellFormed)
    {extra : Bytes} (hbytes : t.serialize ++ extra = t'.serialize) :
    extra = [] ∧ t.stripped = t'.stripped := by
  have hlength : t.serialize.length ≤ t'.serialize.length := by
    rw [← hbytes, List.length_append]
    exact Nat.le_add_right _ _
  have hread := readTransaction_serialize h extra hlength
  have hread' := readTransaction_serialize h' [] le_rfl
  rw [List.append_nil, ← hbytes] at hread'
  rw [← hbytes, hread', Except.ok.injEq, Prod.mk.injEq, Prod.mk.injEq] at hread
  exact ⟨hread.2.symm, hread.1.2.symm⟩

section Identifiers

variable [Crypto]

theorem parseTransaction_eq_ok {raw : Bytes} {parsed : ParsedBitcoinTransaction} :
    parseTransaction raw = .ok parsed ↔
      ∃ stripped, readTransaction raw.length raw = .ok ((parsed.outputs, stripped), []) ∧
        parsed.txidInternal = doubleSha256 stripped := by
  simp only [parseTransaction, ok_rules, not_not]
  constructor
  · rintro ⟨⟨⟨outputs, stripped⟩, rest⟩, hread, _, rfl, rfl⟩
    exact ⟨stripped, hread, rfl⟩
  · rintro ⟨stripped, hread, htxid⟩
    refine ⟨_, hread, (), rfl, ?_⟩
    cases parsed
    cases htxid
    rfl

theorem parseTransaction_serialize {t : BitcoinTx} (h : t.WellFormed) :
    parseTransaction t.serialize =
      .ok { txidInternal := doubleSha256 t.stripped, outputs := t.outputs } := by
  refine parseTransaction_eq_ok.mpr ⟨t.stripped, ?_, rfl⟩
  have hread := readTransaction_serialize h [] le_rfl
  rwa [List.append_nil] at hread

/-- The serialization without the witness determines the outputs. -/
theorem BitcoinTx.outputs_of_stripped {t t' : BitcoinTx} (h : t.WellFormed) (h' : t'.WellFormed)
    (hstripped : t.stripped = t'.stripped) : t.outputs = t'.outputs := by
  have hparse := parseTransaction_serialize h.without_witness
  have hparse' := parseTransaction_serialize h'.without_witness
  change parseTransaction t.stripped = _ at hparse
  change parseTransaction t'.stripped = _ at hparse'
  rw [hstripped, hparse', Except.ok.injEq, ParsedBitcoinTransaction.mk.injEq] at hparse
  exact hparse.2.symm

/-- An accepted byte string is the serialization of a transaction whose serialization
without the witness is unique and is accepted with the same result; the identifier is its
double hash.  Nothing longer and nothing shorter is accepted, and every transaction with
the same serialization without the witness has the same result. -/
theorem parse_ignores_witness {bs : Bytes} {parsed : ParsedBitcoinTransaction}
    (h : parseTransaction bs = .ok parsed) :
    ∃ t : BitcoinTx, t.WellFormed ∧ bs = t.serialize ∧
      (∀ t' : BitcoinTx, t'.WellFormed → bs = t'.serialize → t'.stripped = t.stripped) ∧
      parseTransaction t.stripped = .ok parsed ∧
      parsed.txidInternal = doubleSha256 t.stripped ∧ parsed.outputs = t.outputs ∧
      (∀ extra parsed', extra ≠ [] → parseTransaction (bs ++ extra) ≠ .ok parsed') ∧
      (∀ start missing parsed', bs = start ++ missing → missing ≠ [] →
        parseTransaction start ≠ .ok parsed') ∧
      ∀ t' : BitcoinTx, t'.WellFormed → t'.stripped = t.stripped →
        parseTransaction t'.serialize = .ok parsed := by
  have haccepted {bytes : Bytes} {result : ParsedBitcoinTransaction}
      (hparse : parseTransaction bytes = .ok result) : ∃ t : BitcoinTx, t.WellFormed ∧
        bytes = t.serialize ∧ result = ⟨doubleSha256 t.stripped, t.outputs⟩ := by
    rcases parseTransaction_eq_ok.mp hparse with ⟨stripped, hread, htxid⟩
    rcases serialize_of_readTransaction hread with ⟨t, ht, hbytes, houtputs, rfl⟩
    rw [List.append_nil] at hbytes
    cases result
    exact ⟨t, ht, hbytes, by rw [ParsedBitcoinTransaction.mk.injEq]; exact ⟨htxid, houtputs⟩⟩
  rcases haccepted h with ⟨t, ht, rfl, rfl⟩
  refine ⟨t, ht, rfl, ?_, parseTransaction_serialize ht.without_witness, rfl, rfl, ?_, ?_, ?_⟩
  · intro t' ht' hsame
    rw [← List.append_nil t.serialize] at hsame
    exact (BitcoinTx.eq_nil_of_append ht ht' hsame).2.symm
  · intro extra parsed' hextra hparse
    rcases haccepted hparse with ⟨t', ht', hbytes, -⟩
    exact hextra (BitcoinTx.eq_nil_of_append ht ht' hbytes).1
  · intro start missing parsed' hbytes hmissing hparse
    rcases haccepted hparse with ⟨t', ht', rfl, -⟩
    exact hmissing (BitcoinTx.eq_nil_of_append ht' ht hbytes.symm).1
  · intro t' ht' hstripped
    rw [parseTransaction_serialize ht', hstripped,
      BitcoinTx.outputs_of_stripped ht' ht hstripped]

end Identifiers

section Evaluation

attribute [local instance] sampleCrypto

/-- A payment with one input, one output and a witness of one byte. -/
def witnessedTx : BitcoinTx where
  inputs := [⟨List.replicate 36 0, [], List.replicate 4 0xff⟩]
  outputs := [⟨5000, [0x51]⟩]
  version := [2, 0, 0, 0]
  witness := some (1, [[[7]]])
  lockTime := List.replicate 4 0

theorem wellFormed_witnessedTx : witnessedTx.WellFormed := by
  refine ⟨⟨⟨by simp [witnessedTx], by simp [witnessedTx], ?_⟩, by simp [witnessedTx],
    by simp [witnessedTx], by simp [witnessedTx]⟩, rfl, ?_, rfl⟩
  · intro i hi
    rw [List.mem_singleton.mp hi]
    exact ⟨rfl, by decide, rfl⟩
  · intro flag witnesses hsome
    cases hsome
    exact ⟨by decide, rfl, by simp [Sized]⟩

theorem parse_ignores_witness_sample : ∃ parsed,
    parseTransaction witnessedTx.serialize = .ok parsed ∧
      parseTransaction witnessedTx.stripped = .ok parsed ∧
      witnessedTx.stripped ≠ witnessedTx.serialize := by
  have hparse := parseTransaction_serialize wellFormed_witnessedTx
  rcases parse_ignores_witness hparse with ⟨t, -, -, hunique, hstripped, -⟩
  rw [← hunique _ wellFormed_witnessedTx rfl] at hstripped
  exact ⟨_, hparse, hstripped, by decide⟩

end Evaluation

end Mutiny
