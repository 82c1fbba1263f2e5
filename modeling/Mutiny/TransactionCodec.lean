import Mutiny.Transaction

/-!
# The transaction codec

The strict decoder and the encoder of V1 transactions are inverse to each other on
the transactions the wire admits.  The wire carries no witness count: it follows
from the inputs, and the null outpoint tells a coinbase from an ordinary input.
-/

namespace Mutiny

open Result Reader

/-! ## Length-prefixed payloads -/

/-- The length of the payload fits the 64-bit length field, as that of any byte vector
in memory does. -/
def Addressable (payload : Bytes) : Prop := payload.length < 2 ^ 64

variable {payload : Bytes}

theorem Addressable.toNat_length (h : Addressable payload) :
    (UInt64.ofNat payload.length).toNat = payload.length :=
  UInt64.toNat_ofNat_of_lt' h

theorem reads_decodeVar (h : Addressable payload) :
    Reads decodeVar (encodeVar payload) payload :=
  (reads_varuint _).mapError.bind (reads_take h.toNat_length.symm)

theorem canonical_decodeVar : Canonical decodeVar encodeVar := by
  intro bs payload rest h
  simp only [decodeVar, cv, run_bind_eq_ok, run_mapError_eq_ok, run_take_eq_ok] at h
  rcases h with ⟨len, mid, hlen, hpayload, rfl⟩
  rw [canonical_varuint hlen, encodeVar, hpayload, UInt64.ofNat_toNat, List.append_assoc]

variable {bs rest : Bytes}

theorem addressable_of_decodeVar (h : decodeVar bs = .ok (payload, rest)) :
    Addressable payload := by
  simp only [decodeVar, cv, run_bind_eq_ok, run_mapError_eq_ok, run_take_eq_ok] at h
  rcases h with ⟨len, mid, -, hpayload, -⟩
  rw [Addressable, hpayload]
  exact len.toNat_lt

/-! ## Outputs and witnesses -/

theorem TxOutput.reads_encode {o : TxOutput} (h : Addressable o.payload) :
    Reads TxOutput.decode o.encode o :=
  (reads_u64 _).mapError.bind ((reads_u8 _).mapError.bind
    ((reads_decodeVar h).map_last (reads_pure _)))

theorem TxOutput.canonical_decode : Canonical TxOutput.decode TxOutput.encode := by
  intro bs o rest h
  simp only [TxOutput.decode, cv, run_bind_eq_ok, run_mapError_eq_ok, run_pure_eq_ok] at h
  rcases h with ⟨amount, _, hamount, outputType, _, htype, payload, _, hpayload, rfl, rfl⟩
  rw [canonical_u64 hamount, canonical_u8 htype, canonical_decodeVar hpayload]
  simp only [TxOutput.encode, List.append_assoc, List.cons_append, List.nil_append]

theorem TxOutput.addressable_of_decode {o : TxOutput} (h : TxOutput.decode bs = .ok (o, rest)) :
    Addressable o.payload := by
  simp only [TxOutput.decode, run_bind_eq_ok, run_pure_eq_ok] at h
  rcases h with ⟨_, _, _, _, _, _, payload, _, hpayload, rfl, _⟩
  exact addressable_of_decodeVar hpayload

theorem WitnessV1.reads_encode {w : WitnessV1} (h : Addressable w.payload) :
    Reads WitnessV1.decode w.encode w :=
  (reads_u8 _).mapError.bind ((reads_decodeVar h).map_last (reads_pure _))

theorem WitnessV1.canonical_decode : Canonical WitnessV1.decode WitnessV1.encode := by
  intro bs w rest h
  simp only [WitnessV1.decode, cv, run_bind_eq_ok, run_mapError_eq_ok, run_pure_eq_ok] at h
  rcases h with ⟨witnessType, _, htype, payload, _, hpayload, rfl, rfl⟩
  rw [canonical_u8 htype, canonical_decodeVar hpayload]
  simp only [WitnessV1.encode, List.cons_append, List.nil_append]

theorem WitnessV1.addressable_of_decode {w : WitnessV1} (h : WitnessV1.decode bs = .ok (w, rest)) :
    Addressable w.payload := by
  simp only [WitnessV1.decode, run_bind_eq_ok, run_pure_eq_ok] at h
  rcases h with ⟨_, _, _, payload, _, hpayload, rfl, _⟩
  exact addressable_of_decodeVar hpayload

/-! ## Inputs -/

theorem CoinbaseCommitmentV1.reads_encode (c : CoinbaseCommitmentV1) :
    Reads CoinbaseCommitmentV1.decode c.encode c :=
  (reads_u64 _).mapError.bind ((reads_u64 _).mapError.bind ((reads_u256 _).mapError.bind
    ((reads_u256 _).mapError.map_last (reads_pure _))))

theorem CoinbaseCommitmentV1.canonical_decode :
    Canonical CoinbaseCommitmentV1.decode CoinbaseCommitmentV1.encode := by
  intro bs c rest h
  simp only [CoinbaseCommitmentV1.decode, cv, run_bind_eq_ok, run_mapError_eq_ok,
    run_pure_eq_ok] at h
  rcases h with ⟨epoch, _, hepoch, height, _, hheight, parent, _, hparent, root, _, hroot,
    rfl, rfl⟩
  rw [canonical_u64 hepoch, canonical_u64 hheight, canonical_u256 hparent, canonical_u256 hroot]
  simp only [CoinbaseCommitmentV1.encode, List.append_assoc]

/-- An input may stand in a list of this many inputs: an ordinary one is not the null
outpoint, a coinbase stands alone. -/
def TxInput.Wellplaced (inputCount : Nat) : TxInput → Prop
  | .outpoint o => o ≠ OutPoint.null
  | .coinbase _ => inputCount = 1

theorem TxInput.reads_encodeCore {inputCount : Nat} {i : TxInput}
    (h : i.Wellplaced inputCount) : Reads (TxInput.decode inputCount) i.encodeCore i := by
  cases i with
  | outpoint o =>
    refine (reads_u256 _).mapError.bind ((reads_u16 _).mapError.map_last ?_)
    rw [if_neg h]
    exact reads_pure _
  | coinbase c =>
    have halone : ¬ inputCount ≠ 1 := not_not.mpr h
    rw [encodeCore, OutPoint.encode, List.append_assoc]
    refine (reads_u256 _).mapError.bind ((reads_u16 _).mapError.bind ?_)
    rw [if_pos rfl]
    exact (reads_rejectIf halone).bind
      ((CoinbaseCommitmentV1.reads_encode c).map_last (reads_pure _))

/-- What the decoder of an input accepts, in both of its branches. -/
theorem TxInput.decode_eq_ok {inputCount : Nat} {i : TxInput}
    (h : TxInput.decode inputCount bs = .ok (i, rest)) :
    i.Wellplaced inputCount ∧ bs = i.encodeCore ++ rest := by
  simp only [TxInput.decode, cv, run_bind_eq_ok, run_mapError_eq_ok] at h
  rcases h with ⟨txid, _, htxid, index, mid, hindex, hbranch⟩
  have hpoint : bs = (⟨txid, index⟩ : OutPoint).encode ++ mid := by
    rw [canonical_u256 htxid, canonical_u16 hindex, OutPoint.encode, List.append_assoc]
  split at hbranch
  · rename_i hnull
    simp only [run_bind_eq_ok, run_rejectIf_eq_ok, run_pure_eq_ok, not_not] at hbranch
    rcases hbranch with ⟨_, _, ⟨hcount, rfl⟩, c, _, hc, rfl, rfl⟩
    refine ⟨hcount, ?_⟩
    rw [hpoint, hnull, CoinbaseCommitmentV1.canonical_decode hc, encodeCore, List.append_assoc]
  · rename_i hordinary
    rcases run_pure_eq_ok.mp hbranch with ⟨rfl, rfl⟩
    exact ⟨hordinary, hpoint⟩

theorem TxInput.canonical_decode (inputCount : Nat) :
    Canonical (TxInput.decode inputCount) TxInput.encodeCore :=
  fun _ _ _ h => (TxInput.decode_eq_ok h).2

/-! ## Transactions -/

namespace TransactionV1

/-- The limits the decoder enforces.  The witnesses are one for each input, or none
beside a single coinbase input. -/
structure WithinLimits (t : TransactionV1) : Prop where
  inputs_le : t.core.inputs.length ≤ 1024
  outputs_le : t.core.outputs.length ≤ 1024
  ordinary : ∀ o, TxInput.outpoint o ∈ t.core.inputs → o ≠ OutPoint.null
  witnessed :
    ((∀ i ∈ t.core.inputs, i.isCoinbase = false) ∧
      t.witnesses.length = t.core.inputs.length) ∨
    (∃ c, t.core.inputs = [.coinbase c]) ∧ t.witnesses = []
  outputs_addressable : ∀ o ∈ t.core.outputs, Addressable o.payload
  witnesses_addressable : ∀ w ∈ t.witnesses, Addressable w.payload

/-- The number of witnesses the decoder goes on to read. -/
def impliedWitnessCount (inputs : List TxInput) : Nat :=
  if inputs.any TxInput.isCoinbase then 0 else inputs.length

variable {t : TransactionV1}

theorem WithinLimits.length_witnesses (h : t.WithinLimits) :
    impliedWitnessCount t.core.inputs = t.witnesses.length := by
  rcases h.witnessed with ⟨hordinary, hlen⟩ | ⟨⟨c, hinputs⟩, hnone⟩
  · have hany : t.core.inputs.any TxInput.isCoinbase = false := by
      rw [List.any_eq_false]
      intro i hi
      rw [hordinary i hi]
      decide
    rw [impliedWitnessCount, hany, hlen]
    rfl
  · rw [hinputs, hnone]
    rfl

theorem WithinLimits.wellplaced (h : t.WithinLimits) :
    ∀ i ∈ t.core.inputs, i.Wellplaced t.core.inputs.length := by
  intro i hi
  cases i with
  | outpoint o => exact h.ordinary o hi
  | coinbase c =>
    rcases h.witnessed with ⟨hordinary, -⟩ | ⟨⟨c', hinputs⟩, -⟩
    · exact absurd (hordinary _ hi) (by simp [TxInput.isCoinbase])
    · rw [hinputs]
      rfl

private theorem toNat_count {n : Nat} (h : n ≤ 1024) : (UInt64.ofNat n).toNat = n :=
  UInt64.toNat_ofNat_of_lt' (by
    have hsmall : (1024 : Nat) < UInt64.size := by decide
    omega)

private theorem count_not_gt {n : Nat} (h : n ≤ 1024) : ¬ (1024 : UInt64) < UInt64.ofNat n := by
  rw [UInt64.lt_iff_toNat_lt, toNat_count h]
  exact Nat.not_lt.mpr h

/-- The decoder reads back a transaction within the limits and leaves what follows it. -/
theorem reads_encodeFull (h : t.WithinLimits) :
    Reads TransactionV1.decodeFrom t.encodeFull t := by
  have hinputs : Reads (replicateM (TxInput.decode t.core.inputs.length) t.core.inputs.length)
      (t.core.inputs.flatMap TxInput.encodeCore) t.core.inputs :=
    Reads.replicateM fun i hi => TxInput.reads_encodeCore (h.wellplaced i hi)
  have houtputs : Reads (replicateM TxOutput.decode t.core.outputs.length)
      (t.core.outputs.flatMap TxOutput.encode) t.core.outputs :=
    Reads.replicateM fun o ho => TxOutput.reads_encode (h.outputs_addressable o ho)
  have hwitnesses : Reads (replicateM WitnessV1.decode t.witnesses.length)
      (t.witnesses.flatMap WitnessV1.encode) t.witnesses :=
    Reads.replicateM fun w hw => WitnessV1.reads_encode (h.witnesses_addressable w hw)
  simp only [encodeFull, TransactionCoreV1.encode, List.append_assoc]
  refine (reads_u16 _).mapError.bind ((reads_u32 _).mapError.bind ((reads_u64 _).mapError.bind
    ((reads_u64 _).mapError.bind ((reads_varuint _).mapError.bind ?_))))
  refine (reads_rejectIf (count_not_gt h.inputs_le)).bind ?_
  rw [toNat_count h.inputs_le]
  refine hinputs.bind ((reads_varuint _).mapError.bind ?_)
  refine (reads_rejectIf (count_not_gt h.outputs_le)).bind ?_
  rw [toNat_count h.outputs_le]
  refine houtputs.bind ?_
  have hcount := h.length_witnesses
  unfold impliedWitnessCount at hcount
  rw [hcount]
  exact hwitnesses.map_last (reads_pure t)

/-- What the decoder accepts is the encoding of a transaction within the limits. -/
theorem decodeFrom_eq_ok {bs rest : Bytes} (h : TransactionV1.decodeFrom bs = .ok (t, rest)) :
    t.WithinLimits ∧ bs = t.encodeFull ++ rest := by
  simp only [TransactionV1.decodeFrom, cv, run_bind_eq_ok, run_mapError_eq_ok,
    run_rejectIf_eq_ok, run_pure_eq_ok, UInt64.not_lt, UInt64.le_iff_toNat_le] at h
  rcases h with ⟨version, _, hversion, network, _, hnetwork, validFrom, _, hfrom, expiry, _,
    hexpiry, inputCount, _, hinputCount, _, _, ⟨hinputsLe, rfl⟩, inputs, _, hinputs, outputCount,
    _, houtputCount, _, _, ⟨houtputsLe, rfl⟩, outputs, _, houtputs, witnesses, _, hwitnesses,
    rfl, rfl⟩
  rcases (TxInput.canonical_decode _).replicateM hinputs with ⟨hinputsBytes, hinputsLen⟩
  rcases TxOutput.canonical_decode.replicateM houtputs with ⟨houtputsBytes, houtputsLen⟩
  rcases WitnessV1.canonical_decode.replicateM hwitnesses with ⟨hwitnessBytes, hwitnessLen⟩
  have hplaced : ∀ i ∈ inputs, i.Wellplaced inputCount.toNat :=
    forall_mem_of_replicateM (fun _ _ _ hi => (TxInput.decode_eq_ok hi).1) hinputs
  constructor
  · refine ⟨hinputsLen ▸ hinputsLe, houtputsLen ▸ houtputsLe, fun o ho => hplaced _ ho, ?_,
      forall_mem_of_replicateM (fun _ _ _ ho => TxOutput.addressable_of_decode ho) houtputs,
      forall_mem_of_replicateM (fun _ _ _ hw => WitnessV1.addressable_of_decode hw) hwitnesses⟩
    by_cases hany : inputs.any TxInput.isCoinbase = true
    · -- a coinbase was accepted as the only input
      rcases List.any_eq_true.mp hany with ⟨i, hi, hcoinbase⟩
      rw [if_pos hany] at hwitnessLen
      refine Or.inr ⟨?_, List.length_eq_zero_iff.mp hwitnessLen⟩
      cases i with
      | outpoint o => cases hcoinbase
      | coinbase c =>
        have hone : inputs.length = 1 := hinputsLen.trans (hplaced _ hi)
        rcases List.length_eq_one_iff.mp hone with ⟨i', rfl⟩
        exact ⟨c, by rw [List.mem_singleton.mp hi]⟩
    · rw [if_neg hany] at hwitnessLen
      refine Or.inl ⟨fun i hi => ?_, hwitnessLen.trans hinputsLen.symm⟩
      rw [Bool.not_eq_true, List.any_eq_false] at hany
      exact Bool.not_eq_true _ ▸ hany i hi
  · rw [canonical_u16 hversion, canonical_u32 hnetwork, canonical_u64 hfrom,
      canonical_u64 hexpiry, canonical_varuint hinputCount, hinputsBytes,
      canonical_varuint houtputCount, houtputsBytes, hwitnessBytes]
    simp only [encodeFull, TransactionCoreV1.encode, hinputsLen, houtputsLen,
      UInt64.ofNat_toNat, List.append_assoc]

/-- The decoder accepts nothing but encodings. -/
theorem canonical_decodeFrom : Canonical TransactionV1.decodeFrom TransactionV1.encodeFull :=
  fun _ _ _ h => (decodeFrom_eq_ok h).2

/-- What the decoder returns is within the limits. -/
theorem withinLimits_of_decodeFrom {bs rest : Bytes}
    (h : TransactionV1.decodeFrom bs = .ok (t, rest)) : t.WithinLimits :=
  (decodeFrom_eq_ok h).1

theorem decodeFull_eq_ok {bs : Bytes} :
    TransactionV1.decodeFull bs = .ok t ↔ TransactionV1.decodeFrom bs = .ok (t, []) := by
  simp only [TransactionV1.decodeFull, ok_rules, not_not]
  constructor
  · rintro ⟨⟨tx, rest⟩, hfrom, _, rfl, rfl⟩
    exact hfrom
  · intro h
    exact ⟨_, h, (), rfl, rfl⟩

theorem decodeFull_encodeFull (h : t.WithinLimits) :
    TransactionV1.decodeFull t.encodeFull = .ok t := by
  have hread := reads_encodeFull h []
  rw [List.append_nil] at hread
  exact decodeFull_eq_ok.mpr hread

/-- Transactions within the limits are told apart by their bytes. -/
theorem encodeFull_inj {u : TransactionV1} (ht : t.WithinLimits) (hu : u.WithinLimits) :
    t.encodeFull = u.encodeFull ↔ t = u := by
  constructor
  · intro h
    have hdecode := decodeFull_encodeFull ht
    rw [h, decodeFull_encodeFull hu] at hdecode
    exact (Except.ok.inj hdecode).symm
  · rintro rfl
    rfl

end TransactionV1

end Mutiny
