import Mutiny.Node.BlockSync
import Mutiny.TransactionCodec

/-!
# The payload of a block determines it, and is determined by it

A block travels as its header, a counted list of transactions and a counted list of
protocol operations.  The decoder accepts nothing but the concatenation of the
canonical encodings of what it returns, so a stored block is served as the bytes it
was received as.

Main result:

- Theorem {lit}`block_payload_codec_bijective`: both codecs are without loss in either
  direction.
-/

namespace Mutiny

open Result Reader

/-! ## The fields of a payload -/

theorem canonical_readHeader : Canonical readHeader HeaderV1.encode :=
  canonical_take_map fun _ => HeaderV1.encode_decode

theorem canonical_readProtocolOperation :
    Canonical readProtocolOperation ProtocolOperationV1.encode := by
  intro bs op rest h
  simp only [readProtocolOperation, run_bind_eq_ok, run_mapError_eq_ok, run_take_eq_ok,
    run_pure_eq_ok] at h
  rcases h with ⟨opType, _, ⟨htype, rfl⟩, opVersion, _, ⟨hversion, rfl⟩, len, _, hlen, payload, _,
    ⟨hpayload, rfl⟩, rfl, rfl⟩
  rw [canonical_varuint hlen]
  simp only [ProtocolOperationV1.encode, encodeVar, Bytes.u16_toU16 htype,
    Bytes.u16_toU16 hversion, hpayload, UInt64.ofNat_toNat, List.append_assoc]

theorem addressable_of_readProtocolOperation {bs rest : Bytes} {op : ProtocolOperationV1}
    (h : readProtocolOperation bs = .ok (op, rest)) : Addressable op.payload := by
  simp only [readProtocolOperation, run_bind_eq_ok, run_take_eq_ok, run_pure_eq_ok] at h
  rcases h with ⟨_, _, _, _, _, _, len, _, _, payload, _, ⟨hpayload, _⟩, rfl, _⟩
  rw [Addressable, hpayload]
  exact len.toNat_lt

/-- The bytes of a block made of these parts. -/
def blockBytes (header : HeaderV1) (txs : List TransactionV1) (ops : List ProtocolOperationV1) :
    Bytes :=
  header.encode ++ (writeVaruint 10 txs.length ++ (txs.flatMap TransactionV1.encodeFull ++
    (writeVaruint 10 ops.length ++ ops.flatMap ProtocolOperationV1.encode)))

variable {ops : List ProtocolOperationV1} {header : HeaderV1} {txs : List TransactionV1}

/-- The block reader consumes exactly the bytes of the parts it returns, all of which
can be decoded again. -/
theorem readBlock_eq_ok {bs rest : Bytes} (h : readBlock bs = .ok ((header, txs, ops), rest)) :
    bs = blockBytes header txs ops ++ rest ∧ (∀ tx ∈ txs, tx.WithinLimits) ∧
      ∀ op ∈ ops, Addressable op.payload := by
  simp only [readBlock, readTransactionV1, run_bind_eq_ok, run_mapError_eq_ok,
    run_rejectIf_eq_ok, run_pure_eq_ok, Prod.mk.injEq] at h
  rcases h with ⟨_, _, hheader, txCount, _, htxCount, _, _, ⟨-, rfl⟩, _, _, htxs, opCount, _,
    hopCount, _, _, ⟨-, rfl⟩, _, _, hops, ⟨rfl, rfl, rfl⟩, rfl⟩
  rcases TransactionV1.canonical_decodeFrom.mapError.replicateM htxs with ⟨htxsBytes, htxsLen⟩
  rcases canonical_readProtocolOperation.replicateM hops with ⟨hopsBytes, hopsLen⟩
  refine ⟨?_, ?_, ?_⟩
  · rw [canonical_readHeader hheader, canonical_varuint htxCount, htxsBytes,
      canonical_varuint hopCount, hopsBytes, blockBytes, htxsLen, hopsLen]
    simp only [encodeVaruint, List.append_assoc]
  · exact forall_mem_of_replicateM
      (fun _ _ _ htx => TransactionV1.withinLimits_of_decodeFrom (run_mapError_eq_ok.mp htx)) htxs
  · exact forall_mem_of_replicateM
      (fun _ _ _ hop => addressable_of_readProtocolOperation hop) hops

/-- A stored block whose records can be decoded again is served as their bytes. -/
theorem encodeBlockPayload_eq {block : BlockState} (hheader : block.header = header.encode)
    (htransactions : block.transactions = txs.map TransactionV1.encodeFull)
    (hoperations : block.protocolOperations = ops.map ProtocolOperationV1.encode)
    (htxs : ∀ tx ∈ txs, tx.WithinLimits) (hops : ∀ op ∈ ops, Addressable op.payload)
    (hlen : (blockBytes header txs ops).length ≤ maxP2pPayload) :
    encodeBlockPayload block = .ok (blockBytes header txs ops) := by
  simp only [encodeBlockPayload, ok_rules, forM_eq_ok, hheader, htransactions, hoperations,
    List.forall_mem_map, not_not, List.length_map, HeaderV1.length_encode]
  refine ⟨(), trivial, (), ?_, (), ?_, (), ?_, ?_⟩
  · intro tx htx
    exact ⟨tx, TransactionV1.decodeFull_encodeFull (htxs tx htx), rfl⟩
  · intro op hop
    exact ⟨op, decodeProtocolOperationBytes_encode (hops op hop), rfl⟩
  · rw [← List.flatMap_def, ← List.flatMap_def]
    exact Nat.not_lt.mpr hlen
  · rw [← List.flatMap_def, ← List.flatMap_def]
    rfl

section Payloads

variable [Crypto]

theorem decodeBlockPayload_eq_ok {payload : Bytes} {header : HeaderV1}
    {txs : List TransactionV1} {ops : List ProtocolOperationV1}
    (h : decodeBlockPayload payload = .ok (header, txs, ops)) :
    payload = blockBytes header txs ops ∧ (∀ tx ∈ txs, tx.WithinLimits) ∧
      ∀ op ∈ ops, Addressable op.payload := by
  simp only [decodeBlockPayload, ok_rules, not_not] at h
  rcases h with ⟨⟨⟨_, _, _⟩, _⟩, hread, _, _, _, rfl, hparts⟩
  cases hparts
  have hparts := readBlock_eq_ok hread
  rwa [List.append_nil] at hparts

/-! ## Both codecs -/

/-- Decoding a transaction and encoding it again gives the same bytes.  A transaction
within the decoder's limits is read back in front of any bytes.  The stored block made
of a decoded payload is served as that payload, so no two payloads carry one block. -/
theorem block_payload_codec_bijective :
    (∀ bytes tx, TransactionV1.decodeFull bytes = .ok tx → tx.encodeFull = bytes) ∧
    (∀ tx : TransactionV1, tx.WithinLimits → ∀ suffix,
      TransactionV1.decodeFrom (tx.encodeFull ++ suffix) = .ok (tx, suffix)) ∧
    (∀ payload header txs ops, decodeBlockPayload payload = .ok (header, txs, ops) →
      payload.length ≤ maxP2pPayload →
      ∀ block : BlockState, block.header = header.encode →
        block.transactions = txs.map TransactionV1.encodeFull →
        block.protocolOperations = ops.map ProtocolOperationV1.encode →
        encodeBlockPayload block = .ok payload) ∧
    ∀ payload payload' parts, decodeBlockPayload payload = .ok parts →
      decodeBlockPayload payload' = .ok parts → payload = payload' := by
  refine ⟨?_, fun tx htx => TransactionV1.reads_encodeFull htx, ?_, ?_⟩
  · intro bytes tx h
    have hbytes := TransactionV1.canonical_decodeFrom (TransactionV1.decodeFull_eq_ok.mp h)
    rw [hbytes, List.append_nil]
  · intro payload header txs ops hdecode hlen block hheader htransactions hoperations
    rcases decodeBlockPayload_eq_ok hdecode with ⟨rfl, htxs, hops⟩
    exact encodeBlockPayload_eq hheader htransactions hoperations htxs hops hlen
  · rintro payload payload' ⟨header, txs, ops⟩ hpayload hpayload'
    rw [(decodeBlockPayload_eq_ok hpayload).1, (decodeBlockPayload_eq_ok hpayload').1]

end Payloads

/-- A spend with one witness and a payload in its output. -/
def wireTransaction : TransactionV1 where
  core :=
    { version := 1
      networkId := 2
      validFromEpoch := 3
      expiryEpoch := 4
      inputs := [.outpoint ⟨5, 6⟩]
      outputs := [⟨7, outputPubkeyHash, [8, 9]⟩] }
  witnesses := [⟨witnessPubkeyHash, [10]⟩]

def wireOperation : ProtocolOperationV1 := ⟨1, 1, [11, 12, 13]⟩

/-- The stored block of one transaction and one operation. -/
def wireBlock : BlockState where
  height := 1
  epoch := 1
  header := (HeaderV1.decode []).encode
  transactions := [wireTransaction.encodeFull]
  protocolOperations := [wireOperation.encode]
  blockHash := 0
  parentHash := 0
  minerLicenseId := 0
  ticketIndex := 0
  argon2Proof := 0
  target := 0
  rewardStrikes := 0
  totalFeesStrikes := 0
  treasuryFeeShareStrikes := 0
  blockWeight := 0
  transactionRoot := 0
  stateRoot := 0
  coinbaseTxid := 0
  transactionIds := []

attribute [local instance] sampleCrypto

/-- A transaction is read back in front of other bytes, and a block of one transaction
and one operation is served as the payload it was decoded from. -/
theorem block_payload_codec_wire :
    TransactionV1.decodeFrom (wireTransaction.encodeFull ++ [1]) = .ok (wireTransaction, [1]) ∧
    ∃ payload,
      decodeBlockPayload payload = .ok (HeaderV1.decode [], [wireTransaction], [wireOperation]) ∧
      encodeBlockPayload wireBlock = .ok payload := by
  rcases block_payload_codec_bijective with ⟨-, hread, hserve, -⟩
  have hlimits : wireTransaction.WithinLimits := by
    refine ⟨by decide, by decide, ?_, Or.inl (by decide), ?_, ?_⟩
    · intro o ho
      rw [TxInput.outpoint.inj (List.mem_singleton.mp ho)]
      decide
    · intro o ho
      rw [List.mem_singleton.mp ho, Addressable]
      decide
    · intro w hw
      rw [List.mem_singleton.mp hw, Addressable]
      decide
  have hdecode : decodeBlockPayload
      (blockBytes (HeaderV1.decode []) [wireTransaction] [wireOperation]) =
        .ok (HeaderV1.decode [], [wireTransaction], [wireOperation]) := by
    decide +kernel
  exact ⟨hread wireTransaction hlimits [1], _, hdecode,
    hserve _ _ _ _ hdecode (by decide +kernel) wireBlock rfl rfl rfl⟩

end Mutiny
