import Mutiny.Lib.MerkleBranch
import Mutiny.BitcoinTransaction
import Mutiny.Node.BitcoinPurchase

/-!
# What a Bitcoin payment proof proves

A payment proof carries a raw transaction and a Merkle branch; the branch is walked
from the transaction's identifier to the root in the containing header.  Bitcoin hashes
transactions and inner nodes alike, so the walk may start at an inner node or pass
through a transaction of 64 bytes.  The first is excluded by the outputs the payment
must have; the second is not.

Main results:

- Theorem {lit}`spv_proofs_prove_inclusion`: an accepted proof is about a transaction of the
  block, if no transaction of 64 bytes is in the way.
- Theorem {lit}`forged_payment_accepted`: otherwise a proof of another one may be accepted.
-/

namespace Mutiny

open Result Reader

/-! ## Serializations -/

/-- The witness-stripped serialization of a raw transaction, if the parser accepts it. -/
def strippedSerialization (raw : Bytes) : Option Bytes :=
  match readTransaction raw.length raw with
  | .ok ((_, stripped), []) => some stripped
  | _ => none

variable {stripped : Bytes} {outputs : List BitcoinTxOutput}

theorem strippedSerialization_of {raw : Bytes}
    (h : readTransaction raw.length raw = .ok ((outputs, stripped), [])) :
    strippedSerialization raw = some stripped := by
  rw [strippedSerialization, h]

variable {bs rest : Bytes}

/-- A transaction is longer than the script of any of its outputs by the fixed parts of a
transaction with one input and one output. -/
theorem length_stripped_of_mem {total : Nat}
    (h : readTransaction total bs = .ok ((outputs, stripped), rest)) {o : BitcoinTxOutput}
    (ho : o ∈ outputs) : 56 + o.scriptPubkey.length ≤ stripped.length := by
  rcases serialize_of_readTransaction h with ⟨t, ht, -, rfl, rfl⟩
  rcases List.exists_mem_of_ne_nil _ ht.body.inputs.1 with ⟨i, hi⟩
  have hinput : 41 ≤ (t.inputs.flatMap (·.encode)).length :=
    (ht.body.inputs.2.2 i hi).length_encode.trans
      (List.sublist_flatten_of_mem (List.mem_map_of_mem hi)).length_le
  have houtput : 9 + o.scriptPubkey.length ≤ (t.outputs.flatMap (·.encode)).length :=
    o.length_encode.trans (List.sublist_flatten_of_mem (List.mem_map_of_mem ho)).length_le
  simp only [BitcoinTx.stripped, BitcoinTxBody.encode, List.length_append, ht.version, ht.lockTime]
  omega

/-! ## The tree of a block and the walk of a proof -/

section Hashes

variable [Crypto]

/-- The 64 bytes hashed at an inner node. -/
def pairBytes (p : Bytes32 × Bytes32) : Bytes := Bytes.b32 p.1 ++ Bytes.b32 p.2

omit [Crypto] in
theorem length_pairBytes (p : Bytes32 × Bytes32) : (pairBytes p).length = 64 := by
  simp [pairBytes]

omit [Crypto] in
theorem pairBytes_inj {p q : Bytes32 × Bytes32} : pairBytes p = pairBytes q ↔ p = q := by
  rw [pairBytes, pairBytes, Bytes.be_append_inj, Bytes.b32_inj, Bytes.b32_inj, Prod.ext_iff]

/-- A node of Bitcoin's tree. -/
def bitcoinNode (l r : Bytes32) : Bytes32 := doubleSha256 (pairBytes (l, r))

/-- The Merkle root of a block: identifiers are hashed pairwise, an odd last node with
itself. -/
def bitcoinMerkleRoot (txids : List Bytes32) : Option Bytes32 := Merkle.rootDup bitcoinNode txids

/-- The steps of a branch: an odd index has its sibling on the left. -/
def branchSteps : Nat → List Bytes32 → List (Bool × Bytes32)
  | _, [] => []
  | index, sibling :: branch => (decide (index % 2 ≠ 0), sibling) :: branchSteps (index / 2) branch

omit [Crypto] in
theorem length_branchSteps (index : Nat) (branch : List Bytes32) :
    (branchSteps index branch).length = branch.length := by
  induction branch generalizing index with
  | nil => rfl
  | cons sibling branch ih => rw [branchSteps, List.length_cons, List.length_cons, ih]

theorem merkleRootFromBranch_eq_walk (leaf : Bytes32) (index : Nat) (branch : List Bytes32) :
    merkleRootFromBranch leaf index branch =
      Merkle.walk bitcoinNode leaf (branchSteps index branch) := by
  induction branch generalizing leaf index with
  | nil => rfl
  | cons sibling branch ih =>
    rw [merkleRootFromBranch, ih]
    by_cases heven : index % 2 = 0
    · simp [branchSteps, Merkle.walk, Merkle.stepUp, Merkle.stepPair, bitcoinNode, pairBytes,
        heven]
    · simp [branchSteps, Merkle.walk, Merkle.stepUp, Merkle.stepPair, bitcoinNode, pairBytes,
        heven]

/-- The identifiers of the transactions of a block. -/
def listedTxids (listed : List Bytes) : List Bytes32 :=
  (listed.filterMap strippedSerialization).map doubleSha256

/-- The inputs of double SHA-256 for the root of a block. -/
def blockInputs (listed : List Bytes) : List Bytes :=
  listed.filterMap strippedSerialization ++
    (((Merkle.treeDup (listedTxids listed)).map (Merkle.Tree.pairs bitcoinNode)).getD []).map
      pairBytes

/-- The inputs of double SHA-256 for a walk from a serialization. -/
def walkInputs (stripped : Bytes) (index : Nat) (branch : List Bytes32) : List Bytes :=
  stripped ::
    (Merkle.walkPairs bitcoinNode (doubleSha256 stripped) (branchSteps index branch)).map pairBytes

/-- The inputs of double SHA-256 for a proof. -/
def proofInputs (proof : BitcoinSpvProofV1) : List Bytes :=
  (strippedSerialization proof.rawTransaction).toList.flatMap fun stripped =>
    walkInputs stripped proof.txIndex.toNat proof.merkleBranch

/-- The transaction of a proof is one of the block's, or an input hashed for the block and
another one hashed for the proof have the same double SHA-256. -/
def Included (listed : List Bytes) (proof : BitcoinSpvProofV1) : Prop :=
  (∃ raw ∈ listed, strippedSerialization raw = strippedSerialization proof.rawTransaction) ∨
    ∃ m ∈ blockInputs listed, ∃ m' ∈ proofInputs proof, m ≠ m' ∧ doubleSha256 m = doubleSha256 m'

instance (listed : List Bytes) (proof : BitcoinSpvProofV1) : Decidable (Included listed proof) :=
  inferInstanceAs (Decidable (_ ∨ _))

variable {listed : List Bytes} {parsed : List ParsedBitcoinTransaction}

theorem listedTxids_of_parsed (h : listed.mapM parseTransaction = .ok parsed) :
    parsed.map (·.txidInternal) = listedTxids listed ∧
      (listedTxids listed).length = listed.length := by
  induction listed generalizing parsed with
  | nil =>
    cases h
    exact ⟨rfl, rfl⟩
  | cons raw listed ih =>
    simp only [List.mapM_cons, bind_eq_ok, pure_eq_ok] at h
    rcases h with ⟨tx, htx, rest, hrest, rfl⟩
    rcases parseTransaction_eq_ok.mp htx with ⟨stripped, hread, htxid⟩
    have hcons : listedTxids (raw :: listed) = doubleSha256 stripped :: listedTxids listed := by
      rw [listedTxids, listedTxids, List.filterMap_cons, strippedSerialization_of hread,
        List.map_cons]
    rw [List.map_cons, (ih hrest).1, htxid, hcons, List.length_cons, (ih hrest).2]
    exact ⟨rfl, rfl⟩

/-- No transaction of a block is 64 bytes long without its witness, or a branch is no longer
than the tree of the block is deep. -/
def NoShortcut (listed : List Bytes) (branch : List Bytes32) : Prop :=
  (∀ raw ∈ listed, ∀ s, strippedSerialization raw = some s → s.length ≠ 64) ∨
    branch.length ≤ Nat.clog 2 listed.length

/-- A walk from the serialization of a transaction that is not 64 bytes long to the root of
a block starts at a transaction of the block, or two inputs collide, unless it can pass through a
transaction of 64 bytes. -/
theorem listed_or_collision {root : Bytes32} {stripped : Bytes} {index : Nat}
    {branch : List Bytes32} (hroot : bitcoinMerkleRoot (listedTxids listed) = some root)
    (hcount : (listedTxids listed).length = listed.length) (hsafe : NoShortcut listed branch)
    (hlength : stripped.length ≠ 64)
    (hreach : merkleRootFromBranch (doubleSha256 stripped) index branch = root) :
    (∃ raw ∈ listed, strippedSerialization raw = some stripped) ∨
      ∃ m ∈ blockInputs listed, ∃ m' ∈ walkInputs stripped index branch,
        m ≠ m' ∧ doubleSha256 m = doubleSha256 m' := by
  rcases Merkle.exists_treeDup hroot with ⟨t, ht, hhash, hleaves, hdepth⟩
  have hpairs {q : Bytes32 × Bytes32} (hq : q ∈ t.pairs bitcoinNode) :
      pairBytes q ∈ blockInputs listed := by
    refine List.mem_append_right _ (List.mem_map_of_mem ?_)
    rw [ht]
    exact hq
  have hleaf {x : Bytes32} (hx : x ∈ t.leaves) :
      ∃ raw ∈ listed, ∃ s, strippedSerialization raw = some s ∧ s ∈ blockInputs listed ∧
        x = doubleSha256 s := by
    rcases List.mem_map.mp (hleaves hx) with ⟨s, hs, rfl⟩
    rcases List.mem_filterMap.mp hs with ⟨raw, hraw, hsome⟩
    exact ⟨raw, hraw, s, hsome, List.mem_append_left _ hs, rfl⟩
  have hwalk {p : Bytes32 × Bytes32}
      (hp : p ∈ Merkle.walkPairs bitcoinNode (doubleSha256 stripped) (branchSteps index branch)) :
      pairBytes p ∈ walkInputs stripped index branch :=
    List.mem_cons_of_mem _ (List.mem_map_of_mem hp)
  rw [merkleRootFromBranch_eq_walk, ← hhash] at hreach
  cases Merkle.walk_from hreach with
  | leaf hv =>
    rcases hleaf hv with ⟨raw, hraw, s, hsome, hs, hsame⟩
    by_cases heq : s = stripped
    · exact Or.inl ⟨raw, hraw, heq ▸ hsome⟩
    · exact Or.inr ⟨s, hs, stripped, List.mem_cons_self, heq, hsame.symm⟩
  | inner hq hv =>
    -- the serialization cannot be the 64 bytes of an inner node
    refine Or.inr ⟨_, hpairs hq, stripped, List.mem_cons_self, ?_, hv.symm⟩
    rintro rfl
    exact hlength (length_pairBytes _)
  | through hp hx hlong =>
    rcases hsafe with hlisted | hshort
    · -- a pair of the walk cannot be the serialization of a transaction of the block
      rcases hleaf hx with ⟨raw, hraw, s, hsome, hs, hsame⟩
      refine Or.inr ⟨s, hs, _, hwalk hp, ?_, hsame.symm⟩
      rintro rfl
      exact hlisted raw hraw _ hsome (length_pairBytes _)
    · -- all leaves are deeper than the walk is long
      rw [length_branchSteps] at hlong
      rw [hcount] at hdepth
      omega
  | collision hp hq hne hsame =>
    refine Or.inr ⟨_, hpairs hq, _, hwalk hp, ?_, hsame.symm⟩
    intro heq
    exact hne (pairBytes_inj.mp heq).symm

/-! ## Accepted proofs -/

omit [Crypto] in
theorem length_manifestScript (hash : Bytes32) : (canonicalManifestScript hash).length = 34 := by
  simp [canonicalManifestScript]

/-- What both verifiers establish: the branch leads from the transaction to the root, and
the transaction has the manifest output. -/
theorem included_of_branch {root manifestHash : Bytes32} {proof : BitcoinSpvProofV1}
    {tx : ParsedBitcoinTransaction} {manifest : BitcoinTxOutput}
    (hparsed : listed.mapM parseTransaction = .ok parsed)
    (hroot : bitcoinMerkleRoot (parsed.map (·.txidInternal)) = some root)
    (hsafe : NoShortcut listed proof.merkleBranch)
    (htx : parseTransaction proof.rawTransaction = .ok tx)
    (hreach : merkleRootFromBranch tx.txidInternal proof.txIndex.toNat proof.merkleBranch = root)
    (hmanifest : tx.outputs[proof.manifestOutputIndex.toNat]? = some manifest)
    (hscript : manifest.scriptPubkey = canonicalManifestScript manifestHash) :
    Included listed proof := by
  rcases parseTransaction_eq_ok.mp htx with ⟨stripped, hread, htxid⟩
  have hsome := strippedSerialization_of hread
  have hlength : stripped.length ≠ 64 := by
    have hlong := length_stripped_of_mem hread (List.mem_of_getElem? hmanifest)
    rw [hscript, length_manifestScript] at hlong
    omega
  rcases listedTxids_of_parsed hparsed with ⟨htxids, hcount⟩
  rw [htxids] at hroot
  rw [htxid] at hreach
  rcases listed_or_collision hroot hcount hsafe hlength hreach with
    hmem | ⟨m, hm, m', hm', hne, hsame⟩
  · rw [← hsome] at hmem
    exact Or.inl hmem
  · refine Or.inr ⟨m, hm, m', ?_, hne, hsame⟩
    rw [proofInputs, hsome]
    simpa using hm'

/-- A proof that either verifier accepts against the root of a block is about one of its
transactions, or two inputs of double SHA-256 collide, if no transaction of the block is 64 bytes
long without its witness or the branch is no longer than the tree is deep. -/
theorem spv_proofs_prove_inclusion {listed : List Bytes} {parsed : List ParsedBitcoinTransaction}
    {root : Bytes32} (hparsed : listed.mapM parseTransaction = .ok parsed)
    (hroot : bitcoinMerkleRoot (parsed.map (·.txidInternal)) = some root)
    (proof : BitcoinSpvProofV1) (hsafe : NoShortcut listed proof.merkleBranch)
    (manifestHash : Bytes32) (treasuryScript : Bytes) (sats : UInt64)
    (validated : ValidatedBitcoinPayment) :
    (∀ containing, proof.headers.head? = some containing → containing.merkleRootInternal = root →
      validatePayment proof manifestHash treasuryScript sats = .ok validated →
      Included listed proof) ∧
    ∀ window : BitcoinHeaders.AuthenticatedPurchaseWindow,
      window.containingHeader.merkleRootInternal = root →
      BitcoinPurchase.validatePaymentAgainstAuthenticatedWindow proof window manifestHash
        treasuryScript sats = .ok validated →
      Included listed proof := by
  constructor
  · intro containing hhead hcarries haccept
    simp only [validatePayment, ok_rules, not_or, not_not] at haccept
    rcases haccept with ⟨_, -, tx, htx, containing', hhead', _, hreach, _, -, _, -, _, -, manifest,
      hmanifest, _, ⟨-, hscript⟩, -⟩
    rw [hhead, Option.some.injEq] at hhead'
    rw [← hhead', hcarries] at hreach
    exact included_of_branch hparsed hroot hsafe htx hreach hmanifest hscript
  · intro window hcarries haccept
    simp only [BitcoinPurchase.validatePaymentAgainstAuthenticatedWindow, ok_rules, not_or,
      not_not] at haccept
    rcases haccept with ⟨tx, htx, _, hreach, _, -, _, -, _, -, manifest, hmanifest, _,
      ⟨-, hscript⟩, -⟩
    rw [hcarries] at hreach
    exact included_of_branch hparsed hroot hsafe htx hreach hmanifest hscript

end Hashes

/-! ## A transaction of 64 bytes -/

/-- A transaction of 64 bytes: one input without a script and one output with a script of
four bytes. -/
def shortTransaction : Bytes :=
  Bytes.le32 1 ++ [1] ++ List.replicate 41 0 ++ [1] ++ List.replicate 8 0 ++ [4] ++
    List.replicate 8 0

/-- A transaction with a payment and a manifest output, whose identifier is the second half
of the short one. -/
def forgedTransaction : Bytes :=
  Bytes.le32 1 ++ [1] ++
    Bytes.b32 0xc76b55bfbe6929d89905b5f590561d4fc5a282d1f09ed022490736cb9f44e7a9#256 ++
    List.replicate 9 0 ++ [2] ++ (Bytes.le64 1000 ++ [0]) ++
    (Bytes.le64 0 ++ (34 :: canonicalManifestScript 0)) ++ List.replicate 4 0

/-- Headers mined one on the other from given nonces on, the first with a given root. -/
def minedHeaders [Crypto] :
    List UInt32 → Bytes32 → Bytes32 → Except BitcoinError (List BitcoinHeader)
  | [], _, _ => .ok []
  | nonce :: nonces, previous, root => do
    let header ← mineEasyHeader previous root 1 0x207fffff nonce
    let rest ← minedHeaders nonces header.hashInternal 0
    .ok (header :: rest)

/-- The forged transaction with the first half of the short one as its only sibling. -/
def forgedProof (headers : List BitcoinHeader) : BitcoinSpvProofV1 where
  rawTransaction := forgedTransaction
  paymentOutputIndex := 0
  manifestOutputIndex := 1
  txIndex := 1
  merkleBranch := [Bytes.toB32 (shortTransaction.take 32)]
  headers := headers
  containingBlockHeight := 0

/-- Another transaction, of 65 bytes. -/
def plainTransaction : Bytes :=
  Bytes.le32 1 ++ [1] ++ List.replicate 41 0 ++ [1] ++ List.replicate 8 0 ++ [5] ++
    List.replicate 9 0

/-- The payment in the middle of a block of three transactions: its siblings are the first
transaction, and the third hashed with itself. -/
def honestProof [Crypto] (headers : List BitcoinHeader) : BitcoinSpvProofV1 :=
  { forgedProof headers with
    merkleBranch := [doubleSha256 shortTransaction,
      bitcoinNode (doubleSha256 plainTransaction) (doubleSha256 plainTransaction)] }

/-- Parse a block, mine headers that carry its root and check a proof against them. -/
def acceptsMined [Crypto] (listed : List Bytes) (nonces : List UInt32)
    (proof : List BitcoinHeader → BitcoinSpvProofV1) : Bool :=
  okAnd (listed.mapM parseTransaction) fun parsed =>
    okAnd (minedHeaders nonces 0 ((bitcoinMerkleRoot (parsed.map (·.txidInternal))).getD 0))
      fun headers =>
        (headers.head?.any fun containing =>
          decide (bitcoinMerkleRoot (parsed.map (·.txidInternal)) =
            some containing.merkleRootInternal)) &&
          okAnd (validatePayment (proof headers) 0 [] 1000) fun _ => true

/-- A proof that is accepted against the root of a block. -/
structure AcceptedProof [Crypto] (listed : List Bytes) (proof : BitcoinSpvProofV1)
    (parsed : List ParsedBitcoinTransaction) (root : Bytes32) (containing : BitcoinHeader)
    (validated : ValidatedBitcoinPayment) : Prop where
  parses : listed.mapM parseTransaction = .ok parsed
  rooted : bitcoinMerkleRoot (parsed.map (·.txidInternal)) = some root
  head : proof.headers.head? = some containing
  carries : containing.merkleRootInternal = root
  accepted : validatePayment proof 0 [] 1000 = .ok validated

theorem exists_of_acceptsMined [Crypto] {listed : List Bytes} {nonces : List UInt32}
    {proof : List BitcoinHeader → BitcoinSpvProofV1} (hheaders : ∀ hs, (proof hs).headers = hs)
    (h : acceptsMined listed nonces proof = true) :
    ∃ headers parsed root containing validated,
      AcceptedProof listed (proof headers) parsed root containing validated := by
  rcases exists_of_okAnd h with ⟨parsed, hparsed, hmined⟩
  rcases exists_of_okAnd hmined with ⟨headers, -, htest⟩
  rw [Bool.and_eq_true, Option.any_eq_true] at htest
  rcases htest with ⟨⟨containing, hhead, hroot⟩, haccept⟩
  rcases exists_of_okAnd haccept with ⟨validated, haccept, -⟩
  rw [← hheaders headers] at hhead
  exact ⟨headers, parsed, _, containing, validated, hparsed, of_decide_eq_true hroot, hhead, rfl,
    haccept⟩

attribute [local instance] sampleCrypto

/-- A block of three transactions, the first of 64 bytes, and an honest proof with a branch of
two siblings. -/
theorem spv_proofs_prove_inclusion_middle :
    ∃ (headers : List BitcoinHeader) (parsed : List ParsedBitcoinTransaction) (root : Bytes32)
      (containing : BitcoinHeader) (validated : ValidatedBitcoinPayment),
      AcceptedProof [shortTransaction, forgedTransaction, plainTransaction] (honestProof headers)
        parsed root containing validated ∧
      Included [shortTransaction, forgedTransaction, plainTransaction] (honestProof headers) := by
  have hcheck : acceptsMined [shortTransaction, forgedTransaction, plainTransaction]
      [0, 0x28000000, 0x7c000000, 0, 0, 0] honestProof = true := by
    decide +kernel
  rcases exists_of_acceptsMined (fun _ => rfl) hcheck with
    ⟨headers, parsed, root, containing, validated, h⟩
  have hdepth : 2 ≤ Nat.clog 2 3 := by decide
  refine ⟨headers, parsed, root, containing, validated, h, ?_⟩
  exact (spv_proofs_prove_inclusion h.parses h.rooted (honestProof headers) (Or.inr hdepth) 0 []
    1000 validated).1 containing h.head h.carries h.accepted

/-- A block of one transaction, which is 64 bytes long: a payment that is not in it is
accepted, and no two inputs collide. -/
theorem forged_payment_accepted :
    ∃ (headers : List BitcoinHeader) (parsed : List ParsedBitcoinTransaction) (root : Bytes32)
      (containing : BitcoinHeader) (validated : ValidatedBitcoinPayment),
      AcceptedProof [shortTransaction] (forgedProof headers) parsed root containing validated ∧
      ¬Included [shortTransaction] (forgedProof headers) := by
  have hcheck : acceptsMined [shortTransaction] [0, 0, 0, 0, 0x5a000000, 0x29000000]
      forgedProof = true := by
    decide +kernel
  have hmissing : ¬Included [shortTransaction] (forgedProof []) := by
    decide +kernel
  rcases exists_of_acceptsMined (fun _ => rfl) hcheck with
    ⟨headers, parsed, root, containing, validated, h⟩
  exact ⟨headers, parsed, root, containing, validated, h, hmissing⟩

end Mutiny
