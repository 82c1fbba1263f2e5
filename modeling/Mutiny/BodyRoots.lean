import Mutiny.Lib.Lists
import Mutiny.Protocol.License
import Mutiny.SparseTree
import Mutiny.TransactionCodec

/-!
# The roots of a block's body

The transactions and the protocol operations of a block are hashed to one root each.
Leaves and inner nodes are hashed under different domains, so that promoting an odd
node cannot make lists of different lengths share a root: two lists with one root are
equal, or two different messages hashed for their roots have the same SHA-256.

Main result:

- Theorem {lit}`body_roots_bind_lists`: both roots of a block bind the whole list.
-/

namespace Mutiny

open Result Lists

section Binding

variable [Crypto]

/-! ## Trees over hashed leaves -/

/-- The hash of two children under a domain. -/
def pairHash (domain : Bytes) (l r : Bytes32) : Bytes32 :=
  sha256Domain domain [Bytes.b32 l, Bytes.b32 r]

/-- The messages hashed at the inner nodes above these leaves. -/
def pairMessages (domain : Bytes) (leaves : List Bytes32) : List Bytes :=
  (Merkle.hashedPairs (pairHash domain) leaves).map fun p =>
    message domain [Bytes.b32 p.1, Bytes.b32 p.2]

/-- The messages hashed for the root over leaves that are hashes of messages. -/
def treeMessages (domain : Bytes) (leafMessages : List Bytes) : List Bytes :=
  leafMessages ++ pairMessages domain (leafMessages.map Crypto.sha256)

/-- The messages of one list and those of another contain two different ones with the
same hash. -/
def ListsCollide (ms ms' : List Bytes) : Prop := Collides (· ∈ ms) (· ∈ ms')

variable {ms ms' : List Bytes}

theorem ListsCollide.mono {ns ns' : List Bytes} (h : ListsCollide ms ms') (hms : ms ⊆ ns)
    (hms' : ms' ⊆ ns') : ListsCollide ns ns' :=
  Collides.mono h (fun _ hm => hms hm) (fun _ hm => hms' hm)

/-- One message is told from another by its hash, unless they collide. -/
theorem eq_or_listsCollide {m m' : Bytes} (hm : m ∈ ms) (hm' : m' ∈ ms')
    (h : Crypto.sha256 m = Crypto.sha256 m') : m = m' ∨ ListsCollide ms ms' := by
  by_cases heq : m = m'
  · exact Or.inl heq
  · exact Or.inr ⟨m, m', hm, hm', heq, h⟩

variable {domain : Bytes}

theorem mem_pairMessages {leaves : List Bytes32} {t : Merkle.Tree Bytes32} {p : Bytes32 × Bytes32}
    (ht : Merkle.tree leaves = some t) (hp : p ∈ t.pairs (pairHash domain)) :
    message domain [Bytes.b32 p.1, Bytes.b32 p.2] ∈ pairMessages domain leaves := by
  rw [← Merkle.hashedPairs_of_tree ht] at hp
  exact List.mem_map.mpr ⟨p, hp, rfl⟩

/-- Leaves of lists of any lengths with one root are hashes of the same messages, or two
of the messages hashed for the roots collide. -/
theorem leafMessages_eq_or_collides
    (hdomain : ∀ m ∈ ms ++ ms', ∀ l r, m ≠ message domain [Bytes.b32 l, Bytes.b32 r])
    (hroot : Merkle.root (pairHash domain) (ms.map Crypto.sha256) =
      Merkle.root (pairHash domain) (ms'.map Crypto.sha256)) :
    ms = ms' ∨ ListsCollide (treeMessages domain ms) (treeMessages domain ms') := by
  rcases Merkle.leaves_eq_or_clash hroot with hsame | ⟨t, u, ht, hu, htl, hul, hclash⟩
  · refine eq_or_of_map_eq hsame fun m hm m' hm' heq => ?_
    exact eq_or_listsCollide (List.mem_append_left _ hm) (List.mem_append_left _ hm') heq
  · refine Or.inr ?_
    cases hclash with
    | nodes hp hq hne hsame =>
      refine ⟨_, _, List.mem_append_right _ (mem_pairMessages ht hp),
        List.mem_append_right _ (mem_pairMessages hu hq), ?_, hsame⟩
      intro heq
      exact hne (Prod.ext (message_pair_inj.mp heq).1 (message_pair_inj.mp heq).2)
    | leafNode hx hq hsame =>
      rw [htl] at hx
      rcases List.mem_map.mp hx with ⟨m, hm, rfl⟩
      exact ⟨m, _, List.mem_append_left _ hm, List.mem_append_right _ (mem_pairMessages hu hq),
        hdomain m (List.mem_append_left _ hm) _ _, hsame⟩
    | nodeLeaf hp hy hsame =>
      rw [hul] at hy
      rcases List.mem_map.mp hy with ⟨m, hm, rfl⟩
      exact ⟨_, m, List.mem_append_right _ (mem_pairMessages ht hp), List.mem_append_left _ hm,
        (hdomain m (List.mem_append_right _ hm) _ _).symm, hsame⟩

variable {r : Bytes32}

/-- A root is the hash of one of the messages hashed for it. -/
theorem exists_root_message (h : Merkle.root (pairHash domain) (ms.map Crypto.sha256) = some r) :
    ∃ m ∈ treeMessages domain ms, Crypto.sha256 m = r := by
  rw [Merkle.root_eq_tree, Option.map_eq_some_iff] at h
  rcases h with ⟨t, ht, rfl⟩
  cases t with
  | leaf x =>
    have hne : ms.map Crypto.sha256 ≠ [] := by
      intro hnil
      rw [hnil] at ht
      cases ht
    rcases Merkle.exists_tree hne with ⟨t', ht', hleaves⟩
    rw [ht, Option.some.injEq] at ht'
    rw [← ht'] at hleaves
    have hx : x ∈ ms.map Crypto.sha256 := hleaves ▸ List.mem_singleton_self x
    rcases List.mem_map.mp hx with ⟨m, hm, rfl⟩
    exact ⟨m, List.mem_append_left _ hm, rfl⟩
  | node l r =>
    exact ⟨_, List.mem_append_right _ (mem_pairMessages ht List.mem_cons_self), rfl⟩

/-! ## Transactions -/

/-- What a transaction identifier is the hash of. -/
def TransactionV1.txidMessage (tx : TransactionV1) : Bytes := message Domains.txId [tx.core.encode]

/-- What an identifier with witnesses is the hash of. -/
def TransactionV1.wtxidMessage (tx : TransactionV1) : Bytes :=
  message Domains.wtxId [tx.encodeFull]

/-- What the leaf of a transaction is the hash of. -/
def TransactionV1.leafMessage (tx : TransactionV1) : Bytes :=
  message Domains.txLeaf [Bytes.b32 tx.txid, Bytes.b32 tx.wtxid]

/-- The messages hashed for the transaction root of a block. -/
def transactionRootMessages (txs : List TransactionV1) : List Bytes :=
  txs.map TransactionV1.txidMessage ++ txs.map TransactionV1.wtxidMessage ++
    treeMessages Domains.txNode (txs.map TransactionV1.leafMessage)

theorem TransactionV1.leafMessage_ne (tx : TransactionV1) (l r : Bytes32) :
    tx.leafMessage ≠ message Domains.txNode [Bytes.b32 l, Bytes.b32 r] :=
  message_ne 11 (by decide) (by decide) (by decide)

variable {txs txs' : List TransactionV1}

/-- A leaf determines the transaction, unless two encodings have one identifier. -/
theorem eq_or_collide_of_leafMessage {tx tx' : TransactionV1} (htx : tx ∈ txs) (htx' : tx' ∈ txs')
    (hlimits : tx.WithinLimits) (hlimits' : tx'.WithinLimits) (h : tx.leafMessage = tx'.leafMessage)
    :
    tx = tx' ∨ ListsCollide (transactionRootMessages txs) (transactionRootMessages txs') := by
  have hwtxid : Crypto.sha256 tx.wtxidMessage = Crypto.sha256 tx'.wtxidMessage :=
    (message_pair_inj.mp h).2
  have hmem {us : List TransactionV1} {u : TransactionV1} (hu : u ∈ us) :
      u.wtxidMessage ∈ transactionRootMessages us :=
    List.mem_append_left _ (List.mem_append_right _ (List.mem_map_of_mem hu))
  rcases eq_or_listsCollide (hmem htx) (hmem htx') hwtxid with heq | hcollide
  · refine Or.inl ((TransactionV1.encodeFull_inj hlimits hlimits').mp ?_)
    simpa [TransactionV1.wtxidMessage, message] using heq
  · exact Or.inr hcollide

theorem transactions_eq_or_collide (htxs : ∀ tx ∈ txs, tx.WithinLimits)
    (htxs' : ∀ tx ∈ txs', tx.WithinLimits)
    (hroot : merkleRoot (txs.map (·.leaf)) = merkleRoot (txs'.map (·.leaf))) :
    txs = txs' ∨ ListsCollide (transactionRootMessages txs) (transactionRootMessages txs') := by
  have hleaves (us : List TransactionV1) :
      us.map (·.leaf) = (us.map TransactionV1.leafMessage).map Crypto.sha256 := by
    rw [List.map_map]
    rfl
  have hdomain : ∀ m ∈ txs.map TransactionV1.leafMessage ++ txs'.map TransactionV1.leafMessage,
      ∀ l r, m ≠ message Domains.txNode [Bytes.b32 l, Bytes.b32 r] := by
    rw [← List.map_append]
    intro m hm l r
    rcases List.mem_map.mp hm with ⟨tx, -, rfl⟩
    exact tx.leafMessage_ne l r
  rw [hleaves, hleaves] at hroot
  rcases leafMessages_eq_or_collides hdomain hroot with hsame | hcollide
  · refine eq_or_of_map_eq hsame fun tx htx tx' htx' heq => ?_
    exact eq_or_collide_of_leafMessage htx htx' (htxs tx htx) (htxs' tx' htx') heq
  · exact Or.inr (hcollide.mono (List.subset_append_right _ _) (List.subset_append_right _ _))

/-! ## Protocol operations -/

/-- What an operation identifier is the hash of. -/
def ProtocolOperationV1.idMessage (op : ProtocolOperationV1) : Bytes :=
  message Domains.protocolOpId [op.encode]

/-- What the leaf of an operation is the hash of. -/
def ProtocolOperationV1.leafMessage (op : ProtocolOperationV1) : Bytes :=
  message Domains.protocolOpLeaf [Bytes.b32 op.operationId]

/-- The messages hashed for the operations root of a block. -/
def operationsRootMessages (ops : List ProtocolOperationV1) : List Bytes :=
  if ops = [] then [message Domains.protocolOpsEmpty []]
  else ops.map ProtocolOperationV1.idMessage ++
    treeMessages Domains.protocolOpNode (ops.map ProtocolOperationV1.leafMessage)

variable {ops : List ProtocolOperationV1}

theorem operationsRootMessages_of_ne (h : ops ≠ []) :
    operationsRootMessages ops = ops.map ProtocolOperationV1.idMessage ++
      treeMessages Domains.protocolOpNode (ops.map ProtocolOperationV1.leafMessage) :=
  if_neg h

theorem ProtocolOperationV1.leafMessage_ne (op : ProtocolOperationV1) (l r : Bytes32) :
    op.leafMessage ≠ message Domains.protocolOpNode [Bytes.b32 l, Bytes.b32 r] :=
  message_ne 20 (by decide) (by decide) (by decide)

/-- The message of the empty root is none of those hashed for a list of operations. -/
theorem emptyMessage_notMem (ops : List ProtocolOperationV1) :
    message Domains.protocolOpsEmpty [] ∉
      treeMessages Domains.protocolOpNode (ops.map ProtocolOperationV1.leafMessage) := by
  intro h
  rcases List.mem_append.mp h with hleaf | hnode
  · rcases List.mem_map.mp hleaf with ⟨op, -, heq⟩
    exact message_ne 19 (by decide) (by decide) (by decide) heq
  · rcases List.mem_map.mp hnode with ⟨p, -, heq⟩
    exact message_ne 19 (by decide) (by decide) (by decide) heq

theorem protocolOperationsRoot_nil (h : protocolOperationsRoot [] = .ok r) :
    r = Crypto.sha256 (message Domains.protocolOpsEmpty []) := by
  cases h
  rfl

theorem protocolOperationsRoot_of_ne (hne : ops ≠ []) (h : protocolOperationsRoot ops = .ok r) :
    Merkle.root (pairHash Domains.protocolOpNode)
      ((ops.map ProtocolOperationV1.leafMessage).map Crypto.sha256) = some r := by
  unfold protocolOperationsRoot at h
  rw [if_neg hne] at h
  simp only [ok_rules] at h
  rcases h with ⟨-, -, hroot⟩
  rw [List.map_map]
  exact hroot

/-- A list of operations does not have the root of the empty list. -/
theorem collide_of_empty (hne : ops ≠ []) (hempty : protocolOperationsRoot [] = .ok r)
    (h : protocolOperationsRoot ops = .ok r) :
    ListsCollide (operationsRootMessages []) (operationsRootMessages ops) := by
  rcases exists_root_message (protocolOperationsRoot_of_ne hne h) with ⟨m, hm, hroot⟩
  refine ⟨_, m, List.mem_singleton_self _, ?_, ?_, ?_⟩
  · rw [operationsRootMessages_of_ne hne]
    exact List.mem_append_right _ hm
  · rintro rfl
    exact emptyMessage_notMem ops hm
  · rw [hroot, protocolOperationsRoot_nil hempty]

variable {ops' : List ProtocolOperationV1}

/-- A leaf determines the operation, unless two encodings have one identifier. -/
theorem eq_or_collide_of_operation_leaf {op op' : ProtocolOperationV1} (hop : op ∈ ops)
    (hop' : op' ∈ ops') (h : op.leafMessage = op'.leafMessage) :
    op = op' ∨ ListsCollide (operationsRootMessages ops) (operationsRootMessages ops') := by
  have hid : Crypto.sha256 op.idMessage = Crypto.sha256 op'.idMessage := by
    simp only [ProtocolOperationV1.leafMessage, message, List.flatten_cons, List.flatten_nil,
      List.append_cancel_left_eq, List.append_nil, Bytes.b32_inj] at h
    exact h
  have hmem {us : List ProtocolOperationV1} {u : ProtocolOperationV1} (hu : u ∈ us) :
      u.idMessage ∈ operationsRootMessages us := by
    rw [operationsRootMessages_of_ne (List.ne_nil_of_mem hu)]
    exact List.mem_append_left _ (List.mem_map_of_mem hu)
  rcases eq_or_listsCollide (hmem hop) (hmem hop') hid with heq | hcollide
  · refine Or.inl (ProtocolOperationV1.encode_inj.mp ?_)
    simpa [ProtocolOperationV1.idMessage, message] using heq
  · exact Or.inr hcollide

theorem operations_eq_or_collide (h : protocolOperationsRoot ops = .ok r)
    (h' : protocolOperationsRoot ops' = .ok r) :
    ops = ops' ∨ ListsCollide (operationsRootMessages ops) (operationsRootMessages ops') := by
  by_cases hops : ops = []
  · subst hops
    by_cases hops' : ops' = []
    · exact Or.inl hops'.symm
    · exact Or.inr (collide_of_empty hops' h h')
  by_cases hops' : ops' = []
  · subst hops'
    exact Or.inr (Collides.symm (collide_of_empty hops h' h))
  have hdomain : ∀ m ∈ ops.map ProtocolOperationV1.leafMessage ++
      ops'.map ProtocolOperationV1.leafMessage,
      ∀ l r, m ≠ message Domains.protocolOpNode [Bytes.b32 l, Bytes.b32 r] := by
    rw [← List.map_append]
    intro m hm l r
    rcases List.mem_map.mp hm with ⟨op, -, rfl⟩
    exact op.leafMessage_ne l r
  have hroot := (protocolOperationsRoot_of_ne hops h).trans
    (protocolOperationsRoot_of_ne hops' h').symm
  rcases leafMessages_eq_or_collides hdomain hroot with hsame | hcollide
  · exact eq_or_of_map_eq hsame fun op hop op' hop' => eq_or_collide_of_operation_leaf hop hop'
  · rw [operationsRootMessages_of_ne hops, operationsRootMessages_of_ne hops']
    exact Or.inr (hcollide.mono (List.subset_append_right _ _) (List.subset_append_right _ _))

/-! ## Both roots -/

/-- Two transaction lists with one root are the same list, and so are two operation lists
with one root; otherwise two different messages hashed for the two roots have the same
hash.  No length is fixed, so the promotion of odd nodes never lets a shorter list stand
for a longer one. -/
theorem body_roots_bind_lists :
    (∀ txs txs' : List TransactionV1, txs ≠ [] → txs' ≠ [] →
      (∀ tx ∈ txs, tx.WithinLimits) → (∀ tx ∈ txs', tx.WithinLimits) →
      merkleRoot (txs.map (·.leaf)) = merkleRoot (txs'.map (·.leaf)) →
      txs = txs' ∨
        ∃ m ∈ transactionRootMessages txs, ∃ m' ∈ transactionRootMessages txs',
          m ≠ m' ∧ Crypto.sha256 m = Crypto.sha256 m') ∧
    ∀ ops ops' : List ProtocolOperationV1, ∀ r, protocolOperationsRoot ops = .ok r →
      protocolOperationsRoot ops' = .ok r →
      ops = ops' ∨
        ∃ m ∈ operationsRootMessages ops, ∃ m' ∈ operationsRootMessages ops',
          m ≠ m' ∧ Crypto.sha256 m = Crypto.sha256 m' := by
  have hexhibit {ms ms' : List Bytes} (h : ListsCollide ms ms') :
      ∃ m ∈ ms, ∃ m' ∈ ms', m ≠ m' ∧ Crypto.sha256 m = Crypto.sha256 m' := by
    rcases h with ⟨m, m', hm, hm', hne, hsame⟩
    exact ⟨m, hm, m', hm', hne, hsame⟩
  constructor
  · intro txs txs' _ _ htxs htxs' hroot
    exact (transactions_eq_or_collide htxs htxs' hroot).imp_right hexhibit
  · intro ops ops' r h h'
    exact (operations_eq_or_collide h h').imp_right hexhibit

end Binding

/-- A transaction with nothing in it. -/
def blankTransaction : TransactionV1 := ⟨⟨1, 1, 0, 0, [], []⟩, []⟩

/-- Primitives whose hash is the same for every message. -/
@[reducible]
def constantCrypto : Crypto := { sampleCrypto with sha256 := fun _ => 0 }

attribute [local instance] constantCrypto

/-- Under a constant hash a list and its double have one root, and two of the messages
hashed for it collide; so do those of the empty and a single operation. -/
theorem body_roots_bind_lists_constant :
    (∃ m ∈ transactionRootMessages [blankTransaction],
      ∃ m' ∈ transactionRootMessages [blankTransaction, blankTransaction],
        m ≠ m' ∧ Crypto.sha256 m = Crypto.sha256 m') ∧
    ∃ m ∈ operationsRootMessages [], ∃ m' ∈ operationsRootMessages [⟨1, 1, []⟩],
      m ≠ m' ∧ Crypto.sha256 m = Crypto.sha256 m' := by
  rcases body_roots_bind_lists with ⟨htransactions, hoperations⟩
  have hblank : blankTransaction.WithinLimits := by
    refine ⟨by decide, by decide, ?_, Or.inl (by decide), ?_, ?_⟩ <;> simp [blankTransaction]
  constructor
  · refine (htransactions [blankTransaction] [blankTransaction, blankTransaction] (by simp)
      (by simp) ?_ ?_ (by decide +kernel)).resolve_left (by decide)
    · simpa using hblank
    · simpa using hblank
  · exact (hoperations [] [⟨1, 1, []⟩] 0 (by decide +kernel) (by decide +kernel)).resolve_left
      (by decide)

end Mutiny
