import Mutiny.State
import Mutiny.Lib.Keyed

/-!
# Sparse trees and their compressed proofs

The full tree of depth 256 over a list of entries, the messages its nodes hash, and the
verification of compressed proofs against its root.

Main result:

- Theorem {lit}`compressedProof_complete_sound`: proofs are complete and sound, up to a
  collision.
-/

namespace Mutiny

open Result

section Trees

variable [Crypto]

/-! ## Trees over a list of entries -/

/-- The leaves of the full tree over a list of entries. -/
def leafOf (entries : List (Bytes32 × Bytes32)) (k : Nat) : Bytes32 :=
  ((entries.find? fun e => e.1.toNat == k).map (·.2)).getD smtEmptyLeaf

/-- The root of the full tree over a list of entries. -/
def treeRoot (entries : List (Bytes32 × Bytes32)) : Bytes32 :=
  Merkle.nodeAt smtNode (leafOf entries) 256 0

variable {entries : List (Bytes32 × Bytes32)}

/-- The leaf of an entry. -/
theorem leafOf_of_mem (hdistinct : (entries.map Prod.fst).Nodup) {e : Bytes32 × Bytes32}
    (he : e ∈ entries) :
    leafOf entries e.1.toNat = e.2 := by
  have hfind : entries.find? (fun x => x.1.toNat == e.1.toNat) = some e := by
    have hkey : (fun x : Bytes32 × Bytes32 => x.1.toNat == e.1.toNat) = fun x => x.1 == e.1 := by
      funext x
      rw [Bool.eq_iff_iff, beq_iff_eq, beq_iff_eq, BitVec.toNat_inj]
    rw [hkey]
    exact Keyed.lookup_of_mem hdistinct he
  rw [leafOf, hfind]
  rfl

/-- A leaf without an entry is empty. -/
theorem leafOf_of_notMem {key : Bytes32} (h : key ∉ entries.map Prod.fst) :
    leafOf entries key.toNat = smtEmptyLeaf := by
  have hfind : entries.find? (fun x => x.1.toNat == key.toNat) = none := by
    rw [List.find?_eq_none]
    intro x hx heq
    have hsame := BitVec.toNat_inj.mp (beq_iff_eq.mp heq)
    exact h (hsame ▸ List.mem_map_of_mem hx)
  rw [leafOf, hfind]
  rfl

/-! ## Messages -/

/-- The bytes that {lit}`sha256Domain` hashes. -/
def message (domain : Bytes) (parts : List Bytes) : Bytes := domain ++ parts.flatten

/-- Two sets of messages contain two different ones with the same hash. -/
def Collides (A B : Bytes → Prop) : Prop :=
  ∃ a b, A a ∧ B b ∧ a ≠ b ∧ Crypto.sha256 a = Crypto.sha256 b

/-- The messages hashed at the inner nodes of a tree. -/
def NodeMessage (entries : List (Bytes32 × Bytes32)) (m : Bytes) : Prop :=
  ∃ h < 256, ∃ i, m = message Domains.smtNode
    [Bytes.b32 (Merkle.children smtNode (leafOf entries) h i).1,
      Bytes.b32 (Merkle.children smtNode (leafOf entries) h i).2]

omit [Crypto] in
theorem message_pair_inj {domain : Bytes} {a b c d : Bytes32} :
    message domain [Bytes.b32 a, Bytes.b32 b] = message domain [Bytes.b32 c, Bytes.b32 d] ↔
      a = c ∧ b = d := by
  simp only [message, List.flatten_cons, List.flatten_nil, List.append_cancel_left_eq,
    Bytes.be_append_inj, Bytes.b32_inj, and_true]

/-- Trees with one root have the same leaves, or two of their nodes collide. -/
theorem leafOf_eq_or_collides {entries' : List (Bytes32 × Bytes32)}
    (h : treeRoot entries = treeRoot entries') :
    (∀ key : Bytes32, leafOf entries key.toNat = leafOf entries' key.toNat) ∨
      Collides (NodeMessage entries) (NodeMessage entries') := by
  rcases Merkle.leaf_eq_or_collision smtNode h with hleaves | ⟨n, hn, i, hdiffer, hsame⟩
  · refine Or.inl fun key => hleaves key.toNat ?_
    exact Nat.div_eq_of_lt key.isLt
  · refine Or.inr ⟨_, _, ⟨n, hn, i, rfl⟩, ⟨n, hn, i, rfl⟩, ?_, hsame⟩
    intro heq
    exact hdiffer (Prod.ext (message_pair_inj.mp heq).1 (message_pair_inj.mp heq).2)

theorem Collides.symm {A B : Bytes → Prop} (h : Collides A B) : Collides B A := by
  rcases h with ⟨a, b, ha, hb, hne, hsame⟩
  exact ⟨b, a, hb, ha, hne.symm, hsame.symm⟩

/-- A collision of two sets of messages is one of larger sets. -/
theorem Collides.mono {A B A' B' : Bytes → Prop} (h : Collides A B) (hA : ∀ m, A m → A' m)
    (hB : ∀ m, B m → B' m) : Collides A' B' := by
  rcases h with ⟨a, b, ha, hb, hrest⟩
  exact ⟨a, b, hA a ha, hB b hb, hrest⟩

omit [Crypto] in
/-- Messages of domains that differ in their first bytes differ. -/
theorem message_ne {domain domain' : Bytes} {parts parts' : List Bytes} (n : Nat)
    (hn : n ≤ domain.length) (hn' : n ≤ domain'.length) (h : domain.take n ≠ domain'.take n) :
    message domain parts ≠ message domain' parts' := by
  intro heq
  have htake := congrArg (List.take n) heq
  rw [message, message, List.take_append_of_le_length hn, List.take_append_of_le_length hn'] at htake
  exact h htake

/-- Items whose entries make up trees with one root: each item of one has a counterpart
in the other with the same key and the same leaf message, or two messages collide. -/
theorem tree_bound {α : Type} (entry : α → Bytes32 × Bytes32) (leafMessage : α → Bytes)
    {A B : Bytes → Prop} {xs ys : List α}
    (hleaf : ∀ x, (entry x).2 = Crypto.sha256 (leafMessage x))
    (hxs : ((xs.map entry).map Prod.fst).Nodup) (hys : ((ys.map entry).map Prod.fst).Nodup)
    (hroot : treeRoot (xs.map entry) = treeRoot (ys.map entry))
    (hnodeA : ∀ m, NodeMessage (xs.map entry) m → A m)
    (hnodeB : ∀ m, NodeMessage (ys.map entry) m → B m)
    (hA : ∀ x ∈ xs, A (leafMessage x)) (hB : ∀ y ∈ ys, B (leafMessage y))
    (hempty : B (message Domains.smtEmptyLeaf []))
    (hne : ∀ x, leafMessage x ≠ message Domains.smtEmptyLeaf []) :
    (∀ x ∈ xs, ∃ y ∈ ys, (entry y).1 = (entry x).1 ∧ leafMessage y = leafMessage x) ∨
      Collides A B := by
  by_contra hnot
  rw [not_or] at hnot
  rcases hnot with ⟨hlost, hnone⟩
  rcases leafOf_eq_or_collides hroot with hleaves | hcollides
  swap
  · exact hnone (hcollides.mono hnodeA hnodeB)
  have hsame : ∀ {a b : Bytes}, A a → B b → Crypto.sha256 a = Crypto.sha256 b → a = b := by
    intro a b ha hb heq
    by_contra hdiffer
    exact hnone ⟨a, b, ha, hb, hdiffer, heq⟩
  refine hlost fun x hx => ?_
  have hstored : leafOf (xs.map entry) (entry x).1.toNat = (entry x).2 :=
    leafOf_of_mem hxs (List.mem_map_of_mem hx)
  by_cases hmem : (entry x).1 ∈ (ys.map entry).map Prod.fst
  · rw [List.map_map] at hmem
    rcases List.mem_map.mp hmem with ⟨y, hy, hkey⟩
    have hkey : (entry y).1 = (entry x).1 := hkey
    have hstored' : leafOf (ys.map entry) (entry y).1.toNat = (entry y).2 :=
      leafOf_of_mem hys (List.mem_map_of_mem hy)
    rw [hleaves, ← hkey, hstored', hleaf, hleaf] at hstored
    exact ⟨y, hy, hkey, (hsame (hA x hx) (hB y hy) hstored.symm).symm⟩
  · rw [hleaves, leafOf_of_notMem hmem, hleaf] at hstored
    exact absurd (hsame (hA x hx) hempty hstored.symm) (hne x)

end Trees

/-! ## Bits -/

/-- The bit of a byte string at a depth, the first byte's highest bit first. -/
def bitMsb (bytes : Bytes) (depth : Nat) : UInt8 :=
  (bytes.getD (depth / 8) 0 >>> UInt8.ofNat (7 - depth % 8)) &&& 1

/-- A bit of a key, from the root down. -/
def keyBitMsb (key : Bytes32) (depth : Nat) : UInt8 := bitMsb (Bytes.b32 key) depth

/-- Whether a sibling is given at a depth. -/
def bitmapSet (bitmap : Bytes32) (depth : Nat) : Bool := bitMsb (Bytes.b32 bitmap) depth == 1

/-- The number of bits that are set in a byte. -/
def byteCountOnes (b : UInt8) : Nat :=
  (List.range 8).countP fun i => (b >>> UInt8.ofNat (7 - i)) &&& 1 == 1

theorem getD_be {n i : Nat} (v : Nat) (hi : i < n) :
    (Bytes.be n v).getD i 0 = UInt8.ofNat (v / 256 ^ (n - 1 - i)) := by
  induction n generalizing i with
  | zero => omega
  | succ n ih =>
    cases i with
    | zero => simp [Bytes.be]
    | succ i =>
      rw [Bytes.be, List.getD_cons_succ, ih (by omega)]
      congr 3
      omega

theorem bitMsb_eq_one (v : Bytes32) {depth : Nat} (h : depth < 256) :
    bitMsb (Bytes.b32 v) depth = 1 ↔ v.toNat.testBit (255 - depth) = true := by
  have hshift : (UInt8.ofNat (7 - depth % 8)).toNat % 8 = 7 - depth % 8 := by
    rw [UInt8.toNat_ofNat']
    omega
  have hbase : (256 : Nat) ^ (31 - depth / 8) = 2 ^ (8 * (31 - depth / 8)) := by
    rw [pow_mul]
    rfl
  have hindex : 7 - depth % 8 + 8 * (31 - depth / 8) = 255 - depth := by omega
  rw [bitMsb, Bytes.b32, getD_be _ (by omega : depth / 8 < 32), ← UInt8.toNat_inj,
    UInt8.toNat_and, UInt8.toNat_shiftRight, hshift, UInt8.toNat_one, Nat.and_one_is_mod,
    UInt8.toNat_ofNat', hbase, ← hindex, ← Nat.testBit_div_two_pow]
  have hlow := Nat.testBit_mod_two_pow (v.toNat / 2 ^ (8 * (31 - depth / 8))) 8 (7 - depth % 8)
  rw [decide_eq_true (by omega), Bool.true_and] at hlow
  rw [← hlow, Nat.testBit_eq_decide_div_mod_eq, decide_eq_true_eq, Nat.shiftRight_eq_div_pow]

theorem bitMsb_eq_zero_or_one (bytes : Bytes) (depth : Nat) :
    bitMsb bytes depth = 0 ∨ bitMsb bytes depth = 1 := by
  have hbit : (bitMsb bytes depth).toNat < 2 := by
    rw [bitMsb, UInt8.toNat_and, UInt8.toNat_one, Nat.and_one_is_mod]
    omega
  rw [← UInt8.toNat_inj, ← UInt8.toNat_inj, UInt8.toNat_zero, UInt8.toNat_one]
  omega

/-- The bits of all bytes are counted byte by byte. -/
theorem sum_byteCountOnes (bytes : Bytes) :
    (bytes.map byteCountOnes).sum =
      (List.range (8 * bytes.length)).countP fun depth => bitMsb bytes depth == 1 := by
  induction bytes with
  | nil => rfl
  | cons b bytes ih =>
    have hlength : 8 * (b :: bytes).length = 8 + 8 * bytes.length := by
      rw [List.length_cons]
      omega
    have hfirst : (List.range 8).countP (fun depth => bitMsb (b :: bytes) depth == 1) =
        byteCountOnes b := by
      refine List.countP_congr fun depth hdepth => ?_
      have hlt := List.mem_range.mp hdepth
      rw [bitMsb, Nat.div_eq_of_lt hlt, Nat.mod_eq_of_lt hlt, List.getD_cons_zero]
    have hrest : ∀ depth, bitMsb (b :: bytes) (8 + depth) = bitMsb bytes depth := by
      intro depth
      have hdiv : (8 + depth) / 8 = depth / 8 + 1 := by omega
      rw [bitMsb, hdiv, Nat.add_mod_left, List.getD_cons_succ, bitMsb]
    rw [List.map_cons, List.sum_cons, ih, hlength, List.range_add, List.countP_append, hfirst,
      List.countP_map]
    simp only [Function.comp_def, hrest]

/-! ## Compressed proofs -/

/-- The siblings along a path, without the default ones. -/
structure CompressedSmtProofV1 where
  bitmap : Bytes32
  /-- In increasing root-depth order. -/
  nondefaultSiblings : List Bytes32
deriving DecidableEq, Repr

section Verification

variable [Crypto]

/-- The hash of an empty subtree, the entry of a height in the table of the source. -/
def smtEmptyHash (height : Nat) : Bytes32 := Merkle.emptyHash smtNode smtEmptyLeaf height

/-- One depth of the loop that reads the siblings: those read so far and the cursor. -/
def placeSibling (proof : CompressedSmtProofV1) (placed : List (Nat × Bytes32) × Nat)
    (depth : Nat) : Except StateError (List (Nat × Bytes32) × Nat) :=
  if bitmapSet proof.bitmap depth then do
    -- the number of siblings is checked before, so the cursor is in range
    let sibling := proof.nondefaultSiblings.getD placed.2 0
    reject (sibling = smtEmptyHash (255 - depth)) .redundantDefaultSibling
    .ok (SortedMap.insert depth sibling placed.1, placed.2 + 1)
  else .ok placed

/-- One depth of the climb to the root. -/
def climbStep (key : Bytes32) (sibling : Nat → Bytes32) (cur : Bytes32) (depth : Nat) : Bytes32 :=
  if keyBitMsb key depth = 0 then smtNode cur (sibling depth) else smtNode (sibling depth) cur

/-- Whether a proof leads from a leaf to a root. -/
def verifyCompressedProof (key leaf : Bytes32) (proof : CompressedSmtProofV1)
    (expectedRoot : Bytes32) : Except StateError Bool := do
  let expectedCount := ((Bytes.b32 proof.bitmap).map byteCountOnes).sum
  reject (expectedCount ≠ proof.nondefaultSiblings.length) .proofSiblingCount
  let (byDepth, _) ← (List.range 256).foldlM (placeSibling proof) ([], 0)
  let sibling := fun depth =>
    (SortedMap.lookup depth byDepth).getD (smtEmptyHash (255 - depth))
  .ok ((List.range 256).reverse.foldl (climbStep key sibling) leaf == expectedRoot)

namespace CompressedSmtProofV1

variable (proof : CompressedSmtProofV1)

/-- The number of siblings above a depth. -/
def setBelow (depth : Nat) : Nat :=
  (List.range depth).countP (bitmapSet proof.bitmap)

/-- The sibling that a proof gives at a depth where its bitmap is set. -/
def given (depth : Nat) : Bytes32 :=
  proof.nondefaultSiblings.getD (proof.setBelow depth) 0

/-- The sibling that a proof means at a depth. -/
def sibling (depth : Nat) : Bytes32 :=
  if bitmapSet proof.bitmap depth then proof.given depth else smtEmptyHash (255 - depth)

/-- The siblings above a depth, by depth. -/
def table (n : Nat) : List (Nat × Bytes32) :=
  (List.range n).foldl (fun placed depth =>
    if bitmapSet proof.bitmap depth then SortedMap.insert depth (proof.given depth) placed
    else placed) []

/-- No sibling above a depth is the default one. -/
def Irredundant (n : Nat) : Prop :=
  ∀ depth < n, bitmapSet proof.bitmap depth = true →
    proof.given depth ≠ smtEmptyHash (255 - depth)

omit [Crypto] in
theorem setBelow_succ (n : Nat) :
    proof.setBelow (n + 1) = proof.setBelow n + if bitmapSet proof.bitmap n then 1 else 0 := by
  rw [setBelow, List.range_succ, List.countP_append, List.countP_singleton]
  rfl

omit [Crypto] in
theorem table_succ (n : Nat) :
    proof.table (n + 1) =
      if bitmapSet proof.bitmap n then SortedMap.insert n (proof.given n) (proof.table n)
      else proof.table n := by
  rw [table, List.range_succ, List.foldl_append, List.foldl_cons, List.foldl_nil]
  rfl

theorem irredundant_succ (n : Nat) :
    proof.Irredundant (n + 1) ↔ proof.Irredundant n ∧
      (bitmapSet proof.bitmap n = true → proof.given n ≠ smtEmptyHash (255 - n)) := by
  constructor
  · intro h
    exact ⟨fun depth hlt => h depth (Nat.lt_succ_of_lt hlt), h n (Nat.lt_succ_self n)⟩
  · intro h depth hlt
    rcases Nat.lt_succ_iff_lt_or_eq.mp hlt with hlt | rfl
    · exact h.1 depth hlt
    · exact h.2

omit [Crypto] in
theorem lookup_table (n depth : Nat) :
    SortedMap.lookup depth (proof.table n) =
      if depth < n ∧ bitmapSet proof.bitmap depth = true then some (proof.given depth)
      else none := by
  induction n with
  | zero => simp [table, SortedMap.lookup]
  | succ n ih =>
    rw [table_succ]
    by_cases hset : bitmapSet proof.bitmap n = true
    · rw [if_pos hset, SortedMap.lookup_insert, ih]
      by_cases heq : depth = n
      · simp [heq, hset]
      · have hlt : depth < n + 1 ↔ depth < n := by omega
        simp [heq, hlt]
    · rw [if_neg hset, ih]
      by_cases heq : depth = n
      · simp [heq, hset]
      · have hlt : depth < n + 1 ↔ depth < n := by omega
        simp [hlt]

end CompressedSmtProofV1

variable {r : List (Nat × Bytes32) × Nat}

theorem placeSibling_eq_ok {proof : CompressedSmtProofV1} {depth : Nat} :
    placeSibling proof (proof.table depth, proof.setBelow depth) depth = .ok r ↔
      (bitmapSet proof.bitmap depth = true →
        proof.given depth ≠ smtEmptyHash (255 - depth)) ∧
        r = (proof.table (depth + 1), proof.setBelow (depth + 1)) := by
  rw [proof.table_succ, proof.setBelow_succ, placeSibling]
  by_cases hset : bitmapSet proof.bitmap depth = true
  · rw [if_pos hset, if_pos hset, if_pos hset]
    simp only [ok_rules, exists_and_left, exists_const, hset, forall_const]
    exact and_congr_right fun _ => eq_comm
  · rw [if_neg hset, if_neg hset, if_neg hset, Nat.add_zero, Except.ok.injEq]
    constructor
    · intro h
      exact ⟨fun hset' => absurd hset' hset, h.symm⟩
    · intro h
      exact h.2.symm

/-- The loop over the depths reads the siblings in order and refuses a default one. -/
theorem placeSiblings_eq_ok {proof : CompressedSmtProofV1} {n : Nat} :
    (List.range n).foldlM (placeSibling proof) ([], 0) = .ok r ↔
      proof.Irredundant n ∧ r = (proof.table n, proof.setBelow n) := by
  induction n generalizing r with
  | zero =>
    rw [List.range_zero, List.foldlM_nil, pure_eq_ok]
    constructor
    · intro h
      exact ⟨fun depth hlt => absurd hlt (Nat.not_lt_zero depth), h.symm⟩
    · intro h
      exact h.2.symm
  | succ n ih =>
    rw [List.range_succ, List.foldlM_append, bind_eq_ok, proof.irredundant_succ]
    simp only [List.foldlM_cons, List.foldlM_nil, bind_pure]
    constructor
    · rintro ⟨placed, hplaced, hlast⟩
      rcases ih.mp hplaced with ⟨hbelow, rfl⟩
      rcases placeSibling_eq_ok.mp hlast with ⟨hdepth, rfl⟩
      exact ⟨⟨hbelow, hdepth⟩, rfl⟩
    · rintro ⟨⟨hbelow, hdepth⟩, rfl⟩
      exact ⟨_, ih.mpr ⟨hbelow, rfl⟩, placeSibling_eq_ok.mpr ⟨hdepth, rfl⟩⟩

omit [Crypto] in
theorem keyBitMsb_eq_zero (key : Bytes32) {depth : Nat} (h : depth < 256) :
    keyBitMsb key depth = 0 ↔ ¬ key.toNat / 2 ^ (255 - depth) % 2 = 1 := by
  have hone := bitMsb_eq_one key h
  rw [Nat.testBit_eq_decide_div_mod_eq, decide_eq_true_eq] at hone
  rw [← hone, keyBitMsb]
  rcases bitMsb_eq_zero_or_one (Bytes.b32 key) depth with hbit | hbit
  · simp [hbit]
  · simp [hbit]

/-- The climb from the deepest sibling to the root follows the path of the key. -/
theorem climb_eq_pathNode (key leaf : Bytes32) (sibling : Nat → Bytes32) :
    (List.range 256).reverse.foldl (climbStep key sibling) leaf =
      Merkle.pathNode smtNode (fun h => sibling (255 - h)) key.toNat leaf 256 := by
  have hclimb : ∀ n ≤ 256,
      (List.range n).foldl (fun cur h => climbStep key sibling cur (255 - h)) leaf =
        Merkle.pathNode smtNode (fun h => sibling (255 - h)) key.toNat leaf n := by
    intro n hn
    induction n with
    | zero => rfl
    | succ n ih =>
      have hheight : 255 - (255 - n) = n := by omega
      have hbit := keyBitMsb_eq_zero key (by omega : 255 - n < 256)
      rw [hheight] at hbit
      rw [List.range_succ, List.foldl_append, List.foldl_cons, List.foldl_nil, ih (by omega),
        climbStep, Merkle.pathNode]
      by_cases hone : key.toNat / 2 ^ n % 2 = 1
      · rw [if_pos hone, if_neg fun h => hbit.mp h hone]
      · rw [if_neg hone, if_pos (hbit.mpr hone)]
  rw [List.range_eq_range', List.reverse_range', List.foldl_map, Nat.zero_add]
  exact hclimb 256 le_rfl

omit [Crypto] in
theorem length_b32 (v : Bytes32) : (Bytes.b32 v).length = 32 := Bytes.length_be 32 _

/-- A proof is accepted exactly if it has a sibling for each bit of its bitmap, none of
them redundant, and its path leads from the leaf to the root. -/
theorem verifyCompressedProof_eq_ok {key leaf expectedRoot : Bytes32}
    {proof : CompressedSmtProofV1} :
    verifyCompressedProof key leaf proof expectedRoot = .ok true ↔
      proof.setBelow 256 = proof.nondefaultSiblings.length ∧ proof.Irredundant 256 ∧
        Merkle.pathNode smtNode (fun h => proof.sibling (255 - h)) key.toNat leaf 256 =
          expectedRoot := by
  have hcount : ((Bytes.b32 proof.bitmap).map byteCountOnes).sum = proof.setBelow 256 := by
    rw [sum_byteCountOnes, length_b32]
    rfl
  have hsibling : ∀ h, (SortedMap.lookup (255 - h) (proof.table 256)).getD
      (smtEmptyHash (255 - (255 - h))) = proof.sibling (255 - h) := by
    intro h
    rw [proof.lookup_table, CompressedSmtProofV1.sibling]
    by_cases hset : bitmapSet proof.bitmap (255 - h) = true
    · rw [if_pos ⟨by omega, hset⟩, if_pos hset, Option.getD_some]
    · rw [if_neg fun hboth => hset hboth.2, if_neg hset, Option.getD_none]
  simp only [verifyCompressedProof, ok_rules, not_not, beq_iff_eq, hcount, climb_eq_pathNode,
    placeSiblings_eq_ok]
  constructor
  · rintro ⟨_, hlength, placed, ⟨hplaced, rfl⟩, hroot⟩
    simp only [hsibling] at hroot
    exact ⟨hlength, hplaced, hroot⟩
  · rintro ⟨hlength, hplaced, hroot⟩
    refine ⟨(), hlength, _, ⟨hplaced, rfl⟩, ?_⟩
    simp only [hsibling]
    exact hroot

/-! ## Proofs for a tree -/

/-- Leaf hashes by key, in the order of the keys. -/
structure LeafMap where
  entries : List (Bytes32 × Bytes32)
  ascending : entries.Pairwise fun a b => a.1.toNat < b.1.toNat

namespace LeafMap

def root (leaves : LeafMap) : Bytes32 :=
  sparseRoot (leaves.entries.map fun e => (e.1.toNat, e.2))

/-- The leaf stored at a key, or the empty one. -/
def leaf (leaves : LeafMap) (key : Bytes32) : Bytes32 :=
  ((leaves.entries.find? fun e => e.1 == key).map (·.2)).getD smtEmptyLeaf

/-- The hash beside the path of a key at a depth. -/
def siblingHash (leaves : LeafMap) (key : Bytes32) (depth : Nat) : Bytes32 :=
  Merkle.nodeAt smtNode (leafOf leaves.entries) (255 - depth)
    (key.toNat / 2 ^ (255 - depth) ^^^ 1)

/-- Whether the hash beside a path is not that of an empty subtree. -/
def nondefault (leaves : LeafMap) (key : Bytes32) (depth : Nat) : Bool :=
  leaves.siblingHash key depth != smtEmptyHash (255 - depth)

/-- The compressed proof of a key: the hashes beside its path that are not those of
empty subtrees. -/
def proof (leaves : LeafMap) (key : Bytes32) : CompressedSmtProofV1 where
  bitmap := (BitVec.ofBoolListBE ((List.range 256).map (leaves.nondefault key))).cast (by simp)
  nondefaultSiblings :=
    ((List.range 256).filter (leaves.nondefault key)).map (leaves.siblingHash key)

variable (leaves : LeafMap) (key : Bytes32)

theorem leaf_eq : leaves.leaf key = leafOf leaves.entries key.toNat := by
  have hkey : (fun e : Bytes32 × Bytes32 => e.1.toNat == key.toNat) = fun e => e.1 == key := by
    funext e
    rw [Bool.eq_iff_iff, beq_iff_eq, beq_iff_eq, BitVec.toNat_inj]
  rw [leaf, leafOf, hkey]

theorem root_eq : leaves.root = Merkle.nodeAt smtNode (leafOf leaves.entries) 256 0 := by
  have hdistinct : (leaves.entries.map Prod.fst).Nodup := by
    rw [List.Nodup, List.pairwise_map]
    refine leaves.ascending.imp fun {a b} hlt heq => ?_
    rw [heq] at hlt
    exact lt_irrefl _ hlt
  refine Merkle.sparseRoot_eq_nodeAt smtNode ⟨?_, ?_⟩ 256
  · intro x hx
    rcases List.mem_map.mp hx with ⟨e, he, rfl⟩
    exact (leafOf_of_mem hdistinct he).symm
  · intro i hi
    have hfind : leaves.entries.find? (fun e => e.1.toNat == i) = none := by
      rw [List.find?_eq_none]
      intro e he heq
      refine hi (List.mem_map.mpr ⟨(e.1.toNat, e.2), ?_, beq_iff_eq.mp heq⟩)
      exact List.mem_map_of_mem he
    rw [leafOf, hfind]
    rfl

theorem bitmapSet_proof {depth : Nat} (h : depth < 256) :
    bitmapSet (leaves.proof key).bitmap depth = leaves.nondefault key depth := by
  have hbit := bitMsb_eq_one (leaves.proof key).bitmap h
  have hget : (leaves.proof key).bitmap.toNat.testBit (255 - depth) =
      leaves.nondefault key depth := by
    have hmsb : (leaves.proof key).bitmap.getMsbD depth = leaves.nondefault key depth := by
      simp [proof, h]
    rw [← hmsb, BitVec.getMsbD, decide_eq_true h, Bool.true_and]
    rfl
  rw [Bool.eq_iff_iff, bitmapSet, beq_iff_eq, hbit, hget]

theorem setBelow_proof {n : Nat} (h : n ≤ 256) :
    (leaves.proof key).setBelow n = (List.range n).countP (leaves.nondefault key) := by
  refine List.countP_congr fun depth hdepth => ?_
  rw [bitmapSet_proof leaves key ((List.mem_range.mp hdepth).trans_le h)]

theorem given_proof {depth : Nat} (h : depth < 256) (hset : leaves.nondefault key depth = true) :
    (leaves.proof key).given depth = leaves.siblingHash key depth := by
  have hsplit : ∃ rest, List.range 256 = List.range depth ++ depth :: rest := by
    have hsum : 256 = depth + (255 - depth + 1) := by omega
    rw [hsum, List.range_add, List.range_succ_eq_map, List.map_cons, Nat.add_zero]
    exact ⟨_, rfl⟩
  rcases hsplit with ⟨rest, hsplit⟩
  have hsiblings : (leaves.proof key).nondefaultSiblings =
      ((List.range 256).filter (leaves.nondefault key)).map (leaves.siblingHash key) := rfl
  rw [CompressedSmtProofV1.given, setBelow_proof leaves key h.le, hsiblings, hsplit,
    List.filter_append, List.filter_cons_of_pos hset, List.map_append, List.map_cons,
    List.countP_eq_length_filter, List.getD_append_right _ _ _ _ (by simp), List.length_map,
    Nat.sub_self, List.getD_cons_zero]

/-- The proof of a key means the hashes beside its path. -/
theorem sibling_proof {depth : Nat} (h : depth < 256) :
    (leaves.proof key).sibling depth = leaves.siblingHash key depth := by
  rw [CompressedSmtProofV1.sibling, bitmapSet_proof leaves key h]
  by_cases hset : leaves.nondefault key depth = true
  · rw [if_pos hset, given_proof leaves key h hset]
  · have hdefault : leaves.siblingHash key depth = smtEmptyHash (255 - depth) := by
      simpa [nondefault] using hset
    rw [if_neg hset, hdefault]

theorem irredundant_proof : (leaves.proof key).Irredundant 256 := by
  intro depth hdepth hset
  rw [bitmapSet_proof leaves key hdepth] at hset
  rw [given_proof leaves key hdepth hset]
  exact bne_iff_ne.mp hset

theorem setBelow_proof_eq_length :
    (leaves.proof key).setBelow 256 = (leaves.proof key).nondefaultSiblings.length := by
  rw [setBelow_proof leaves key le_rfl, List.countP_eq_length_filter]
  exact (List.length_map ..).symm

/-- The two hashes that a proof combines at a height, on the path of a key. -/
def combined (proof : CompressedSmtProofV1) (key leaf : Bytes32) (h : Nat) : Bytes32 × Bytes32 :=
  Merkle.pathChildren smtNode (fun h => proof.sibling (255 - h)) key.toNat leaf h

/-- The two hashes that the tree combines at a height, on the path of a key. -/
def stored (h : Nat) : Bytes32 × Bytes32 :=
  Merkle.children smtNode (leafOf leaves.entries) h (key.toNat / 2 ^ (h + 1))

end LeafMap

/-- Compressed proofs are complete and sound.  The proof made of the hashes beside the
path of a key is accepted for the leaf stored there.  A leaf for which any proof is
accepted is the stored one, or at some height the proof and the tree combine two
different pairs to one node. -/
theorem compressedProof_complete_sound (leaves : LeafMap) (key : Bytes32) :
    verifyCompressedProof key (leaves.leaf key) (leaves.proof key) leaves.root = .ok true ∧
      ∀ proof leaf, verifyCompressedProof key leaf proof leaves.root = .ok true →
        leaf = leaves.leaf key ∨
          ∃ h < 256, LeafMap.combined proof key leaf h ≠ leaves.stored key h ∧
            smtNode (LeafMap.combined proof key leaf h).1 (LeafMap.combined proof key leaf h).2 =
              smtNode (leaves.stored key h).1 (leaves.stored key h).2 := by
  have htop : key.toNat / 2 ^ 256 = 0 := Nat.div_eq_of_lt key.isLt
  constructor
  · refine verifyCompressedProof_eq_ok.mpr
      ⟨leaves.setBelow_proof_eq_length key, leaves.irredundant_proof key, ?_⟩
    have hpath : ∀ h < 256, (leaves.proof key).sibling (255 - h) =
        Merkle.nodeAt smtNode (leafOf leaves.entries) h (key.toNat / 2 ^ h ^^^ 1) := by
      intro h hlt
      have hheight : 255 - (255 - h) = h := by omega
      rw [leaves.sibling_proof key (by omega), LeafMap.siblingHash, hheight]
    rw [leaves.leaf_eq, leaves.root_eq, Merkle.pathNode_of_siblings smtNode hpath, htop]
  · intro proof leaf haccepted
    rcases verifyCompressedProof_eq_ok.mp haccepted with ⟨-, -, hroot⟩
    rw [leaves.root_eq, ← htop] at hroot
    rcases Merkle.pathLeaf_eq_or_collision smtNode hroot with hleaf | ⟨h, hlt, hdiffer, hsame⟩
    · rw [leaves.leaf_eq]
      exact Or.inl hleaf
    · rw [Merkle.pathNode_succ] at hsame
      exact Or.inr ⟨h, hlt, hdiffer, hsame⟩

end Verification

end Mutiny
