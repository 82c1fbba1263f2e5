import Mathlib.Algebra.Order.Ring.Nat
import Mathlib.Data.List.Basic
import Mathlib.Data.Nat.Bitwise

/-!
# Merkle trees

Two ways of hashing a collection to one root, over an arbitrary node function:
the list tree, which pairs neighbours and promotes an odd last node, and the
sparse tree of fixed depth, whose absent subtrees have default hashes.
-/

namespace Merkle

variable {H : Type}

/-- One level up: hash neighbours together and keep an odd last node. -/
def pairUp (node : H → H → H) : List H → List H
  | a :: b :: rest => node a b :: pairUp node rest
  | [a] => [a]
  | [] => []

/-- Go up until one node is left.  A level at least halves, so its length is fuel
enough. -/
def rootLoop (node : H → H → H) : Nat → List H → Option H
  | _, [] => none
  | _, [a] => some a
  | 0, _ => none
  | fuel + 1, level => rootLoop node fuel (pairUp node level)

def root (node : H → H → H) (leaves : List H) : Option H :=
  rootLoop node leaves.length leaves

/-! ## The tree of a list -/

/-- The shape of the computation of a root. -/
inductive Tree (H : Type) where
  | leaf (h : H)
  | node (left right : Tree H)

namespace Tree

def hash (node : H → H → H) : Tree H → H
  | leaf h => h
  | .node left right => node (hash node left) (hash node right)

/-- The leaves from left to right. -/
def leaves : Tree H → List H
  | leaf h => [h]
  | node left right => leaves left ++ leaves right

/-- The pairs of children that are hashed together. -/
def pairs (node : H → H → H) : Tree H → List (H × H)
  | leaf _ => []
  | .node left right =>
    (hash node left, hash node right) :: (pairs node left ++ pairs node right)

/-- Two trees hash different pairs to one node, or a leaf of one is a node of the other. -/
inductive Clash (node : H → H → H) (t u : Tree H) : Prop
  | nodes {p q : H × H} (hp : p ∈ t.pairs node) (hq : q ∈ u.pairs node) (hne : p ≠ q)
      (hsame : node p.1 p.2 = node q.1 q.2)
  | leafNode {x : H} {q : H × H} (hx : x ∈ t.leaves) (hq : q ∈ u.pairs node)
      (hsame : x = node q.1 q.2)
  | nodeLeaf {p : H × H} {y : H} (hp : p ∈ t.pairs node) (hy : y ∈ u.leaves)
      (hsame : node p.1 p.2 = y)

theorem Clash.mono {node : H → H → H} {t t' u u' : Tree H} (h : Clash node t u)
    (ht : t.pairs node ⊆ t'.pairs node) (htl : t.leaves ⊆ t'.leaves)
    (hu : u.pairs node ⊆ u'.pairs node) (hul : u.leaves ⊆ u'.leaves) : Clash node t' u' := by
  cases h with
  | nodes hp hq hne hsame => exact .nodes (ht hp) (hu hq) hne hsame
  | leafNode hx hq hsame => exact .leafNode (htl hx) (hu hq) hsame
  | nodeLeaf hp hy hsame => exact .nodeLeaf (ht hp) (hul hy) hsame

/-- Descend both trees from one hash: as long as the children agree, so do the hashes one
level below. -/
theorem leaves_eq_or_clash {node : H → H → H} {t u : Tree H}
    (h : t.hash node = u.hash node) : t.leaves = u.leaves ∨ Clash node t u := by
  induction t generalizing u with
  | leaf x =>
    cases u with
    | leaf y => exact Or.inl (congrArg (fun z => [z]) h)
    | node left right =>
      exact Or.inr (.leafNode List.mem_cons_self List.mem_cons_self h)
  | node left right ihLeft ihRight =>
    cases u with
    | leaf y => exact Or.inr (.nodeLeaf List.mem_cons_self List.mem_cons_self h)
    | node left' right' =>
      by_cases hchildren : (left.hash node, right.hash node) =
          (left'.hash node, right'.hash node)
      · rcases Prod.mk.inj hchildren with ⟨hleft, hright⟩
        rcases ihLeft hleft with hleft | hclash
        · rcases ihRight hright with hright | hclash
          · exact Or.inl (by rw [leaves, leaves, hleft, hright])
          · exact Or.inr (hclash.mono (by simp [pairs]) (by simp [leaves])
              (by simp [pairs]) (by simp [leaves]))
        · exact Or.inr (hclash.mono (by simp [pairs]) (by simp [leaves])
            (by simp [pairs]) (by simp [leaves]))
      · exact Or.inr (.nodes List.mem_cons_self List.mem_cons_self hchildren h)

end Tree

section Lists

variable {G : Type} {node : H → H → H} {node' : G → G → G} {f : G → H}

theorem pairUp_map (hf : ∀ a b, f (node' a b) = node (f a) (f b)) (level : List G) :
    pairUp node (level.map f) = (pairUp node' level).map f := by
  induction level using pairUp.induct with
  | case1 a b rest ih => simp [pairUp, ih, hf]
  | case2 a => rfl
  | case3 => rfl

/-- A map that respects the nodes respects the roots. -/
theorem root_map (hf : ∀ a b, f (node' a b) = node (f a) (f b)) (leaves : List G) :
    root node (leaves.map f) = (root node' leaves).map f := by
  have hloop (fuel : Nat) (level : List G) :
      rootLoop node fuel (level.map f) = (rootLoop node' fuel level).map f := by
    induction fuel generalizing level with
    | zero =>
      rcases level with _ | ⟨a, _ | ⟨b, rest⟩⟩
      · rfl
      · rfl
      · rfl
    | succ fuel ih =>
      rcases level with _ | ⟨a, _ | ⟨b, rest⟩⟩
      · rfl
      · rfl
      · have hstep := ih (pairUp node' (a :: b :: rest))
        rw [← pairUp_map hf] at hstep
        exact hstep
  rw [root, root, List.length_map, hloop]

/-- The tree the root of a list is computed along. -/
def tree (leaves : List H) : Option (Tree H) := root Tree.node (leaves.map Tree.leaf)

theorem root_eq_tree (node : H → H → H) (leaves : List H) :
    root node leaves = (tree leaves).map (Tree.hash node) := by
  have hmap : root node ((leaves.map Tree.leaf).map (Tree.hash node)) =
      (tree leaves).map (Tree.hash node) := root_map (fun _ _ => rfl) _
  rw [List.map_map] at hmap
  have hid : leaves.map (Tree.hash node ∘ Tree.leaf) = leaves := List.map_id leaves
  rwa [hid] at hmap

theorem length_pairUp (node : H → H → H) (level : List H) :
    (pairUp node level).length = (level.length + 1) / 2 := by
  induction level using pairUp.induct with
  | case1 a b rest ih =>
    simp only [pairUp, List.length_cons, ih]
    omega
  | case2 a => simp [pairUp]
  | case3 => simp [pairUp]

/-- The loop ends with one node, in which the leaves stand in their order. -/
theorem rootLoop_tree {fuel : Nat} {level : List (Tree H)} (hne : level ≠ [])
    (hfuel : level.length ≤ fuel + 1) :
    ∃ t, rootLoop Tree.node fuel level = some t ∧ t.leaves = level.flatMap Tree.leaves := by
  have hflat (level : List (Tree H)) :
      (pairUp Tree.node level).flatMap Tree.leaves = level.flatMap Tree.leaves := by
    induction level using pairUp.induct with
    | case1 a b rest ih => simp [pairUp, ih, Tree.leaves]
    | case2 a => rfl
    | case3 => rfl
  induction fuel generalizing level with
  | zero =>
    have hone : level.length = 1 := by
      have hpos := List.length_pos_of_ne_nil hne
      omega
    rcases List.length_eq_one_iff.mp hone with ⟨t, rfl⟩
    exact ⟨t, rfl, by simp⟩
  | succ fuel ih =>
    rcases level with _ | ⟨a, _ | ⟨b, rest⟩⟩
    · exact absurd rfl hne
    · exact ⟨a, rfl, by simp⟩
    · have hlen := length_pairUp Tree.node (a :: b :: rest)
      have hnext : (pairUp Tree.node (a :: b :: rest)).length ≤ fuel + 1 := by
        rw [hlen]
        simp only [List.length_cons] at hfuel ⊢
        omega
      rcases ih (by simp [pairUp]) hnext with ⟨t, hloop, hleaves⟩
      exact ⟨t, hloop, hleaves.trans (hflat _)⟩

theorem exists_tree {leaves : List H} (hne : leaves ≠ []) :
    ∃ t, tree leaves = some t ∧ t.leaves = leaves := by
  have hmap : leaves.map Tree.leaf ≠ [] := by
    rw [ne_eq, List.map_eq_nil_iff]
    exact hne
  have hfuel : (leaves.map Tree.leaf).length ≤ leaves.length + 1 := by simp
  rcases rootLoop_tree hmap hfuel with ⟨t, hloop, hleaves⟩
  refine ⟨t, ?_, ?_⟩
  · rw [tree, root, List.length_map]
    exact hloop
  · rw [hleaves, List.flatMap_map]
    exact List.flatMap_singleton' leaves

/-- The pairs that are hashed for the root of a list. -/
def hashedPairs (node : H → H → H) (leaves : List H) : List (H × H) :=
  ((tree leaves).map (Tree.pairs node)).getD []

theorem hashedPairs_of_tree {leaves : List H} {t : Tree H} (h : tree leaves = some t) :
    hashedPairs node leaves = t.pairs node := by
  rw [hashedPairs, h]
  rfl

/-- Lists of any lengths with one root are equal, or their trees clash. -/
theorem leaves_eq_or_clash {xs ys : List H} (h : root node xs = root node ys) :
    xs = ys ∨ ∃ t u, tree xs = some t ∧ tree ys = some u ∧ t.leaves = xs ∧ u.leaves = ys ∧
      Tree.Clash node t u := by
  rw [root_eq_tree, root_eq_tree] at h
  by_cases hxs : xs = []
  · by_cases hys : ys = []
    · exact Or.inl (hxs.trans hys.symm)
    · rcases exists_tree hys with ⟨u, hu, -⟩
      rw [hxs, hu] at h
      cases h
  · rcases exists_tree hxs with ⟨t, ht, htl⟩
    by_cases hys : ys = []
    · rw [hys, ht] at h
      cases h
    · rcases exists_tree hys with ⟨u, hu, hul⟩
      rw [ht, hu] at h
      rcases Tree.leaves_eq_or_clash (Option.some.inj h) with hsame | hclash
      · rw [htl, hul] at hsame
        exact Or.inl hsame
      · exact Or.inr ⟨t, u, ht, hu, htl, hul, hclash⟩

end Lists

/-! ## Sparse trees -/

/-- The hash of an empty subtree of a given height. -/
def emptyHash (node : H → H → H) (emptyLeaf : H) : Nat → H
  | 0 => emptyLeaf
  | n + 1 =>
    let h := emptyHash node emptyLeaf n
    node h h

/-- One level up in a sparse tree.  The nodes come in ascending index order;
{lit}`level` is the whole level and {lit}`consumed` holds the indices already
paired. -/
def sparseLevelLoop (node : H → H → H) (default : H) (level : List (Nat × H)) :
    List Nat → List (Nat × H) → List (Nat × H)
  | _, [] => []
  | consumed, (index, value) :: rest =>
    if index ∈ consumed then sparseLevelLoop node default level consumed rest
    else
      let siblingIndex := index ^^^ 1
      let sibling := ((level.find? fun e => e.1 == siblingIndex).map (·.2)).getD default
      let parent := if index % 2 = 1 then node sibling value else node value sibling
      (index / 2, parent) ::
        sparseLevelLoop node default level (index :: siblingIndex :: consumed) rest

/-- The level above. -/
def sparseLevel (node : H → H → H) (default : H) (level : List (Nat × H)) : List (Nat × H) :=
  sparseLevelLoop node default level [] level

/-- Climb {lit}`n` levels from height {lit}`height`. -/
def sparseClimb (node : H → H → H) (emptyLeaf : H) : Nat → Nat → List (Nat × H) → List (Nat × H)
  | _, 0, level => level
  | height, n + 1, level =>
    sparseClimb node emptyLeaf (height + 1) n
      (sparseLevel node (emptyHash node emptyLeaf height) level)

/-- The root of a sparse tree over entries in ascending key order. -/
def sparseRoot (node : H → H → H) (emptyLeaf : H) (depth : Nat) (entries : List (Nat × H)) : H :=
  if entries.isEmpty then emptyHash node emptyLeaf depth
  else
    (((sparseClimb node emptyLeaf 0 depth entries).find? fun e => e.1 == 0).map (·.2)).getD
      (emptyHash node emptyLeaf depth)

/-! ## The full tree -/

/-- The hash of the subtree of a given height at an index, over all leaves. -/
def nodeAt (node : H → H → H) (leaf : Nat → H) : Nat → Nat → H
  | 0, i => leaf i
  | h + 1, i => node (nodeAt node leaf h (2 * i)) (nodeAt node leaf h (2 * i + 1))

/-- A list stands for a level: it has the right hash at each index it names, and the
hash at every other index is the default. -/
def Represents (level : List (Nat × H)) (f : Nat → H) (default : H) : Prop :=
  (∀ e ∈ level, e.2 = f e.1) ∧ ∀ i, i ∉ level.map Prod.fst → f i = default

/-- What a lookup finds, or the default. -/
theorem Represents.lookup {level : List (Nat × H)} {f : Nat → H} {default : H}
    (h : Represents level f default) (i : Nat) :
    ((level.find? fun e => e.1 == i).map (·.2)).getD default = f i := by
  cases hfind : level.find? fun e => e.1 == i with
  | none =>
    have hnone := List.find?_eq_none.mp hfind
    refine (h.2 i ?_).symm
    intro hmem
    rcases List.mem_map.mp hmem with ⟨e, he, heq⟩
    exact hnone e he (beq_iff_eq.mpr heq)
  | some e =>
    have hkey := List.find?_some hfind
    rw [← beq_iff_eq.mp hkey]
    exact h.1 e (List.mem_of_find?_eq_some hfind)

theorem xor_one_div_two (n : Nat) : (n ^^^ 1) / 2 = n / 2 := by
  rcases Nat.even_or_odd n with h | h
  · rw [Nat.xor_one_of_even h]
    have := Nat.even_iff.mp h
    omega
  · rw [Nat.xor_one_of_odd h]
    have := Nat.odd_iff.mp h
    omega

section Sparse

variable (node : H → H → H)

/-- One level up in the full tree. -/
def parentOf (f : Nat → H) (i : Nat) : H := node (f (2 * i)) (f (2 * i + 1))

/-- A node and its sibling hash to their parent. -/
theorem parent_of_sibling (f : Nat → H) (i : Nat) :
    (if i % 2 = 1 then node (f (i ^^^ 1)) (f i) else node (f i) (f (i ^^^ 1))) =
      parentOf node f (i / 2) := by
  by_cases hodd : i % 2 = 1
  · rw [if_pos hodd, parentOf, Nat.xor_one_of_odd (Nat.odd_iff.mpr hodd)]
    congr 2 <;> omega
  · rw [if_neg hodd, parentOf, Nat.xor_one_of_even (Nat.even_iff.mpr (by omega))]
    congr 2 <;> omega

variable {level : List (Nat × H)}

/-- The loop over a level yields parents, and one for each node that is not already
paired. -/
theorem sparseLevelLoop_spec {default : H} {f : Nat → H} (hlevel : Represents level f default)
    (consumed : List Nat) {rest : List (Nat × H)} (hrest : ∀ e ∈ rest, e ∈ level) :
    (∀ e ∈ sparseLevelLoop node default level consumed rest, e.2 = parentOf node f e.1) ∧
      ∀ x ∈ rest, x.1 ∈ consumed ∨
        x.1 / 2 ∈ (sparseLevelLoop node default level consumed rest).map Prod.fst := by
  induction rest generalizing consumed with
  | nil => simp [sparseLevelLoop]
  | cons x rest ih =>
    rcases x with ⟨index, value⟩
    have htail : ∀ e ∈ rest, e ∈ level := fun e he => hrest e (List.mem_cons_of_mem _ he)
    by_cases hconsumed : index ∈ consumed
    · rcases ih consumed htail with ⟨hvalues, hcovered⟩
      rw [sparseLevelLoop, if_pos hconsumed]
      refine ⟨hvalues, ?_⟩
      intro y hy
      rcases List.mem_cons.mp hy with rfl | hy
      · exact Or.inl hconsumed
      · exact hcovered y hy
    · rcases ih (index :: (index ^^^ 1) :: consumed) htail with ⟨hvalues, hcovered⟩
      have hvalue : value = f index := hlevel.1 (index, value) (hrest _ List.mem_cons_self)
      rw [sparseLevelLoop, if_neg hconsumed]
      refine ⟨?_, ?_⟩
      · intro e he
        rcases List.mem_cons.mp he with rfl | he
        · dsimp only
          rw [hlevel.lookup, hvalue]
          exact parent_of_sibling node f index
        · exact hvalues e he
      · intro y hy
        rw [List.map_cons, List.mem_cons]
        rcases List.mem_cons.mp hy with rfl | hy
        · exact Or.inr (Or.inl rfl)
        · rcases hcovered y hy with hmem | hmem
          · simp only [List.mem_cons] at hmem
            rcases hmem with heq | heq | hmem
            · exact Or.inr (Or.inl (by rw [heq]))
            · exact Or.inr (Or.inl (by rw [heq, xor_one_div_two]))
            · exact Or.inl hmem
          · exact Or.inr (Or.inr hmem)

/-- One level up represents one level up. -/
theorem Represents.sparseLevel {f : Nat → H} {default : H} (h : Represents level f default) :
    Represents (sparseLevel node default level) (parentOf node f) (node default default) := by
  have hself : ∀ e ∈ level, e ∈ level := fun e he => he
  rcases sparseLevelLoop_spec node h [] hself with ⟨hvalues, hcovered⟩
  refine ⟨hvalues, ?_⟩
  intro i hi
  have habsent : ∀ j, j / 2 = i → f j = default := by
    intro j hj
    refine h.2 j fun hmem => ?_
    rcases List.mem_map.mp hmem with ⟨e, he, heq⟩
    rcases hcovered e he with hnil | hparent
    · exact absurd hnil (List.not_mem_nil)
    · rw [heq, hj] at hparent
      exact hi hparent
  rw [parentOf, habsent (2 * i) (by omega), habsent (2 * i + 1) (by omega)]

theorem nodeAt_succ (leaf : Nat → H) (h : Nat) :
    nodeAt node leaf (h + 1) = parentOf node (nodeAt node leaf h) := rfl

variable {emptyLeaf : H} {leaf : Nat → H}

/-- Climbing from a level gives the level it climbs to. -/
theorem Represents.sparseClimb {n height : Nat}
    (h : Represents level (nodeAt node leaf height) (emptyHash node emptyLeaf height)) :
    Represents (sparseClimb node emptyLeaf height n level) (nodeAt node leaf (height + n))
      (emptyHash node emptyLeaf (height + n)) := by
  induction n generalizing height level with
  | zero => exact h
  | succ n ih =>
    have hnext := h.sparseLevel node
    rw [← nodeAt_succ] at hnext
    have hclimb := ih hnext
    rwa [Nat.succ_add, ← Nat.add_succ] at hclimb

theorem nodeAt_of_empty (hleaf : ∀ i, leaf i = emptyLeaf) (height i : Nat) :
    nodeAt node leaf height i = emptyHash node emptyLeaf height := by
  induction height generalizing i with
  | zero => exact hleaf i
  | succ height ih => rw [nodeAt, ih, ih, emptyHash]

/-- The sparse computation gives the root of the full tree. -/
theorem sparseRoot_eq_nodeAt {entries : List (Nat × H)} (h : Represents entries leaf emptyLeaf)
    (depth : Nat) :
    sparseRoot node emptyLeaf depth entries = nodeAt node leaf depth 0 := by
  unfold sparseRoot
  split
  next hempty =>
    rw [List.isEmpty_iff] at hempty
    rw [hempty] at h
    exact (nodeAt_of_empty node (fun i => h.2 i (List.not_mem_nil)) depth 0).symm
  next =>
    have hclimb : Represents (Merkle.sparseClimb node emptyLeaf 0 depth entries)
        (nodeAt node leaf (0 + depth)) (emptyHash node emptyLeaf (0 + depth)) :=
      Represents.sparseClimb node h
    rw [Nat.zero_add] at hclimb
    exact hclimb.lookup 0

/-- The two hashes below a node. -/
def children (leaf : Nat → H) (h i : Nat) : H × H :=
  (nodeAt node leaf h (2 * i), nodeAt node leaf h (2 * i + 1))

/-- Two trees hash different children to the same node, somewhere below a height. -/
def NodeCollision (f g : Nat → H) (height : Nat) : Prop :=
  ∃ h < height, ∃ i, children node f h i ≠ children node g h i ∧
    nodeAt node f (h + 1) i = nodeAt node g (h + 1) i

/-- Two full trees with one root have the same leaves, or two different pairs of
children with the same hash. -/
theorem leaf_eq_or_collision {f g : Nat → H} {height i : Nat}
    (h : nodeAt node f height i = nodeAt node g height i) :
    (∀ k, k / 2 ^ height = i → f k = g k) ∨ NodeCollision node f g height := by
  induction height generalizing i with
  | zero =>
    refine Or.inl ?_
    intro k hk
    rw [pow_zero, Nat.div_one] at hk
    rw [hk]
    exact h
  | succ height ih =>
    have hlift : NodeCollision node f g height → NodeCollision node f g (height + 1) := by
      rintro ⟨j, hj, hcollision⟩
      exact ⟨j, Nat.lt_succ_of_lt hj, hcollision⟩
    by_cases hsame : children node f height i = children node g height i
    · rcases Prod.mk.inj hsame with ⟨hleft, hright⟩
      rcases ih hleft with hleft | hcollision
      · rcases ih hright with hright | hcollision
        · refine Or.inl ?_
          intro k hk
          rw [pow_succ, ← Nat.div_div_eq_div_mul] at hk
          rcases Nat.mod_two_eq_zero_or_one (k / 2 ^ height) with hparity | hparity
          · exact hleft k (by omega)
          · exact hright k (by omega)
        · exact Or.inr (hlift hcollision)
      · exact Or.inr (hlift hcollision)
    · exact Or.inr ⟨height, Nat.lt_succ_self height, i, hsame, h⟩

/-! ## Paths -/

variable (sibling : Nat → H) (key : Nat) (v : H)

/-- Climb from a value along the path of a key; {lit}`sibling h` stands beside the path
at height {lit}`h`. -/
def pathNode : Nat → H
  | 0 => v
  | h + 1 =>
    if key / 2 ^ h % 2 = 1 then node (sibling h) (pathNode h) else node (pathNode h) (sibling h)

/-- The two hashes that a path combines at a height. -/
def pathChildren (h : Nat) : H × H :=
  if key / 2 ^ h % 2 = 1 then (sibling h, pathNode node sibling key v h)
  else (pathNode node sibling key v h, sibling h)

theorem pathNode_succ (h : Nat) :
    pathNode node sibling key v (h + 1) =
      node (pathChildren node sibling key v h).1 (pathChildren node sibling key v h).2 := by
  by_cases hbit : key / 2 ^ h % 2 = 1
  · simp [pathNode, pathChildren, hbit]
  · simp [pathNode, pathChildren, hbit]

variable {sibling key v}

/-- Siblings that are right up to a height give the node at that height. -/
theorem pathNode_of_siblings {n : Nat}
    (hsibling : ∀ h < n, sibling h = nodeAt node leaf h (key / 2 ^ h ^^^ 1)) :
    pathNode node sibling key (leaf key) n = nodeAt node leaf n (key / 2 ^ n) := by
  induction n with
  | zero => simp [pathNode, nodeAt]
  | succ n ih =>
    have hbelow := ih fun h hlt => hsibling h (Nat.lt_succ_of_lt hlt)
    rw [pathNode, hbelow, hsibling n (Nat.lt_succ_self n), parent_of_sibling, nodeAt_succ,
      Nat.div_div_eq_div_mul, pow_succ]

/-- The children of the node above the path of a key, with the node on the path first
or second. -/
theorem children_of_path (leaf : Nat → H) (h : Nat) :
    children node leaf h (key / 2 ^ (h + 1)) =
      if key / 2 ^ h % 2 = 1 then
        (nodeAt node leaf h (key / 2 ^ h ^^^ 1), nodeAt node leaf h (key / 2 ^ h))
      else (nodeAt node leaf h (key / 2 ^ h), nodeAt node leaf h (key / 2 ^ h ^^^ 1)) := by
  have hparent : key / 2 ^ (h + 1) = key / 2 ^ h / 2 := by
    rw [Nat.div_div_eq_div_mul, pow_succ]
  rw [children, hparent]
  by_cases hbit : key / 2 ^ h % 2 = 1
  · rw [if_pos hbit, Nat.xor_one_of_odd (Nat.odd_iff.mpr hbit)]
    congr 2 <;> omega
  · rw [if_neg hbit, Nat.xor_one_of_even (Nat.even_iff.mpr (by omega))]
    congr 2 <;> omega

/-- Whatever siblings a path uses: if it reaches the node of the tree, then it starts at
the leaf of the tree, or it combines other hashes to one of the nodes above that leaf. -/
theorem pathLeaf_eq_or_collision {n : Nat}
    (hroot : pathNode node sibling key v n = nodeAt node leaf n (key / 2 ^ n)) :
    v = leaf key ∨
      ∃ h < n, pathChildren node sibling key v h ≠ children node leaf h (key / 2 ^ (h + 1)) ∧
        pathNode node sibling key v (h + 1) = nodeAt node leaf (h + 1) (key / 2 ^ (h + 1)) := by
  induction n with
  | zero =>
    rw [pow_zero, Nat.div_one] at hroot
    exact Or.inl hroot
  | succ n ih =>
    by_cases hsame : pathChildren node sibling key v n =
        children node leaf n (key / 2 ^ (n + 1))
    · have hbelow : pathNode node sibling key v n = nodeAt node leaf n (key / 2 ^ n) := by
        rw [children_of_path, pathChildren] at hsame
        split at hsame
        · exact (Prod.mk.inj hsame).2
        · exact (Prod.mk.inj hsame).1
      rcases ih hbelow with hleaf | ⟨h, hlt, hcollision⟩
      · exact Or.inl hleaf
      · exact Or.inr ⟨h, Nat.lt_succ_of_lt hlt, hcollision⟩
    · exact Or.inr ⟨n, Nat.lt_succ_self n, hsame, hroot⟩

end Sparse

end Merkle
