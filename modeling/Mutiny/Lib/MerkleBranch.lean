import Mathlib.Data.List.Induction
import Mathlib.Data.Nat.Log
import Mutiny.Lib.Merkle

/-!
# Branches into a Merkle tree

The list tree that pads an odd level by hashing its last node with itself, and the
walk from a value up to a root along given siblings.  Neither the number of siblings
nor their sides are tied to the tree, and leaves are not told from inner nodes: a walk
that ends at the root of a tree need not start at a leaf.
-/

namespace Merkle

variable {H G : Type}

/-! ## Padding with duplicates -/

/-- One level up: hash neighbours together, and an odd last node with itself. -/
def pairUpDup (node : H → H → H) : List H → List H
  | a :: b :: rest => node a b :: pairUpDup node rest
  | [a] => [node a a]
  | [] => []

/-- Go up until one node is left. -/
def rootDupLoop (node : H → H → H) : Nat → List H → Option H
  | _, [] => none
  | _, [a] => some a
  | 0, _ => none
  | fuel + 1, level => rootDupLoop node fuel (pairUpDup node level)

def rootDup (node : H → H → H) (leaves : List H) : Option H :=
  rootDupLoop node leaves.length leaves

theorem pairUpDup_map {node : H → H → H} {node' : G → G → G} {f : G → H}
    (hf : ∀ a b, f (node' a b) = node (f a) (f b)) (level : List G) :
    pairUpDup node (level.map f) = (pairUpDup node' level).map f := by
  induction level using pairUpDup.induct with
  | case1 a b rest ih => simp [pairUpDup, ih, hf]
  | case2 a => simp [pairUpDup, hf]
  | case3 => rfl

/-- A map that respects the nodes respects the roots. -/
theorem rootDup_map {node : H → H → H} {node' : G → G → G} {f : G → H}
    (hf : ∀ a b, f (node' a b) = node (f a) (f b)) (leaves : List G) :
    rootDup node (leaves.map f) = (rootDup node' leaves).map f := by
  have hloop (fuel : Nat) (level : List G) :
      rootDupLoop node fuel (level.map f) = (rootDupLoop node' fuel level).map f := by
    induction fuel generalizing level with
    | zero =>
      rcases level with _ | ⟨a, _ | ⟨b, rest⟩⟩
      · rfl
      · rfl
      · rfl
    | succ fuel ih =>
      rcases level with _ | ⟨a, _ | ⟨b, rest⟩⟩
      · rfl
      · rfl
      · have hstep := ih (pairUpDup node' (a :: b :: rest))
        rw [← pairUpDup_map hf] at hstep
        exact hstep
  rw [rootDup, rootDup, List.length_map, hloop]

/-- The tree the padded root of a list is computed along. -/
def treeDup (leaves : List H) : Option (Tree H) := rootDup Tree.node (leaves.map Tree.leaf)

theorem length_pairUpDup (node : G → G → G) (level : List G) :
    (pairUpDup node level).length = (level.length + 1) / 2 := by
  induction level using pairUpDup.induct with
  | case1 a b rest ih =>
    simp only [pairUpDup, List.length_cons, ih]
    omega
  | case2 a => simp [pairUpDup]
  | case3 => simp [pairUpDup]

theorem forall_pairUpDup {node : G → G → G} {P Q : G → Prop}
    (hnode : ∀ a b, P a → P b → Q (node a b)) {level : List G} (h : ∀ a ∈ level, P a) :
    ∀ u ∈ pairUpDup node level, Q u := by
  induction level using pairUpDup.induct with
  | case1 a b rest ih =>
    simp only [List.forall_mem_cons] at h
    simp only [pairUpDup, List.forall_mem_cons]
    exact ⟨hnode a b h.1 h.2.1, ih h.2.2⟩
  | case2 a =>
    have ha := h a (List.mem_singleton_self a)
    simpa [pairUpDup] using hnode a a ha ha
  | case3 => simp [pairUpDup]

/-- What holds of the leaves at height zero, and of a node one above its children, holds of the
root at the height of the tree. -/
theorem of_rootDupLoop {node : G → G → G} {P : Nat → G → Prop}
    (hnode : ∀ d a b, P d a → P d b → P (d + 1) (node a b)) {fuel d : Nat} {level : List G} {u : G}
    (hlevel : ∀ a ∈ level, P d a) (h : rootDupLoop node fuel level = some u) :
    P (d + Nat.clog 2 level.length) u := by
  induction fuel generalizing d level with
  | zero =>
    rcases level with _ | ⟨a, _ | ⟨b, rest⟩⟩
    · cases h
    · cases h
      simpa using hlevel
    · cases h
  | succ fuel ih =>
    rcases level with _ | ⟨a, _ | ⟨b, rest⟩⟩
    · cases h
    · cases h
      simpa using hlevel
    · have hroot := ih (forall_pairUpDup (hnode d) hlevel) h
      rw [length_pairUpDup] at hroot
      rw [Nat.clog_of_two_le (by omega) (by simp)]
      have hheight : ∀ n, d + 1 + n = d + (n + 1) := by omega
      rwa [hheight] at hroot

/-- The number of steps to the nearest leaf. -/
def Tree.shallow : Tree H → Nat
  | leaf _ => 0
  | .node left right => min (shallow left) (shallow right) + 1

/-- The root of a list is the hash of a tree, whose leaves are elements of the list and all as
deep as a tree over so many leaves is. -/
theorem exists_treeDup {node : H → H → H} {leaves : List H} {r : H}
    (h : rootDup node leaves = some r) :
    ∃ t, treeDup leaves = some t ∧ t.hash node = r ∧ t.leaves ⊆ leaves ∧
      Nat.clog 2 leaves.length ≤ t.shallow := by
  have hmap : rootDup node ((leaves.map Tree.leaf).map (Tree.hash node)) =
      (treeDup leaves).map (Tree.hash node) := rootDup_map (fun _ _ => rfl) _
  have hid : leaves.map (Tree.hash node ∘ Tree.leaf) = leaves := List.map_id leaves
  rw [List.map_map, hid, h, eq_comm, Option.map_eq_some_iff] at hmap
  rcases hmap with ⟨t, ht, hash⟩
  have hroot := of_rootDupLoop (P := fun d u => u.leaves ⊆ leaves ∧ d ≤ u.shallow) (d := 0)
    ?_ ?_ ht
  · rw [List.length_map, Nat.zero_add] at hroot
    exact ⟨t, ht, hash, hroot⟩
  · intro d a b ha hb
    refine ⟨List.append_subset.mpr ⟨ha.1, hb.1⟩, ?_⟩
    simp only [Tree.shallow]
    omega
  · simp [Tree.leaves]

/-! ## Walks -/

variable (node : H → H → H)

/-- The two hashes a step combines: the sibling stands on the left or on the right. -/
def stepPair (v : H) (step : Bool × H) : H × H :=
  if step.1 then (step.2, v) else (v, step.2)

/-- One step up from a value. -/
def stepUp (v : H) (step : Bool × H) : H := node (stepPair v step).1 (stepPair v step).2

/-- Climb from a value along siblings, the lowest first. -/
def walk (v : H) (steps : List (Bool × H)) : H := steps.foldl (stepUp node) v

/-- The pairs that a walk combines. -/
def walkPairs : H → List (Bool × H) → List (H × H)
  | _, [] => []
  | v, step :: rest => stepPair v step :: walkPairs (stepUp node v step) rest

theorem walk_concat (v : H) (steps : List (Bool × H)) (step : Bool × H) :
    walk node v (steps ++ [step]) = stepUp node (walk node v steps) step := by
  rw [walk, List.foldl_append]
  rfl

theorem walkPairs_concat (v : H) (steps : List (Bool × H)) (step : Bool × H) :
    walkPairs node v (steps ++ [step]) =
      walkPairs node v steps ++ [stepPair (walk node v steps) step] := by
  induction steps generalizing v with
  | nil => rfl
  | cons first rest ih =>
    rw [List.cons_append, walkPairs, walkPairs, ih]
    rfl

/-- What a walk that ends at the root of a tree has come from. -/
inductive WalkFrom (t : Tree H) (v : H) (steps : List (Bool × H)) : Prop
  /-- It starts at a leaf. -/
  | leaf (hv : v ∈ t.leaves)
  /-- It starts at an inner node. -/
  | inner {q : H × H} (hq : q ∈ t.pairs node) (hv : v = node q.1 q.2)
  /-- It passes through a leaf, as if that were an inner node, and is longer than the way to it. -/
  | through {p : H × H} (hp : p ∈ walkPairs node v steps) (hx : node p.1 p.2 ∈ t.leaves)
      (hlong : t.shallow < steps.length)
  /-- It combines other hashes to the same node. -/
  | collision {p q : H × H} (hp : p ∈ walkPairs node v steps) (hq : q ∈ t.pairs node)
      (hne : p ≠ q) (hsame : node p.1 p.2 = node q.1 q.2)

theorem WalkFrom.concat {node : H → H → H} {t u : Tree H} {v : H} {steps : List (Bool × H)}
    {step : Bool × H} (h : WalkFrom node u v steps) (hleaves : u.leaves ⊆ t.leaves)
    (hpairs : u.pairs node ⊆ t.pairs node) (hdepth : t.shallow ≤ u.shallow + 1) :
    WalkFrom node t v (steps ++ [step]) := by
  have hwalk : walkPairs node v steps ⊆ walkPairs node v (steps ++ [step]) := by
    rw [walkPairs_concat]
    exact List.subset_append_left _ _
  cases h with
  | leaf hv => exact .leaf (hleaves hv)
  | inner hq hv => exact .inner (hpairs hq) hv
  | through hp hx hlong =>
    refine .through (hwalk hp) (hleaves hx) ?_
    rw [List.length_append, List.length_singleton]
    omega
  | collision hp hq hne hsame => exact .collision (hwalk hp) (hpairs hq) hne hsame

/-- Peel the walk from the top: its last pair is the pair below the root of the tree, or
one of the other cases has happened. -/
theorem walk_from {node : H → H → H} {t : Tree H} {v : H} {steps : List (Bool × H)}
    (h : walk node v steps = t.hash node) : WalkFrom node t v steps := by
  induction steps using List.reverseRecOn generalizing t with
  | nil =>
    cases t with
    | leaf x => exact .leaf (List.mem_singleton.mpr h)
    | node left right => exact .inner List.mem_cons_self h
  | append_singleton steps step ih =>
    have htop : stepPair (walk node v steps) step ∈ walkPairs node v (steps ++ [step]) := by
      rw [walkPairs_concat]
      exact List.mem_append_right _ (List.mem_singleton_self _)
    rw [walk_concat] at h
    cases t with
    | leaf x => exact .through htop (List.mem_singleton.mpr h) (by simp [Tree.shallow])
    | node left right =>
      by_cases hsame : stepPair (walk node v steps) step =
          (left.hash node, right.hash node)
      · unfold stepPair at hsame
        split at hsame
        · exact (ih (Prod.mk.inj hsame).2).concat (by simp [Tree.leaves])
            (by simp [Tree.pairs]) (by simp [Tree.shallow])
        · exact (ih (Prod.mk.inj hsame).1).concat (by simp [Tree.leaves])
            (by simp [Tree.pairs]) (by simp [Tree.shallow])
      · exact .collision htop List.mem_cons_self hsame h

end Merkle
