import Mathlib.Data.List.Basic
import Mathlib.Data.Set.Basic

/-!
# Items that consume the outputs of earlier items

Items have an identifier, consume outputs and create outputs that carry their identifier.
An item that consumes something cannot be applied twice: what it consumed carries the
identifier of an earlier item, and would have to be created again first.
-/

namespace Provenance

variable {α ι ω : Type} (id : α → ι) (inputs : α → List ω) (origin : ω → ι)

/-- A record of applied items and the outputs they left. -/
structure Recorded (done : List α) (live : Set ω) : Prop where
  created : ∀ o ∈ live, origin o ∈ done.map id
  sources : ∀ a ∈ done, ∀ o ∈ inputs a, origin o ∈ done.map id
  spent : ∀ a ∈ done, ∀ o ∈ inputs a, o ∉ live

namespace Recorded

variable {id inputs origin} {done : List α} {live live' : Set ω} {a : α}

theorem nil : Recorded id inputs origin [] ∅ where
  created := fun _ h => absurd h (Set.notMem_empty _)
  sources := fun _ h => absurd h List.not_mem_nil
  spent := fun _ h => absurd h List.not_mem_nil

/-- An item whose inputs exist is new, unless an item on record has its identifier and
other inputs. -/
theorem fresh (h : Recorded id inputs origin done live) (hinputs : inputs a ≠ [])
    (hlive : ∀ o ∈ inputs a, o ∈ live)
    (hid : ∀ b ∈ done, id b = id a → inputs b = inputs a) : id a ∉ done.map id := by
  intro hmem
  rcases List.mem_map.mp hmem with ⟨b, hb, heq⟩
  rcases List.exists_mem_of_ne_nil _ hinputs with ⟨o, ho⟩
  have hother : o ∈ inputs b := by
    rw [hid b hb heq]
    exact ho
  exact h.spent b hb o hother (hlive o ho)

/-- A new item replaces outputs that exist by outputs that carry its identifier. -/
theorem apply (h : Recorded id inputs origin done live) (hfresh : id a ∉ done.map id)
    (hlive : ∀ o ∈ inputs a, o ∈ live)
    (hafter : ∀ o ∈ live', (o ∈ live ∧ o ∉ inputs a) ∨ origin o = id a) :
    Recorded id inputs origin (done ++ [a]) live' := by
  have hrecord : ∀ i, i ∈ (done ++ [a]).map id ↔ i ∈ done.map id ∨ i = id a := by
    intro i
    rw [List.map_append, List.mem_append, List.map_singleton, List.mem_singleton]
  constructor
  · intro o ho
    rw [hrecord]
    rcases hafter o ho with ⟨hold, -⟩ | hnew
    · exact Or.inl (h.created o hold)
    · exact Or.inr hnew
  · intro b hb o ho
    rw [hrecord]
    rcases List.mem_append.mp hb with hb | hb
    · exact Or.inl (h.sources b hb o ho)
    · rw [List.mem_singleton.mp hb] at ho
      exact Or.inl (h.created o (hlive o ho))
  · intro b hb o ho ho'
    rcases List.mem_append.mp hb with hb | hb
    · rcases hafter o ho' with ⟨hold, -⟩ | hnew
      · exact h.spent b hb o ho hold
      · exact hfresh (hnew ▸ h.sources b hb o ho)
    · rw [List.mem_singleton.mp hb] at ho
      rcases hafter o ho' with ⟨-, hkept⟩ | hnew
      · exact hkept ho
      · exact hfresh (hnew ▸ h.created o (hlive o ho))

/-- Only what is on record matters, not its order. -/
theorem of_mem_iff {done' : List α} (h : Recorded id inputs origin done live)
    (hsame : ∀ a, a ∈ done' ↔ a ∈ done) : Recorded id inputs origin done' live := by
  have hids : ∀ i, i ∈ done'.map id ↔ i ∈ done.map id := by
    intro i
    simp only [List.mem_map, hsame]
  constructor
  · intro o ho
    rw [hids]
    exact h.created o ho
  · intro b hb o ho
    rw [hids]
    exact h.sources b ((hsame b).mp hb) o ho
  · intro b hb
    exact h.spent b ((hsame b).mp hb)

end Recorded

end Provenance
