import Mutiny.Lib.Result

/-!
# Computations that count steps

A fallible computation together with the number of steps it has executed when it
returns or fails.
-/

universe u

/-- A result and what it cost. -/
structure Counted (ε α : Type u) where
  steps : Nat
  result : Except ε α

namespace Counted

variable {ε α β : Type u}

/-- A computation that is no step. -/
def free (x : Except ε α) : Counted ε α := ⟨0, x⟩

/-- A computation that is one step. -/
def step (x : Except ε α) : Counted ε α := ⟨1, x⟩

def bind (x : Counted ε α) (f : α → Counted ε β) : Counted ε β :=
  match x.result with
  | .error e => ⟨x.steps, .error e⟩
  | .ok a => ⟨x.steps + (f a).steps, (f a).result⟩

instance : Monad (Counted ε) where
  pure a := free (.ok a)
  bind := bind

theorem result_pure (a : α) : (pure a : Counted ε α).result = .ok a := rfl

theorem steps_pure (a : α) : (pure a : Counted ε α).steps = 0 := rfl

/-- Without its count a counted computation is the computation. -/
theorem result_bind (x : Counted ε α) (f : α → Counted ε β) :
    (x >>= f).result = x.result >>= fun a => (f a).result := by
  change (Counted.bind x f).result = _
  unfold Counted.bind
  cases x.result with
  | error e => rfl
  | ok a => rfl

variable {x : Counted ε α}

/-- The steps of a sequence. -/
theorem steps_bind_of_ok {a : α} (h : x.result = .ok a) (f : α → Counted ε β) :
    (x >>= f).steps = x.steps + (f a).steps := by
  change (Counted.bind x f).steps = _
  unfold Counted.bind
  rw [h]

/-- A failure ends a sequence. -/
theorem steps_bind_of_error {e : ε} (h : x.result = .error e) (f : α → Counted ε β) :
    (x >>= f).steps = x.steps := by
  change (Counted.bind x f).steps = _
  unfold Counted.bind
  rw [h]

/-- A bound on the steps of a sequence. -/
theorem steps_bind_le {f : α → Counted ε β} {m n : Nat} (hx : x.steps ≤ m)
    (hf : ∀ a, x.result = .ok a → (f a).steps ≤ n) : (x >>= f).steps ≤ m + n := by
  cases h : x.result with
  | error e =>
    rw [steps_bind_of_error h]
    omega
  | ok a =>
    have hrest := hf a h
    rw [steps_bind_of_ok h]
    omega

/-- A free end costs nothing. -/
theorem steps_bind_free (x : Counted ε α) (f : α → Except ε β) :
    (x >>= fun a => free (f a)).steps = x.steps := by
  cases h : x.result with
  | error e => exact steps_bind_of_error h _
  | ok a => exact steps_bind_of_ok h _

/-- A free start costs nothing. -/
theorem steps_free_bind_of_ok {x : Except ε α} {a : α} (h : x = .ok a)
    (f : α → Counted ε β) : (free x >>= f).steps = (f a).steps := by
  rw [steps_bind_of_ok (x := free x) h]
  exact Nat.zero_add _

theorem steps_free_bind_of_error {x : Except ε α} {e : ε} (h : x = .error e)
    (f : α → Counted ε β) : (free x >>= f).steps = 0 :=
  steps_bind_of_error (x := free x) h f

end Counted
