import Mathlib.Algebra.Order.Ring.Nat
import Mathlib.Data.List.Basic

/-!
# Fallible computations

Small vocabulary for code whose functions return a result or an error: an early
return guarded by a condition, an optional value that must be present, and the
inversion rules that take a successful computation apart.
-/

namespace Result

universe u v

variable {ε : Type u} {α β σ : Type v}

/-- Return early with {lit}`e` when {lit}`c` holds. -/
def reject (c : Prop) [Decidable c] (e : ε) : Except ε Unit :=
  if c then .error e else .ok ()

/-- The value of an option, or the error {lit}`e` when there is none. -/
def okOr (o : Option α) (e : ε) : Except ε α :=
  match o with
  | some a => .ok a
  | none => .error e

variable {x : Except ε α} {f : α → Except ε β}

/-- A successful sequence is two successful computations. -/
@[simp]
theorem bind_eq_ok {b : β} :
    (x >>= f) = .ok b ↔ ∃ a, x = .ok a ∧ f a = .ok b := by
  cases x <;> simp [bind, Except.bind]

variable {a : α}

@[simp]
theorem pure_eq_ok {b : α} : (pure a : Except ε α) = .ok b ↔ a = b := by
  simp [pure, Except.pure]

variable {e : ε}

@[simp]
theorem reject_eq_ok {c : Prop} [Decidable c] {u : Unit} :
    reject c e = .ok u ↔ ¬ c := by
  unfold reject
  split <;> simp_all

@[simp]
theorem okOr_eq_ok {o : Option α} :
    okOr o e = .ok a ↔ o = some a := by
  cases o <;> simp [okOr]

theorem reject_of_not {c : Prop} [Decidable c] (h : ¬ c) :
    reject c e = .ok () := by
  simp [h]

theorem reject_of {c : Prop} [Decidable c] (h : c) :
    reject c e = .error e := by
  simp [reject, h]

@[simp]
theorem ok_bind (a : α) (f : α → Except ε β) : (Except.ok a >>= f) = f a :=
  rfl

@[simp]
theorem error_bind (e : ε) (f : α → Except ε β) :
    ((Except.error e : Except ε α) >>= f) = .error e :=
  rfl

/-- A check in front of a value. -/
theorem reject_ok_eq_ok {c : Prop} [Decidable c] {α : Type} {a b : α} :
    (reject c e >>= fun _ => .ok a) = .ok b ↔ ¬c ∧ b = a := by
  unfold reject
  split <;> simp_all [eq_comm, bind, Except.bind]

@[simp]
theorem toOption_eq_some : x.toOption = some a ↔ x = .ok a := by
  cases x <;> simp [Except.toOption]

theorem map_eq_ok {g : α → β} {b : β} : x.map g = .ok b ↔ ∃ a, x = .ok a ∧ g a = b := by
  cases x <;> simp [Except.map]

/-- What is done with the value of a sequence is done with that of its second part. -/
theorem exceptMap_bind {γ : Type v} (g : β → γ) :
    (x >>= f).map g = x >>= fun a => (f a).map g := by
  cases x <;> rfl

theorem bind_exceptMap {γ : Type v} (g : γ → α) (y : Except ε γ) :
    (y.map g >>= f) = y >>= fun c => f (g c) := by
  cases y <;> rfl

@[simp]
theorem mapError_eq_ok {ε' : Type u} {f : ε → ε'} :
    x.mapError f = .ok a ↔ x = .ok a := by
  cases x <;> simp [Except.mapError]

/-- The rules that take a successful computation apart, as one set. -/
theorem ok_rules :
    (∀ {ε α β : Type} {x : Except ε α} {f : α → Except ε β} {b : β},
      (x >>= f) = .ok b ↔ ∃ a, x = .ok a ∧ f a = .ok b) ∧
    (∀ {ε : Type} {c : Prop} [Decidable c] {e : ε} {u : Unit}, reject c e = .ok u ↔ ¬c) ∧
    (∀ {ε α : Type} {o : Option α} {e : ε} {a : α}, okOr o e = .ok a ↔ o = some a) ∧
    (∀ {ε ε' α : Type} {x : Except ε α} {f : ε → ε'} {a : α},
      x.mapError f = .ok a ↔ x = .ok a) ∧
    ∀ {ε α : Type} {a b : α}, (Except.ok a : Except ε α) = .ok b ↔ a = b :=
  ⟨bind_eq_ok, reject_eq_ok, okOr_eq_ok, mapError_eq_ok, by simp⟩

variable {xs : List α}

/-- A loop that maps each element on its own succeeds exactly when every element
passes. -/
theorem mapM_eq_ok {P : α → Prop} {g : α → β} (hf : ∀ a b, f a = .ok b ↔ P a ∧ b = g a)
    {ys : List β} :
    xs.mapM f = .ok ys ↔ (∀ x ∈ xs, P x) ∧ ys = xs.map g := by
  induction xs generalizing ys with
  | nil =>
    rw [List.mapM_nil, pure_eq_ok, eq_comm]
    simp
  | cons x xs ih =>
    rw [List.mapM_cons, bind_eq_ok]
    simp only [bind_eq_ok, pure_eq_ok, hf, ih, List.forall_mem_cons, List.map_cons]
    constructor
    · rintro ⟨_, ⟨hx, rfl⟩, _, ⟨hxs, rfl⟩, rfl⟩
      exact ⟨⟨hx, hxs⟩, rfl⟩
    · rintro ⟨⟨hx, hxs⟩, rfl⟩
      exact ⟨_, ⟨hx, rfl⟩, _, ⟨hxs, rfl⟩, rfl⟩

/-- What a loop of fallible steps returns, steps that agree with them where they succeed return
too. -/
theorem mapM_eq_some_of_ok {g : α → Option β} (hfg : ∀ a b, f a = .ok b → g a = some b)
    {ys : List β} (h : xs.mapM f = .ok ys) : xs.mapM g = some ys := by
  induction xs generalizing ys with
  | nil =>
    rw [List.mapM_nil, pure_eq_ok] at h
    rw [List.mapM_nil, ← h]
    rfl
  | cons x xs ih =>
    rw [List.mapM_cons] at h
    simp only [bind_eq_ok, pure_eq_ok] at h
    rcases h with ⟨y, hy, ys, hys, rfl⟩
    rw [List.mapM_cons, hfg x y hy, ih hys]
    rfl

/-- A traversal succeeds exactly when every element passes. -/
theorem forM_eq_ok {f : α → Except ε PUnit} {u : PUnit} :
    xs.forM f = .ok u ↔ ∀ x ∈ xs, f x = .ok ⟨⟩ := by
  induction xs with
  | nil => simp [List.forM, pure, Except.pure]
  | cons x xs ih =>
    change (f x >>= fun _ => xs.forM f) = _ ↔ _
    rw [bind_eq_ok]
    simp only [List.forall_mem_cons]
    constructor
    · rintro ⟨⟨⟩, hx, hxs⟩
      exact ⟨hx, ih.mp hxs⟩
    · rintro ⟨hx, hxs⟩
      exact ⟨⟨⟩, hx, ih.mpr hxs⟩

/-- A loop over states {lit}`m seen b` that refuses a key it has seen, checks each
element and otherwise does what {lit}`g` does, succeeds exactly when the keys are
new, the elements pass and the other loop succeeds. -/
theorem foldlM_distinct {κ : Type v} (m : List κ → β → σ) {key : α → κ} {P : α → Prop}
    {f : σ → α → Except ε σ} {g : β → α → Except ε β} (hf : ∀ seen b a r, f (m seen b) a = .ok r ↔
      key a ∉ seen ∧ P a ∧ ∃ b', g b a = .ok b' ∧ r = m (key a :: seen) b') {seen : List κ} {b : β}
    {r : σ} :
    xs.foldlM f (m seen b) = .ok r ↔
      (xs.map key).Nodup ∧ (∀ x ∈ xs, key x ∉ seen) ∧ (∀ x ∈ xs, P x) ∧
        ∃ b', xs.foldlM g b = .ok b' ∧ r = m ((xs.map key).reverse ++ seen) b' := by
  induction xs generalizing seen b r with
  | nil =>
    rw [List.foldlM_nil, pure_eq_ok, eq_comm]
    simp
  | cons x xs ih =>
    rw [List.foldlM_cons, bind_eq_ok]
    simp only [hf, List.map_cons, List.nodup_cons, List.forall_mem_cons, List.foldlM_cons,
      bind_eq_ok, List.reverse_cons, List.append_assoc, List.singleton_append]
    constructor
    · rintro ⟨_, ⟨hnew, hx, b₁, hb₁, rfl⟩, hrest⟩
      rcases ih.mp hrest with ⟨hdistinct, hfresh, hxs, b', hb', rfl⟩
      refine ⟨⟨?_, hdistinct⟩, ⟨hnew, ?_⟩, ⟨hx, hxs⟩, b', ⟨b₁, hb₁, hb'⟩, rfl⟩
      · intro hmem
        rcases List.mem_map.mp hmem with ⟨y, hy, heq⟩
        exact hfresh y hy (heq ▸ List.mem_cons_self)
      · intro y hy hmem
        exact hfresh y hy (List.mem_cons_of_mem _ hmem)
    · rintro ⟨⟨hdiffers, hdistinct⟩, ⟨hnew, hfresh⟩, ⟨hx, hxs⟩, b', ⟨b₁, hb₁, hb'⟩, rfl⟩
      refine ⟨_, ⟨hnew, hx, b₁, hb₁, rfl⟩, ih.mpr ⟨hdistinct, ?_, hxs, b', hb', rfl⟩⟩
      intro y hy hmem
      rcases List.mem_cons.mp hmem with heq | hmem
      · exact hdiffers (heq ▸ List.mem_map_of_mem hy)
      · exact hfresh y hy hmem

/-- The same for a loop that keeps nothing but the keys. -/
theorem foldlM_keys {κ : Type v} {key : α → κ} {P : α → Prop} {f : List κ → α → Except ε (List κ)}
    (hf : ∀ seen a r, f seen a = .ok r ↔ key a ∉ seen ∧ P a ∧ r = key a :: seen) {seen r : List κ} :
    xs.foldlM f seen = .ok r ↔
      (xs.map key).Nodup ∧ (∀ x ∈ xs, key x ∉ seen) ∧ (∀ x ∈ xs, P x) ∧
        r = (xs.map key).reverse ++ seen := by
  have hskip : ∀ (xs : List α) (b : PUnit.{v + 1}),
      xs.foldlM (fun b _ => (.ok b : Except ε PUnit)) b = .ok b := by
    intro xs b
    induction xs with
    | nil => rfl
    | cons x xs ih => exact ih
  have h : xs.foldlM f seen = .ok r ↔
      (xs.map key).Nodup ∧ (∀ x ∈ xs, key x ∉ seen) ∧ (∀ x ∈ xs, P x) ∧
        ∃ b', xs.foldlM (fun b _ => .ok b) (⟨⟩ : PUnit.{v + 1}) = (.ok b' : Except ε PUnit) ∧
          r = (xs.map key).reverse ++ seen :=
    foldlM_distinct (fun seen (_ : PUnit.{v + 1}) => seen) (by simpa using hf)
  simpa [hskip] using h

/-- Whether a computation succeeds with a value that passes a test. -/
def okAnd (x : Except ε α) (p : α → Bool) : Bool :=
  match x with
  | .ok a => p a
  | .error _ => false

theorem exists_of_okAnd {p : α → Bool} (h : okAnd x p = true) :
    ∃ a, x = .ok a ∧ p a = true := by
  cases x with
  | error e => cases h
  | ok a => exact ⟨a, rfl, h⟩

end Result
