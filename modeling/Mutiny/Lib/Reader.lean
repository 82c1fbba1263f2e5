import Mathlib.Data.List.Forall2
import Mutiny.Lib.Bytes
import Mutiny.Lib.Result

/-!
# Readers of byte strings

A reader consumes a prefix of its input and returns a value with the rest, or an
error.  Readers are sequenced, and a reader that inverts an encoding is described
by what it does in front of any further bytes.
-/

/-- A computation that reads a prefix of the input. -/
def Reader (ε α : Type) := Bytes → Except ε (α × Bytes)

namespace Reader

variable {ε α β : Type}

instance : Monad (Reader ε) where
  pure a := fun bs => .ok (a, bs)
  bind r f := fun bs =>
    match r bs with
    | .ok (a, rest) => f a rest
    | .error e => .error e

/-- Fail without reading. -/
def fail (e : ε) : Reader ε α := fun _ => .error e

/-- Fail when a condition on what has been read holds. -/
def rejectIf (c : Prop) [Decidable c] (e : ε) : Reader ε Unit :=
  if c then fail e else pure ()

/-- The next {lit}`n` bytes. -/
def take (e : ε) (n : Nat) : Reader ε Bytes := fun bs =>
  if bs.length < n then .error e else .ok (bs.take n, bs.drop n)

/-- Run a reader {lit}`n` times. -/
def replicateM (r : Reader ε α) : Nat → Reader ε (List α)
  | 0 => pure []
  | n + 1 => do
    let a ← r
    let as ← replicateM r n
    pure (a :: as)

/-- Change the error of a reader. -/
def mapError {ε' : Type} (f : ε → ε') (r : Reader ε α) : Reader ε' α := fun bs =>
  match r bs with
  | .ok result => .ok result
  | .error e => .error (f e)

/-- The reader turns exactly these bytes into this value, whatever follows them. -/
def Reads (r : Reader ε α) (bs : Bytes) (a : α) : Prop :=
  ∀ rest, r (bs ++ rest) = .ok (a, rest)

theorem reads_pure (a : α) : Reads (pure a : Reader ε α) [] a := fun _ => rfl

variable {r : Reader ε α} {bs : Bytes} {f : α → Reader ε β}

/-- Encodings laid end to end are read one after the other. -/
theorem Reads.bind {cs : Bytes} {a : α} {b : β} (hr : Reads r bs a) (hf : Reads (f a) cs b) :
    Reads (r >>= f) (bs ++ cs) b := by
  intro rest
  have hfirst := hr (cs ++ rest)
  change (match r (bs ++ cs ++ rest) with
    | .ok (a, rest) => f a rest
    | .error e => .error e) = _
  rw [List.append_assoc, hfirst]
  exact hf rest

theorem Reads.map_last {a : α} {b : β} (hr : Reads r bs a) (hf : Reads (f a) [] b) :
    Reads (r >>= f) bs b := by
  have h := hr.bind hf
  rwa [List.append_nil] at h

variable {e : ε}

theorem reads_rejectIf {c : Prop} [Decidable c] (h : ¬ c) :
    Reads (rejectIf c e) [] () := by
  intro rest
  simp only [rejectIf, h, if_false]
  rfl

variable {n : Nat}

theorem reads_take (h : bs.length = n) :
    Reads (take e n) bs bs := by
  intro rest
  simp [take, h, List.take_left', List.drop_left']

variable {g : Bytes → α}

/-- Reading a fixed number of bytes and converting them. -/
theorem reads_take_map (h : bs.length = n) :
    Reads (take e n >>= fun b => pure (g b)) bs (g bs) := by
  have htake : Reads (take e n) bs bs := reads_take h
  exact htake.map_last (reads_pure (g bs))

theorem Reads.mapError {ε' : Type} {f : ε → ε'} {a : α} (hr : Reads r bs a) :
    Reads (Reader.mapError f r) bs a := by
  intro rest
  simp [Reader.mapError, hr rest]

variable {enc : α → Bytes}

/-- A list whose elements are read back is read back when its length is known. -/
theorem Reads.replicateM :
    ∀ {as : List α}, (∀ a ∈ as, Reads r (enc a) a) →
      Reads (Reader.replicateM r as.length) (as.flatMap enc) as
  | [], _ => reads_pure []
  | a :: as, h => by
      have hhead := h a List.mem_cons_self
      have htail := Reads.replicateM fun b hb => h b (List.mem_cons_of_mem a hb)
      rw [List.flatMap_cons]
      exact hhead.bind (htail.map_last (reads_pure _))

/-! ## What an accepted input was -/

theorem run_bind_eq_ok {x : β × Bytes} :
    (r >>= f) bs = .ok x ↔ ∃ a mid, r bs = .ok (a, mid) ∧ f a mid = .ok x := by
  change (match r bs with
    | .ok (a, rest) => f a rest
    | .error e => .error e) = _ ↔ _
  cases h : r bs with
  | error e => simp
  | ok result =>
    constructor
    · intro hf
      exact ⟨result.1, result.2, rfl, hf⟩
    · rintro ⟨a, mid, hr, hf⟩
      cases hr
      exact hf

variable {rest : Bytes}

theorem run_pure_eq_ok {a b : α} :
    (pure a : Reader ε α) bs = .ok (b, rest) ↔ a = b ∧ bs = rest := by
  change Except.ok (a, bs) = _ ↔ _
  rw [Except.ok.injEq, Prod.mk.injEq]

theorem run_rejectIf_eq_ok {c : Prop} [Decidable c] {u : Unit} :
    rejectIf c e bs = .ok (u, rest) ↔ ¬ c ∧ bs = rest := by
  by_cases h : c
  · simp [rejectIf, fail, h]
  · simp [rejectIf, h, run_pure_eq_ok]

theorem run_take_eq_ok {taken : Bytes} :
    take e n bs = .ok (taken, rest) ↔ taken.length = n ∧ bs = taken ++ rest := by
  constructor
  · intro h
    unfold take at h
    split at h
    · cases h
    · cases h
      exact ⟨List.length_take_of_le (by omega), (List.take_append_drop n bs).symm⟩
  · rintro ⟨hlen, rfl⟩
    exact reads_take hlen rest

theorem run_mapError_eq_ok {ε' : Type} {f : ε → ε'} {x : α × Bytes} :
    Reader.mapError f r bs = .ok x ↔ r bs = .ok x := by
  unfold Reader.mapError
  cases r bs <;> simp

/-- The reader accepts nothing but encodings: what it consumed is the encoding of the
value it returned. -/
def Canonical (r : Reader ε α) (enc : α → Bytes) : Prop :=
  ∀ ⦃bs : Bytes⦄ ⦃a : α⦄ ⦃rest : Bytes⦄, r bs = .ok (a, rest) → bs = enc a ++ rest

theorem Canonical.mapError {ε' : Type} {f : ε → ε'} (hr : Canonical r enc) :
    Canonical (Reader.mapError f r) enc :=
  fun _ _ _ h => hr (run_mapError_eq_ok.mp h)

/-- A fixed number of bytes, converted by a function with a left inverse on that width. -/
theorem canonical_take_map (henc : ∀ bs : Bytes, bs.length = n → enc (g bs) = bs) :
    Canonical (Reader.take e n >>= fun b => pure (g b)) enc := by
  intro bs a rest h
  simp only [run_bind_eq_ok, run_take_eq_ok, run_pure_eq_ok] at h
  rcases h with ⟨taken, mid, ⟨hlen, rfl⟩, rfl, rfl⟩
  rw [henc taken hlen]

variable {as : List α}

theorem length_of_replicateM (h : Reader.replicateM r n bs = .ok (as, rest)) : as.length = n := by
  induction n generalizing bs as with
  | zero =>
    rcases run_pure_eq_ok.mp h with ⟨rfl, rfl⟩
    rfl
  | succ n ih =>
    simp only [Reader.replicateM, run_bind_eq_ok, run_pure_eq_ok] at h
    rcases h with ⟨a, mid, ha, tail, mid', htail, rfl, rfl⟩
    rw [List.length_cons, ih htail]

/-- Repeated, a canonical reader returns as many values as it was asked for and has
consumed their encodings. -/
theorem Canonical.replicateM (hr : Canonical r enc) (h : Reader.replicateM r n bs = .ok (as, rest))
    :
    bs = as.flatMap enc ++ rest ∧ as.length = n := by
  refine ⟨?_, length_of_replicateM h⟩
  induction n generalizing bs as with
  | zero =>
    rcases run_pure_eq_ok.mp h with ⟨rfl, rfl⟩
    rfl
  | succ n ih =>
    simp only [Reader.replicateM, run_bind_eq_ok, run_pure_eq_ok] at h
    rcases h with ⟨a, mid, ha, tail, mid', htail, rfl, rfl⟩
    rw [hr ha, ih htail, List.flatMap_cons, List.append_assoc]

/-- What holds of every value a reader returns holds of the values it returns in turn. -/
theorem forall_mem_of_replicateM {P : α → Prop} (hr : ∀ ⦃bs a rest⦄, r bs = .ok (a, rest) → P a)
    (h : Reader.replicateM r n bs = .ok (as, rest)) : ∀ a ∈ as, P a := by
  induction n generalizing bs as with
  | zero =>
    rcases run_pure_eq_ok.mp h with ⟨rfl, rfl⟩
    simp
  | succ n ih =>
    simp only [Reader.replicateM, run_bind_eq_ok, run_pure_eq_ok] at h
    rcases h with ⟨a, mid, ha, tail, mid', htail, rfl, rfl⟩
    exact List.forall_mem_cons.mpr ⟨hr ha, ih htail⟩

/-- What the reader consumes for each value, and that it accepts nothing else. -/
def Consumes (r : Reader ε α) (R : α → Bytes → Prop) : Prop :=
  ∀ ⦃bs : Bytes⦄ ⦃a : α⦄ ⦃rest : Bytes⦄,
    r bs = .ok (a, rest) ↔ ∃ used, R a used ∧ bs = used ++ rest

/-- Repeated, a reader consumes as many pieces, end to end. -/
theorem Consumes.replicateM {R : α → Bytes → Prop} (h : Consumes r R) (n : Nat) :
    Consumes (Reader.replicateM r n) fun as used =>
      as.length = n ∧ ∃ pieces, List.Forall₂ R as pieces ∧ used = pieces.flatten := by
  induction n with
  | zero =>
    intro bs as rest
    rw [Reader.replicateM, run_pure_eq_ok]
    constructor
    · rintro ⟨rfl, rfl⟩
      exact ⟨[], ⟨rfl, [], .nil, rfl⟩, rfl⟩
    · rintro ⟨used, ⟨hlength, pieces, hpieces, rfl⟩, rfl⟩
      rw [List.length_eq_zero_iff] at hlength
      subst hlength
      cases hpieces
      exact ⟨rfl, rfl⟩
  | succ n ih =>
    intro bs as rest
    simp only [Reader.replicateM, run_bind_eq_ok, run_pure_eq_ok]
    constructor
    · rintro ⟨a, mid, ha, tail, mid', htail, rfl, rfl⟩
      rcases h.mp ha with ⟨piece, hpiece, rfl⟩
      rcases ih.mp htail with ⟨used, ⟨hlength, pieces, hpieces, rfl⟩, rfl⟩
      exact ⟨piece ++ pieces.flatten, ⟨by rw [List.length_cons, hlength], piece :: pieces,
        .cons hpiece hpieces, rfl⟩, (List.append_assoc ..).symm⟩
    · rintro ⟨used, ⟨hlength, pieces, hpieces, rfl⟩, rfl⟩
      cases hpieces with
      | nil => cases hlength
      | cons hpiece hpieces =>
        rename_i a piece as pieces
        rw [List.flatten_cons, List.append_assoc]
        exact ⟨a, _, h.mpr ⟨piece, hpiece, rfl⟩, as, rest,
          ih.mpr ⟨_, ⟨Nat.succ.inj hlength, pieces, hpieces, rfl⟩, rfl⟩, rfl, rfl⟩

/-- The same for a reader of encodings. -/
theorem Consumes.replicateM_enc {P : α → Prop} (h : Consumes r fun a used => P a ∧ used = enc a)
    (n : Nat) :
    Consumes (Reader.replicateM r n) fun as used =>
      as.length = n ∧ (∀ a ∈ as, P a) ∧ used = as.flatMap enc := by
  have hpieces (as : List α) (pieces : List Bytes) :
      List.Forall₂ (fun a used => P a ∧ used = enc a) as pieces ↔
        (∀ a ∈ as, P a) ∧ pieces = as.map enc := by
    constructor
    · intro hall
      induction hall with
      | nil => simp
      | cons ha _ ih =>
        rcases ih with ⟨htail, rfl⟩
        exact ⟨List.forall_mem_cons.mpr ⟨ha.1, htail⟩, by rw [List.map_cons, ha.2]⟩
    · rintro ⟨hall, rfl⟩
      rw [List.forall₂_map_right_iff, List.forall₂_same]
      exact fun a ha => ⟨hall a ha, rfl⟩
  intro bs as rest
  rw [h.replicateM n]
  simp only [hpieces]
  constructor
  · rintro ⟨_, ⟨hlength, _, ⟨hall, rfl⟩, rfl⟩, rfl⟩
    exact ⟨_, ⟨hlength, hall, List.flatMap_def.symm⟩, rfl⟩
  · rintro ⟨_, ⟨hlength, hall, rfl⟩, rfl⟩
    exact ⟨_, ⟨hlength, _, ⟨hall, rfl⟩, List.flatMap_def⟩, rfl⟩

/-- Fields of one width, converted by a function with an inverse. -/
theorem replicateM_take_eq_ok {k : Nat} (henc : ∀ bs : Bytes, bs.length = n → enc (g bs) = bs)
    (hdec : ∀ a, g (enc a) = a) (hlength : ∀ a, (enc a).length = n) :
    (∃ xs, Reader.replicateM (take e n) k bs = .ok (xs, rest) ∧ xs.map g = as) ↔
      as.length = k ∧ bs = as.flatMap enc ++ rest := by
  have htake : Consumes (take e n) fun a used => a.length = n ∧ used = id a := by
    intro bs a rest
    rw [run_take_eq_ok]
    simp
  constructor
  · rintro ⟨xs, hxs, rfl⟩
    rcases (htake.replicateM_enc k).mp hxs with ⟨_, ⟨hcount, hall, rfl⟩, rfl⟩
    refine ⟨by simpa using hcount, ?_⟩
    have hback : xs.flatMap (fun x => enc (g x)) = xs.flatMap id :=
      List.flatMap_congr fun x hx => henc x (hall x hx)
    rw [List.flatMap_map, hback]
  · rintro ⟨hcount, rfl⟩
    have hall : ∀ x ∈ as.map enc, x.length = n := by
      intro x hx
      rcases List.mem_map.mp hx with ⟨a, -, rfl⟩
      exact hlength a
    refine ⟨as.map enc, (htake.replicateM_enc k).mpr
      ⟨_, ⟨by simpa using hcount, hall, rfl⟩, ?_⟩, ?_⟩
    · rw [List.flatMap_map]
      rfl
    · simp [Function.comp_def, hdec]

end Reader
