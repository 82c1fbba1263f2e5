import Mathlib.Data.List.Nodup
import Mutiny.Lib.Machine

/-!
# Concurrent runs over a hostile network

Parties run a protocol in any number of concurrent runs.  All they receive comes from an
attacker, who may send anything to any run at any time; what an honest key has signed is
the only thing the attacker cannot make up.  Signatures are ideal: a signature verifies
under an honest key exactly if its owner has made it for that message, and the attacker
chooses what verifies under all other keys.
-/

namespace Sessions

/-- A signature that the owner of a key has made. -/
structure Entry (κ μ σ : Type) where
  key : κ
  message : μ
  signature : σ
deriving DecidableEq

/-- What a run does with something it receives: its new state, the state it shares with
other runs, and the message it signs, if any. -/
structure Reaction (κ μ τ ρ : Type) where
  run : ρ
  shared : τ
  signs : Option (κ × μ)

/-- A protocol: keys, messages and signatures, what a run receives, the shared state and
what changes it from outside, and the states of a run. -/
structure System (κ μ σ φ τ ε ρ : Type) where
  honest : κ → Bool
  /-- Verification under the keys of the attacker. -/
  rogue : κ → μ → σ → Bool
  /-- The messages that honest keys sign outside the protocol. -/
  elsewhere : μ → Bool
  mayStart : List ρ → ρ → Bool
  react : (κ → μ → σ → Bool) → τ → ρ → φ → σ → Reaction κ μ τ ρ
  outside : τ → ε → τ

/-- The runs, the signatures and what is shared. -/
structure World (κ μ σ τ ρ : Type) where
  runs : List ρ
  issued : List (Entry κ μ σ)
  shared : τ

/-- What can happen. -/
inductive Action (κ μ σ φ ε ρ : Type) where
  | start (r : ρ)
  /-- A run receives something; should it sign, this is its signature. -/
  | deliver (i : Nat) (input : φ) (signature : σ)
  | sign (key : κ) (message : μ) (signature : σ)
  | outside (event : ε)

variable {κ μ σ φ τ ε ρ : Type}

/-- No run has started. -/
def World.start (shared : τ) : World κ μ σ τ ρ where
  runs := []
  issued := []
  shared := shared

/-- The signatures with the one a reaction makes. -/
def record (issued : List (Entry κ μ σ)) (signs : Option (κ × μ)) (s : σ) :
    List (Entry κ μ σ) :=
  match signs with
  | some (k, m) => ⟨k, m, s⟩ :: issued
  | none => issued

/-- The world after a run has reacted. -/
def World.reacted (w : World κ μ σ τ ρ) (i : Nat) (reaction : Reaction κ μ τ ρ) (s : σ) :
    World κ μ σ τ ρ where
  runs := w.runs.set i reaction.run
  issued := record w.issued reaction.signs s
  shared := reaction.shared

namespace System

variable [DecidableEq κ] [DecidableEq μ] [DecidableEq σ]
variable (P : System κ μ σ φ τ ε ρ)

/-- Whether a signature is accepted. -/
def verifies (issued : List (Entry κ μ σ)) (k : κ) (m : μ) (s : σ) : Bool :=
  if P.honest k then decide (⟨k, m, s⟩ ∈ issued) else P.rogue k m s

/-- An action, if it can take place. -/
def step (w : World κ μ σ τ ρ) : Action κ μ σ φ ε ρ → Option (World κ μ σ τ ρ)
  | .start r => if P.mayStart w.runs r then some { w with runs := w.runs ++ [r] } else none
  | .deliver i input s =>
    w.runs[i]?.map fun r =>
      w.reacted i (P.react (P.verifies w.issued) w.shared r input s) s
  | .sign k m s =>
    if P.elsewhere m then some { w with issued := ⟨k, m, s⟩ :: w.issued } else none
  | .outside event => some { w with shared := P.outside w.shared event }

/-! ## Steps -/

/-- What a step can do. -/
inductive Stepped (w : World κ μ σ τ ρ) : World κ μ σ τ ρ → Prop
  | started {r : ρ} (hstart : P.mayStart w.runs r = true) :
      Stepped w { w with runs := w.runs ++ [r] }
  | reacted {i : Nat} {r : ρ} (hr : w.runs[i]? = some r) (input : φ) (s : σ) :
      Stepped w (w.reacted i (P.react (P.verifies w.issued) w.shared r input s) s)
  | signed {m : μ} (helse : P.elsewhere m = true) (k : κ) (s : σ) :
      Stepped w { w with issued := ⟨k, m, s⟩ :: w.issued }
  | moved (event : ε) : Stepped w { w with shared := P.outside w.shared event }

variable {P} {w w' : World κ μ σ τ ρ}

theorem stepped_of_step {a : Action κ μ σ φ ε ρ} (h : P.step w a = some w') :
    P.Stepped w w' := by
  cases a with
  | start r =>
    simp only [step, Option.ite_none_right_eq_some, Option.some.injEq] at h
    rcases h with ⟨hstart, rfl⟩
    exact .started hstart
  | deliver i input s =>
    simp only [step, Option.map_eq_some_iff] at h
    rcases h with ⟨r, hr, rfl⟩
    exact .reacted hr input s
  | sign k m s =>
    simp only [step, Option.ite_none_right_eq_some, Option.some.injEq] at h
    rcases h with ⟨helse, rfl⟩
    exact .signed helse k s
  | outside event =>
    simp only [step, Option.some.injEq] at h
    subst h
    exact .moved event

variable {t : τ}

/-- What every step keeps holds in every reachable world. -/
theorem invariant_of_stepped {I : World κ μ σ τ ρ → Prop}
    (hreach : Machine.Reachable P.step (.start t) w) (hstart : I (.start t))
    (hstep : ∀ w w', I w → P.Stepped w w' → I w') : I w :=
  hreach.invariant hstart fun w _ w' hw h => hstep w w' hw (stepped_of_step h)

/-- What runs have when they start and keep when they react all runs have. -/
theorem forall_runs {J : ρ → Prop} (hstart : ∀ runs r, P.mayStart runs r = true → J r)
    (hkeeps : ∀ verify t r input s, J r → J (P.react verify t r input s).run)
    (hreach : Machine.Reachable P.step (.start t) w) :
    ∀ r ∈ w.runs, J r := by
  refine invariant_of_stepped (I := fun w => ∀ r ∈ w.runs, J r) hreach (by simp [World.start]) ?_
  intro w w' hruns hstep
  cases hstep with
  | started hmay =>
    intro r hr
    rcases List.mem_append.mp hr with hold | hnew
    · exact hruns r hold
    · exact List.mem_singleton.mp hnew ▸ hstart _ _ hmay
  | reacted hr₀ input s =>
    intro r hr
    rcases List.mem_or_eq_of_mem_set hr with hold | rfl
    · exact hruns r hold
    · exact hkeeps _ _ _ _ _ (hruns _ (List.mem_of_getElem? hr₀))
  | signed => exact hruns
  | moved => exact hruns

variable {issued : List (Entry κ μ σ)} {s : σ}

omit [DecidableEq κ] [DecidableEq μ] [DecidableEq σ] in
/-- The entries with the one a reaction makes. -/
theorem mem_record {signs : Option (κ × μ)} {e : Entry κ μ σ} :
    e ∈ record issued signs s ↔ e ∈ issued ∨ signs = some (e.key, e.message) ∧ e.signature = s := by
  cases signs with
  | none => simp [record]
  | some signed =>
    rcases signed with ⟨k, m⟩
    rcases e with ⟨k', m', s'⟩
    simp only [record, List.mem_cons, Entry.mk.injEq, Option.some.injEq, Prod.mk.injEq]
    tauto

/-- Signatures are never forgotten. -/
theorem Stepped.issued_subset (h : P.Stepped w w') :
    w.issued ⊆ w'.issued := by
  cases h with
  | started => exact List.Subset.refl _
  | reacted hr input s => exact fun e he => mem_record.mpr (.inl he)
  | signed => exact List.subset_cons_self _ _
  | moved => exact List.Subset.refl _

/-- What an honest key verifies its owner has signed. -/
theorem mem_of_verifies {k : κ} {m : μ} (h : P.verifies issued k m s = true)
    (hk : P.honest k = true) : ⟨k, m, s⟩ ∈ issued := by
  rw [verifies, if_pos hk] at h
  exact of_decide_eq_true h

theorem verifies_mono {issued' : List (Entry κ μ σ)} (hsub : issued ⊆ issued') {k : κ} {m : μ}
    (h : P.verifies issued k m s = true) : P.verifies issued' k m s = true := by
  by_cases hk : P.honest k = true
  · rw [verifies, if_pos hk]
    exact decide_eq_true (hsub (mem_of_verifies h hk))
  · rw [verifies, if_neg hk] at h ⊢
    exact h

/-! ## Agreement -/

variable (P)

/-- What the states of the runs say about signatures: which ones a run has made, and which
ones it has accepted. -/
structure Accounts (made accepted : ρ → κ → μ → σ → Prop) : Prop where
  signs : ∀ verify t r input s k m, (P.react verify t r input s).signs = some (k, m) →
    made (P.react verify t r input s).run k m s
  keeps : ∀ verify t r input s k m s', made r k m s' →
    made (P.react verify t r input s).run k m s'
  starts : ∀ runs r k m s, P.mayStart runs r = true → ¬ accepted r k m s
  accepts : ∀ verify t r input s k m s', accepted (P.react verify t r input s).run k m s' →
    accepted r k m s' ∨ verify k m s' = true

/-- Where a signature comes from: from outside the protocol, or from a run. -/
def Origin (made : ρ → κ → μ → σ → Prop) (w : World κ μ σ τ ρ) (e : Entry κ μ σ) : Prop :=
  P.elsewhere e.message = true ∨ ∃ r ∈ w.runs, made r e.key e.message e.signature

variable {P} {made accepted : ρ → κ → μ → σ → Prop}

/-- What a run has made it still has made when it or another run has reacted. -/
theorem Accounts.origin_reacted (h : P.Accounts made accepted) {i : Nat} {r : ρ}
    (hr : w.runs[i]? = some r) (input : φ) (s : σ) {e : Entry κ μ σ} (he : P.Origin made w e) :
    P.Origin made
      (w.reacted i (P.react (P.verifies w.issued) w.shared r input s) s) e := by
  rcases he with helse | ⟨r', hr', hmade⟩
  · exact .inl helse
  · rcases List.mem_iff_getElem?.mp hr' with ⟨j, hj⟩
    by_cases hij : i = j
    · subst hij
      rw [hr, Option.some.injEq] at hj
      subst hj
      have hi : i < w.runs.length := (List.getElem?_eq_some_iff.mp hr).1
      exact .inr ⟨_, List.mem_set hi _, h.keeps _ _ _ _ _ _ _ _ hmade⟩
    · exact .inr ⟨r', List.mem_iff_getElem?.mpr ⟨j, (List.getElem?_set_ne hij).trans hj⟩, hmade⟩

section Traced

variable (h : P.Accounts made accepted) (hreach : Machine.Reachable P.step (.start t) w)

include h hreach

/-- Every signature was made by a run, or outside the protocol. -/
theorem Accounts.origin : ∀ e ∈ w.issued, P.Origin made w e := by
  refine invariant_of_stepped (I := fun w => ∀ e ∈ w.issued, P.Origin made w e) hreach nofun ?_
  intro w w' horigin hstep e he
  cases hstep with
  | started =>
    rcases horigin e he with helse | ⟨r, hr, hmade⟩
    · exact .inl helse
    · exact .inr ⟨r, List.mem_append_left _ hr, hmade⟩
  | @reacted i r hr input s =>
    rcases mem_record.mp he with hold | ⟨hsigns, rfl⟩
    · exact h.origin_reacted hr input s (horigin e hold)
    · have hi : i < w.runs.length := (List.getElem?_eq_some_iff.mp hr).1
      exact .inr ⟨_, List.mem_set hi _, h.signs _ _ _ _ _ _ _ hsigns⟩
  | signed helse =>
    rcases List.mem_cons.mp he with rfl | hold
    · exact .inl helse
    · exact horigin e hold
  | moved => exact horigin e he

/-- What a run accepted verifies. -/
theorem Accounts.verified : ∀ r ∈ w.runs, ∀ k m s,
      accepted r k m s → P.verifies w.issued k m s = true := by
  refine invariant_of_stepped (I := fun w => ∀ r ∈ w.runs, ∀ k m s, accepted r k m s →
    P.verifies w.issued k m s = true) hreach nofun ?_
  intro w w' hverified hstep r hr k m s haccepted
  apply verifies_mono hstep.issued_subset
  cases hstep with
  | started hstart =>
    rcases List.mem_append.mp hr with hold | hnew
    · exact hverified r hold k m s haccepted
    · rw [List.mem_singleton.mp hnew] at haccepted
      exact absurd haccepted (h.starts _ _ _ _ _ hstart)
  | reacted hr₀ input s' =>
    rcases List.mem_or_eq_of_mem_set hr with hold | rfl
    · exact hverified r hold k m s haccepted
    · rcases h.accepts _ _ _ _ _ _ _ _ haccepted with hbefore | hnow
      · exact hverified _ (List.mem_of_getElem? hr₀) k m s hbefore
      · exact hnow
  | signed => exact hverified r hr k m s haccepted
  | moved => exact hverified r hr k m s haccepted

/-- A message of the protocol that a run accepted under an honest key was signed by a run. -/
theorem Accounts.agreement {r : ρ} (hr : r ∈ w.runs) {k : κ} {m : μ}
    (haccepted : accepted r k m s) (hk : P.honest k = true) (hm : P.elsewhere m = false) :
    ∃ r' ∈ w.runs, made r' k m s := by
  have hissued := mem_of_verifies (h.verified hreach r hr k m s haccepted) hk
  rcases h.origin hreach _ hissued with helse | hmade
  · rw [hm] at helse
    cases helse
  · exact hmade

end Traced

/-! ## Nonces -/

section Nonces

variable {ν : Type} {nonce : ρ → ν}
  (hfresh : ∀ runs r, P.mayStart runs r = true → nonce r ∉ runs.map nonce)
  (hkeeps : ∀ verify t r input s, nonce (P.react verify t r input s).run = nonce r)
  (hreach : Machine.Reachable P.step (.start t) w)

include hfresh hkeeps hreach

/-- Runs that start with fresh nonces and keep them have different nonces. -/
theorem nodup_nonces : (w.runs.map nonce).Nodup := by
  refine invariant_of_stepped (I := fun w => (w.runs.map nonce).Nodup) hreach List.nodup_nil ?_
  intro w w' hnodup hstep
  cases hstep with
  | started hstart =>
    rw [List.map_append, List.map_singleton, List.nodup_append]
    refine ⟨hnodup, List.nodup_singleton _, fun n hn n' hn' => ?_⟩
    rw [List.mem_singleton.mp hn']
    exact fun heq => hfresh _ _ hstart (heq ▸ hn)
  | reacted hr input s =>
    rcases List.getElem?_eq_some_iff.mp hr with ⟨hi, rfl⟩
    rw [World.reacted, List.map_set, hkeeps, ← List.getElem_map nonce (h := by simpa using hi),
      List.set_getElem_self]
    exact hnodup
  | signed => exact hnodup
  | moved => exact hnodup

/-- So a nonce belongs to one run. -/
theorem eq_of_nonce {i j : Nat} {r r' : ρ} (hi : w.runs[i]? = some r) (hj : w.runs[j]? = some r')
    (hnonce : nonce r = nonce r') : i = j := by
  have hnodup := nodup_nonces hfresh hkeeps hreach
  have hlength : i < (w.runs.map nonce).length := by
    rw [List.length_map]
    exact (List.getElem?_eq_some_iff.mp hi).1
  refine (List.getElem?_inj hlength hnodup).mp ?_
  rw [List.getElem?_map, List.getElem?_map, hi, hj, Option.map_some, Option.map_some, hnonce]

end Nonces

end System

end Sessions
