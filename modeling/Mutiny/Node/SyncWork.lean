import Mutiny.Node.SyncCommit

/-!
# The work of the shared chain

Any number of threads synchronise with any peers while blocks and transactions arrive.  A
commit compares the tip with the one it started from, and that is enough: the chain behind
the lock is only ever replaced by one with more work.

Main result:

- Theorem {lit}`sync_work_grows`: what any schedule does to the shared chain.
-/

namespace Mutiny

open Result

section Work

variable [Crypto] {known : Set TransactionV1} {work : Bytes32 → Nat}
  {witness : Option (ApplyBlock RuntimeBlockApplyError)}

/-- A later chain has more work than an earlier one, or differs in its pool at most. -/
def Outgrows (earlier later : DevnetState) : Prop :=
  chainwork earlier < chainwork later ∨ later = { earlier with mempool := later.mempool }

omit [Crypto] in
theorem Outgrows.trans {a b c : DevnetState} (hab : Outgrows a b) (hbc : Outgrows b c) :
    Outgrows a c := by
  have hwork : ∀ {a b : DevnetState}, Outgrows a b → chainwork a ≤ chainwork b := by
    rintro a b (hlt | hsame)
    · exact hlt.le
    · rw [hsame]
      exact le_rfl
  rcases hab with hlt | hsame
  · exact Or.inl (hlt.trans_le (hwork hbc))
  · rcases hbc with hlt | hsame'
    · rw [hsame] at hlt
      exact Or.inl hlt
    · rw [hsame] at hsame'
      exact Or.inr hsame'

variable {start : NodeState} {schedule before after : List SyncAction} {a : SyncAction}
  {n s s' : SyncNode}

/-- Threads come and go without touching the chain; a commit or a block adds work. -/
theorem MainnetRun.outgrows (hrun : MainnetRun known work witness start schedule s)
    (ha : a.Within known) (h : s.step .mainnet witness a = some s') :
    Outgrows s.shared.chain s'.shared.chain := by
  have hs := hrun.invariant
  have hmeasured := hrun.measured schedule [] s (by simp) hrun.run
  cases SyncNode.move_of_step h with
  | committed hthread hphase htip hshared =>
    exact Or.inl (commit_replaces hrun.collisions hs hmeasured (hs.threads _ _ hthread) hphase
      htip hshared).1.work
  | applied _ _ happly =>
    exact Or.inl (announcedBlock_of_ok hrun.collisions hrun.witnessed hs.grounded ha happly).work
  | extended happly =>
    exact Or.inl (announcedBlock_of_ok hrun.collisions hrun.witnessed hs.grounded ha happly).work
  | _ => exact Or.inr rfl

theorem MainnetRun.init (h : MainnetRun known work witness start (schedule ++ [a]) s) :
    ∃ s₁, MainnetRun known work witness start schedule s₁ ∧
      s₁.step .mainnet witness a = some s := by
  rcases Machine.run_concat_eq_some.mp h.run with ⟨s₁, hrun, hlast⟩
  refine ⟨s₁, ⟨h.collisions, h.witnessed, h.grounded, ?_, ?_, hrun⟩, hlast⟩
  · exact fun b hb => h.within b (List.mem_append_left _ hb)
  · exact fun before after n heq => h.measured before (after ++ [a]) n (by rw [heq]; simp)

/-- Between any moment of any schedule of the Mainnet and any later one the shared chain
gained work, or only its pool changed. -/
theorem sync_work_grows (h : MainnetRun known work witness start (before ++ after) s)
    (hn : Machine.run (SyncNode.step .mainnet witness) (.start start) before = some n)
    (ha : a.Within known) (hstep : s.step .mainnet witness a = some s') :
    Outgrows n.shared.chain s'.shared.chain := by
  refine Outgrows.trans ?_ (h.outgrows ha hstep)
  clear hstep ha
  induction after using List.reverseRecOn generalizing s with
  | nil =>
    have hrun := h.run
    rw [List.append_nil, hn] at hrun
    cases hrun
    exact Or.inr rfl
  | append_singleton after b ih =>
    have hwithin := h.within b (by simp)
    rw [← List.append_assoc] at h
    rcases h.init with ⟨s₁, hbefore, hlast⟩
    exact (ih hbefore).trans (hbefore.outgrows hwithin hlast)

end Work

section Evaluation

attribute [local instance] devnetCrypto

/-- A node that commits the block of a peer has more work than when it cloned. -/
theorem sync_work_grows_commit :
    ∃ (start : NodeState) (tx : TransactionV1) (peer : Peer) (s s' : SyncNode),
      Machine.run (SyncNode.step .mainnet none) (.start start)
        [.clone 0, .announce tx, .sync 0 peer] = some s ∧
      s.step .mainnet none (.commit 0) = some s' ∧
      chainwork start.chain < chainwork s'.shared.chain := by
  have hcheck : okAnd mainnetSync (fun r =>
      decide (((foundingTx r.1 :: r.2.1 :: r.2.2.1.sent).map TransactionV1.txid).Nodup ∧
        r.2.2.2.2.shared.chain.height = 2)) = true := by
    decide +kernel
  rcases exists_of_okAnd hcheck with ⟨⟨l, tx, peer, s, s'⟩, hsample, htest⟩
  rcases of_decide_eq_true htest with ⟨hdistinct, hheight⟩
  simp only [mainnetSync, ok_rules, Prod.mk.injEq] at hsample
  rcases hsample with ⟨l, -, _, -, _, -, _, hpeer, _, hrun, _, hcommit, rfl, rfl, rfl, rfl, rfl⟩
  have hmainnet := mainnetRun_of_sample (collisionFree_of_nodup hdistinct) hpeer hrun
  rcases sync_work_grows (a := .commit 0) hmainnet (Machine.run_nil _) trivial hcommit with
    hwork | hsame
  · exact ⟨_, _, _, _, _, hrun, hcommit, hwork⟩
  · rw [hsame] at hheight
    exact absurd hheight (by decide : (1 : UInt64) ≠ 2)

end Evaluation

end Mutiny
