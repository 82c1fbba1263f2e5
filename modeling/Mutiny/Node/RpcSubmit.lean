import Mathlib.Logic.Function.Basic
import Mutiny.Lib.Machine
import Mutiny.Node.OfflineSpend
import Mutiny.Node.Reorg
import Mutiny.Node.StateCheck

/-!
# Submissions over RPC

Every request of {lit}`offline.submit` is handled by a worker of its own: it loads the
stored state, checks the request against it, adds the transaction to the pool and stores
the result.  Loading and storing are atomic; between them the other workers run.

Main result:

- Theorem {lit}`submissions_linearizable`: as long as nobody saves in between, nothing is lost
  and nothing spent twice.
-/

namespace Mutiny

open Result

/-! ## Workers -/

/-- What a client sends. -/
structure SubmitParams where
  requestBytes : Bytes
  request : OfflineSpendRequestV1
  signed : OfflineSpendSignatureV1
deriving DecidableEq, Repr

/-- Where a worker is.  An answer is the transaction with status MEMPOOL, or an error. -/
inductive Submission
  | received (params : SubmitParams)
  | loaded (params : SubmitParams) (state : DevnetState)
  | validated (state : DevnetState) (pending : PendingTxState)
  | answered (result : Except String PendingTxState)

/-- A data directory and the workers on it, by their number. -/
structure RpcServer where
  stored : DevnetState
  workers : Nat → Option Submission

/-- What can happen. -/
inductive RpcAction
  | receive (c : Nat) (params : SubmitParams)
  | load (c : Nat)
  | validate (c : Nat)
  | save (c : Nat)
deriving DecidableEq, Repr

/-- A worker is replaced. -/
def RpcServer.set (s : RpcServer) (c : Nat) (w : Submission) : RpcServer :=
  { s with workers := Function.update s.workers c (some w) }

section Server

variable [Crypto]

/-- What a worker does between loading and storing. -/
def prepareSubmission (state : DevnetState) (params : SubmitParams) :
    Except String PendingTxState := do
  let pending ← submitOfflineSpend state params.requestBytes params.request params.signed
  validatePendingCandidate state pending false
  .ok pending

/-- One action of a worker. -/
def RpcServer.step (s : RpcServer) : RpcAction → Option RpcServer
  | .receive c params =>
    match s.workers c with
    | some _ => none
    | none => some (s.set c (.received params))
  | .load c =>
    match s.workers c with
    | some (.received params) =>
      match checkState s.stored with
      | .error e => some (s.set c (.answered (.error e)))
      | .ok _ => some (s.set c (.loaded params s.stored))
    | _ => none
  | .validate c =>
    match s.workers c with
    | some (.loaded params state) =>
      match prepareSubmission state params with
      | .error e => some (s.set c (.answered (.error e)))
      | .ok pending => some (s.set c (.validated state pending))
    | _ => none
  | .save c =>
    match s.workers c with
    | some (.validated state pending) =>
      let state := { state with mempool := state.mempool ++ [pending] }
      match requireMainnetCanonicalTip state with
      | .error e => some (s.set c (.answered (.error e)))
      | .ok _ => some { s.set c (.answered (.ok pending)) with stored := state }
    | _ => none

end Server

/-! ## Undisturbed schedules -/

/-- Between the load and the save of a worker no worker saves. -/
def Undisturbed (schedule : List RpcAction) : Prop :=
  ∀ c before between after, schedule = before ++ .load c :: (between ++ .save c :: after) →
    ∀ d, .save d ∉ between

/-- Some worker saved after worker {lit}`c` had loaded. -/
def Overtaken (done : List RpcAction) (c : Nat) : Prop :=
  ∃ before between d, done = before ++ .load c :: between ∧ .save d ∈ between

theorem Undisturbed.of_append {first second : List RpcAction} (h : Undisturbed (first ++ second)) :
    Undisturbed first := by
  intro c before between after heq
  refine h c before between (after ++ second) ?_
  rw [heq]
  simp

variable {done : List RpcAction}

theorem Undisturbed.not_overtaken {c : Nat} (h : Undisturbed (done ++ [.save c])) :
    ¬ Overtaken done c := by
  rintro ⟨before, between, d, rfl, hsave⟩
  exact h c before between [] (by simp) d hsave

theorem Overtaken.concat {c : Nat} (h : Overtaken done c) (a : RpcAction) :
    Overtaken (done ++ [a]) c := by
  rcases h with ⟨before, between, d, rfl, hsave⟩
  exact ⟨before, between ++ [a], d, by simp, List.mem_append_left _ hsave⟩

theorem overtaken_of_save {c : Nat} (h : .load c ∈ done) (d : Nat) :
    Overtaken (done ++ [.save d]) c := by
  rcases List.append_of_mem h with ⟨before, between, rfl⟩
  exact ⟨before, between ++ [.save d], d, by simp, List.mem_append_right _ (List.mem_singleton_self _)⟩

/-! ## The stored pool -/

theorem RpcServer.workers_set {s : RpcServer} {c d : Nat} {w w' : Submission}
    (h : (s.set c w).workers d = some w') :
    (d = c ∧ w' = w) ∨ (d ≠ c ∧ s.workers d = some w') := by
  by_cases hdc : d = c
  · left
    simp only [hdc, RpcServer.set, Function.update_self, Option.some.injEq] at h
    exact ⟨hdc, h.symm⟩
  · right
    simp only [RpcServer.set, Function.update_of_ne hdc] at h
    exact ⟨hdc, h⟩

/-- The state a worker has loaded. -/
def Submission.state : Submission → Option DevnetState
  | .loaded _ state => some state
  | .validated state _ => some state
  | _ => none

/-- What holds of a server after the actions of an undisturbed schedule. -/
structure Served (done : List RpcAction) (s : RpcServer) : Prop where
  current : ∀ c w state, s.workers c = some w → w.state = some state →
    (state = s.stored ∧ .load c ∈ done) ∨ Overtaken done c
  free : ∀ c state pending, s.workers c = some (.validated state pending) →
    pending.Written ∧ ∀ o ∈ pending.inputs, o ∉ mempoolReservedInputs state
  kept : ∀ c pending, s.workers c = some (.answered (.ok pending)) →
    pending ∈ s.stored.mempool ∧ pending.Written
  apart : ∀ c d p q, c ≠ d → s.workers c = some (.answered (.ok p)) →
    s.workers d = some (.answered (.ok q)) → ∀ o ∈ p.outpoints, o ∉ q.outpoints

namespace Served

variable {done : List RpcAction} {s : RpcServer} {c : Nat} {w : Submission}

/-- A worker goes on and the store stays. -/
theorem set (hs : Served done s) (a : RpcAction)
    (hcurrent : ∀ state, w.state = some state →
      (state = s.stored ∧ .load c ∈ done ++ [a]) ∨ Overtaken (done ++ [a]) c)
    (hfree : ∀ state pending, w = .validated state pending →
      pending.Written ∧ ∀ o ∈ pending.inputs, o ∉ mempoolReservedInputs state)
    (hnew : ∀ pending, w ≠ .answered (.ok pending)) : Served (done ++ [a]) (s.set c w) := by
  constructor
  · intro d w' state hd hstate
    rcases RpcServer.workers_set hd with ⟨rfl, rfl⟩ | ⟨-, hd⟩
    · exact hcurrent state hstate
    · rcases hs.current d w' state hd hstate with ⟨hsame, hload⟩ | hover
      · exact Or.inl ⟨hsame, List.mem_append_left _ hload⟩
      · exact Or.inr (hover.concat a)
  · intro d state pending hd
    rcases RpcServer.workers_set hd with ⟨-, heq⟩ | ⟨-, hd⟩
    · exact hfree state pending heq.symm
    · exact hs.free d state pending hd
  · intro d pending hd
    rcases RpcServer.workers_set hd with ⟨-, heq⟩ | ⟨-, hd⟩
    · exact absurd heq.symm (hnew pending)
    · exact hs.kept d pending hd
  · intro d e p q hne hd he
    rcases RpcServer.workers_set hd with ⟨-, heq⟩ | ⟨-, hd⟩
    · exact absurd heq.symm (hnew p)
    rcases RpcServer.workers_set he with ⟨-, heq⟩ | ⟨-, he⟩
    · exact absurd heq.symm (hnew q)
    exact hs.apart d e p q hne hd he

/-- A worker stores what it loaded with its transaction: nobody stored in between. -/
theorem save (hs : Served done s) {state : DevnetState} {pending : PendingTxState}
    (hworker : s.workers c = some (.validated state pending))
    (hundisturbed : Undisturbed (done ++ [.save c])) :
    Served (done ++ [.save c])
      { s.set c (.answered (.ok pending)) with
        stored := { state with mempool := state.mempool ++ [pending] } } := by
  have hstate : state = s.stored := by
    rcases hs.current c _ state hworker rfl with ⟨hsame, -⟩ | hover
    · exact hsame
    · exact absurd hover hundisturbed.not_overtaken
  rcases hs.free c state pending hworker with ⟨hwritten, hunreserved⟩
  -- both are stored as the node writes them, so one outpoint is one stored input
  have hfresh : ∀ d q, s.workers d = some (.answered (.ok q)) → ∀ o ∈ pending.outpoints,
      o ∉ q.outpoints := by
    intro d q hd o ho hq
    rcases hs.kept d q hd with ⟨hpool, hwritten'⟩
    refine hunreserved _ (hwritten.stored_mem ho)
      (List.mem_flatMap.mpr ⟨q, ?_, hwritten'.stored_mem hq⟩)
    rw [hstate]
    exact hpool
  constructor
  · intro d w' loaded hd hloaded
    rcases RpcServer.workers_set hd with ⟨-, rfl⟩ | ⟨-, hd⟩
    · cases hloaded
    · right
      rcases hs.current d w' loaded hd hloaded with ⟨-, hload⟩ | hover
      · exact overtaken_of_save hload c
      · exact hover.concat _
  · intro d loaded q hd
    rcases RpcServer.workers_set hd with ⟨-, heq⟩ | ⟨-, hd⟩
    · cases heq
    · exact hs.free d loaded q hd
  · intro d q hd
    rcases RpcServer.workers_set hd with ⟨-, heq⟩ | ⟨-, hd⟩
    · cases heq
      exact ⟨List.mem_append_right _ (List.mem_singleton_self _), hwritten⟩
    · rcases hs.kept d q hd with ⟨hpool, hwritten'⟩
      refine ⟨List.mem_append_left _ ?_, hwritten'⟩
      rw [hstate]
      exact hpool
  · intro d e p q hne hd he
    rcases RpcServer.workers_set hd with ⟨hdc, hp⟩ | ⟨-, hold⟩
    · cases hp
      rcases RpcServer.workers_set he with ⟨hec, -⟩ | ⟨-, hold'⟩
      · exact absurd (hdc.trans hec.symm) hne
      · exact hfresh e q hold'
    · rcases RpcServer.workers_set he with ⟨-, hq⟩ | ⟨-, hold'⟩
      · cases hq
        exact fun o ho ho' => hfresh d p hold o ho' ho
      · exact hs.apart d e p q hne hold hold'

variable [Crypto]

/-- Every action of an undisturbed schedule. -/
theorem step (hs : Served done s) {s' : RpcServer} {a : RpcAction}
    (hundisturbed : Undisturbed (done ++ [a])) (h : s.step a = some s') :
    Served (done ++ [a]) s' := by
  cases a with
  | receive c params =>
    simp only [RpcServer.step] at h
    split at h
    · cases h
    · cases h
      exact hs.set _ (fun _ h => by cases h) (fun _ _ h => by cases h) fun _ h => by cases h
  | load c =>
    simp only [RpcServer.step] at h
    split at h
    · split at h
      · cases h
        exact hs.set _ (fun _ h => by cases h) (fun _ _ h => by cases h) fun _ h => by cases h
      · cases h
        refine hs.set _ (fun state h => Or.inl ?_) (fun _ _ h => by cases h) fun _ h => by cases h
        cases h
        exact ⟨rfl, List.mem_append_right _ (List.mem_singleton_self _)⟩
    · cases h
  | validate c =>
    simp only [RpcServer.step] at h
    split at h
    next params state hworker =>
      have hcurrent : (state = s.stored ∧ .load c ∈ done ++ [.validate c]) ∨
          Overtaken (done ++ [.validate c]) c := by
        rcases hs.current c _ state hworker rfl with ⟨hsame, hload⟩ | hover
        · exact Or.inl ⟨hsame, List.mem_append_left _ hload⟩
        · exact Or.inr (hover.concat _)
      split at h
      · cases h
        exact hs.set _ (fun _ h => by cases h) (fun _ _ h => by cases h) fun _ h => by cases h
      next pending hprepared =>
        cases h
        refine hs.set _ (fun loaded h => ?_) (fun loaded q h => ?_) fun _ h => by cases h
        · cases h
          exact hcurrent
        · cases h
          simp only [prepareSubmission, ok_rules] at hprepared
          rcases hprepared with ⟨submitted, hsubmit, _, -, rfl⟩
          exact submitOfflineSpend_unreserved hsubmit
    · cases h
  | save c =>
    simp only [RpcServer.step] at h
    split at h
    next state pending hworker =>
      split at h
      · cases h
        exact hs.set _ (fun _ h => by cases h) (fun _ _ h => by cases h) fun _ h => by cases h
      · cases h
        exact hs.save hworker hundisturbed
    · cases h

end Served

section Runs

variable [Crypto]

/-- A data directory before the first request. -/
def RpcServer.start (stored : DevnetState) : RpcServer where
  stored := stored
  workers := fun _ => none

theorem Served.run {stored : DevnetState} {schedule : List RpcAction} {s : RpcServer}
    (h : Machine.run RpcServer.step (.start stored) schedule = some s)
    (hundisturbed : Undisturbed schedule) : Served schedule s := by
  induction schedule using List.reverseRecOn generalizing s with
  | nil =>
    cases h
    constructor <;> intros <;> contradiction
  | append_singleton done a ih =>
    rcases Machine.run_concat_eq_some.mp h with ⟨s₁, hdone, hlast⟩
    exact (ih hdone hundisturbed.of_append).step hundisturbed hlast

/-- Over every schedule of any number of workers in which nobody saves between the load
and the save of a worker: every transaction that was answered is in the stored pool, and
no two of them spend the same outpoint. -/
theorem submissions_linearizable (stored : DevnetState) (schedule : List RpcAction) (s : RpcServer)
    (h : Machine.run RpcServer.step (.start stored) schedule = some s)
    (hundisturbed : Undisturbed schedule) :
    (∀ c pending, s.workers c = some (.answered (.ok pending)) → pending ∈ s.stored.mempool) ∧
      ∀ c d p q, c ≠ d → s.workers c = some (.answered (.ok p)) →
        s.workers d = some (.answered (.ok q)) → ∀ o ∈ p.outpoints, o ∉ q.outpoints := by
  have hserved := Served.run h hundisturbed
  exact ⟨fun c pending hc => (hserved.kept c pending hc).1, hserved.apart⟩

end Runs

section Evaluation

attribute [local instance] devnetCrypto

/-- An output of the owner of a licence. -/
def walletCoin (l : LicenseState) (txid : Bytes32) : UtxoState where
  txid := .encode txid
  outputIndex := 0
  amountStrikes := 1000000
  outputType := outputPubkeyHash
  payload := Bytes.b32 l.paymentAddressId
  creationEpoch := 0
  creationHeight := 0
  coinbase := false

/-- A state with three outputs of the owner of its only licence. -/
def walletState (l : LicenseState) : DevnetState :=
  { emptyState 10 devnetNetworkId devnetFixedGenesisTimeMs devnetGenesisId [l] with
    totalIssuedStrikes := 3000000
    currentStateRoot := block1StateRoot
    utxos := [walletCoin l 7, walletCoin l 8, walletCoin l 9] }

/-- A signed request to spend one of these outputs. -/
def spendRequest (l : LicenseState) (txid : Bytes32) (amount : UInt64) : SubmitParams where
  requestBytes := []
  request :=
    { networkId := devnetNetworkId
      genesisId := devnetGenesisId
      fromLicenseId := l.licenseId
      toLicenseId := l.licenseId
      ownerPublicKey := l.ownerPublicKey
      createdHeight := 0
      maxSubmitHeight := 144
      validFromEpoch := 0
      expiryEpoch := 0
      amountStrikes := amount
      feeStrikes := 1000
      prevouts := [(walletCoin l txid).prevout]
      outputs := [⟨amount, outputPubkeyHash, Bytes.b32 l.paymentAddressId⟩,
        ⟨999000 - amount, outputPubkeyHash, Bytes.b32 l.paymentAddressId⟩] }
  signed :=
    { networkId := devnetNetworkId
      requestHash := 0
      ownerPublicKey := l.ownerPublicKey
      signatures := [0] }

/-- The transaction a worker has answered with. -/
def RpcServer.answer (s : RpcServer) (c : Nat) : Option PendingTxState :=
  match s.workers c with
  | some (.answered (.ok p)) => some p
  | _ => none

theorem RpcServer.workers_of_answer {s : RpcServer} {c : Nat} {p : PendingTxState}
    (h : s.answer c = some p) : s.workers c = some (.answered (.ok p)) := by
  unfold RpcServer.answer at h
  split at h
  next hworker =>
    cases h
    exact hworker
  · cases h

/-- Two requests at once. -/
def racingSchedule (l : LicenseState) : List RpcAction :=
  [.receive 0 (spendRequest l 7 1000), .receive 1 (spendRequest l 7 2000), .load 0, .load 1,
    .validate 0, .validate 1, .save 0, .save 1]

/-- Two workers that load before either of them has stored: both requests are answered, the
transactions spend one output, and the first is not in the pool. -/
theorem racing_submissions_lose :
    ∃ (stored : DevnetState) (schedule : List RpcAction) (s : RpcServer) (p q : PendingTxState),
      checkState stored = .ok () ∧
      Machine.run RpcServer.step (.start stored) schedule = some s ∧
      s.workers 0 = some (.answered (.ok p)) ∧ s.workers 1 = some (.answered (.ok q)) ∧
      p ∉ s.stored.mempool ∧ p.outpoints = q.outpoints ∧ p.outpoints ≠ [] := by
  have hcheck : okAnd (okOr bootstrapLicenseStates.head? "no licence") (fun l =>
      decide (checkState (walletState l) = .ok ()) &&
        (Machine.run RpcServer.step (.start (walletState l)) (racingSchedule l)).any fun s =>
          (s.answer 0).any fun p => (s.answer 1).any fun q =>
            decide (p ∉ s.stored.mempool ∧ p.outpoints = q.outpoints ∧
              p.outpoints ≠ [])) = true := by
    decide +kernel
  rcases exists_of_okAnd hcheck with ⟨l, -, htest⟩
  simp only [Bool.and_eq_true, decide_eq_true_iff, Option.any_eq_true] at htest
  rcases htest with ⟨hstored, s, hrun, p, hfirst, q, hsecond, hlost, hinputs, hne⟩
  exact ⟨_, _, s, p, q, hstored, hrun, RpcServer.workers_of_answer hfirst,
    RpcServer.workers_of_answer hsecond, hlost, hinputs, hne⟩

/-- A schedule without the pattern load, foreign save, save disturbs nobody. -/
theorem undisturbed_of_sublist {schedule : List RpcAction}
    (h : ∀ c d, ¬[.load c, .save d, .save c].Sublist schedule) : Undisturbed schedule := by
  rintro c before between after rfl d hd
  apply h c d
  have hlast : [RpcAction.save c].Sublist (.save c :: after) := by simp
  have hboth := (List.singleton_sublist.mpr hd).append hlast
  exact (hboth.cons_cons _).trans (List.sublist_append_right before _)

/-- Two requests for different outputs that are received together and served one after the
other. -/
def servedSchedule (l : LicenseState) : List RpcAction :=
  [.receive 0 (spendRequest l 7 1000), .receive 1 (spendRequest l 8 2000), .load 0, .validate 0,
    .save 0, .load 1, .validate 1, .save 1]

theorem undisturbed_servedSchedule (l : LicenseState) : Undisturbed (servedSchedule l) := by
  apply undisturbed_of_sublist
  intro c d h
  simp only [servedSchedule, List.sublist_cons_iff, List.cons.injEq] at h
  simp at h
  omega

/-- Two workers at once, each with an output of its own: both transactions are stored. -/
theorem submissions_linearizable_pair :
    ∃ (stored : DevnetState) (schedule : List RpcAction) (s : RpcServer) (p q : PendingTxState),
      checkState stored = .ok () ∧ Undisturbed schedule ∧
      Machine.run RpcServer.step (.start stored) schedule = some s ∧
      s.workers 0 = some (.answered (.ok p)) ∧ s.workers 1 = some (.answered (.ok q)) ∧
      p.outpoints ≠ [] ∧ q.outpoints ≠ [] ∧ p ∈ s.stored.mempool ∧ q ∈ s.stored.mempool ∧
      ∀ o ∈ p.outpoints, o ∉ q.outpoints := by
  have hcheck : okAnd (okOr bootstrapLicenseStates.head? "no licence") (fun l =>
      decide (checkState (walletState l) = .ok ()) &&
        (Machine.run RpcServer.step (.start (walletState l)) (servedSchedule l)).any fun s =>
          (s.answer 0).any fun p => (s.answer 1).any fun q =>
            decide (p.outpoints ≠ [] ∧ q.outpoints ≠ [])) = true := by
    decide +kernel
  rcases exists_of_okAnd hcheck with ⟨l, -, htest⟩
  simp only [Bool.and_eq_true, decide_eq_true_iff, Option.any_eq_true] at htest
  rcases htest with ⟨hstored, s, hrun, p, hfirst, q, hsecond, hp, hq⟩
  have hquiet := undisturbed_servedSchedule l
  have hworker := RpcServer.workers_of_answer hfirst
  have hworker' := RpcServer.workers_of_answer hsecond
  rcases submissions_linearizable _ _ s hrun hquiet with ⟨hkept, hapart⟩
  exact ⟨_, _, s, p, q, hstored, hquiet, hrun, hworker, hworker', hp, hq, hkept 0 p hworker,
    hkept 1 q hworker', hapart 0 1 p q Nat.zero_ne_one hworker hworker'⟩

end Evaluation

end Mutiny
