import Mutiny.Duplex.Moves

/-!
# Pending requests of a duplex session

Every way out of a request has to take its entry from the table of pending requests: the
reader takes it when it routes the answer or stops, the caller takes it when it cannot
send or times out.

Main result:

- Theorem {lit}`pending_released`: a call leaves no entry exactly if its payload fits in a
  frame.
-/

namespace Mutiny.Duplex

open Result

/-! ## Whose entries are in the table -/

/-- The call may have an entry in the table. -/
structure Call.MayHold (call : Call) : Prop where
  inserted : call.Inserted
  declared : call.request.expectedTypes ≠ []
  large : ∀ result, call.phase = .returned result → maxP2pPayload < call.request.payload.length

/-- The call had its entry, and it is gone. -/
def Session.Released (s : Session) (c : Nat) : Prop :=
  (∃ call, s.calls c = some call ∧ call.Inserted) ∧ ∀ e ∈ s.inner.pending, e.2.tx ≠ c

/-- Every entry is of a call that may have one, and nothing is on its way to a call whose
entry is still in the table. -/
structure Slots (s : Session) : Prop where
  owned : ∀ e ∈ s.inner.pending, ∃ call, s.calls e.2.tx = some call ∧ call.id = e.1 ∧ call.MayHold
  sent : ∀ c, s.inner.inbox c ≠ [] → s.Released c
  held : ∀ c, s.reader.holds = some c → s.Released c
  declared : ∀ c call, s.calls c = some call → call.phase = .locking →
    call.request.expectedTypes ≠ []

namespace Slots

variable {s : Session} {c : Nat} {call : Call}

/-- The calls after an action of call {lit}`c`. -/
theorem declared_update (hs : Slots s)
    (hcall : call.phase = .locking → call.request.expectedTypes ≠ []) (d : Nat) (callD : Call)
    (h : Function.update s.calls c (some call) d = some callD) :
    callD.phase = .locking → callD.request.expectedTypes ≠ [] := by
  by_cases hd : d = c
  · subst hd
    rw [Function.update_self, Option.some.injEq] at h
    exact h ▸ hcall
  · rw [Function.update_of_ne hd] at h
    exact hs.declared d callD h

variable {inner : Inner}

/-- An action of a call that adds no entry.  What is left of its own entries it may hold. -/
theorem of_call (hs : Slots s) {call' : Call} (hcall : s.calls c = some call)
    (hpending : ∀ e ∈ inner.pending, e ∈ s.inner.pending)
    (hinbox : ∀ d, inner.inbox d ≠ [] → s.inner.inbox d ≠ [])
    (hinserted : call.Inserted → call'.Inserted)
    (hdeclared : call'.phase = .locking → call'.request.expectedTypes ≠ [])
    (hown : ∀ e ∈ inner.pending, e.2.tx = c → call.id = e.1 → call.MayHold →
      call'.id = e.1 ∧ call'.MayHold) :
    Slots { s with inner := inner, calls := Function.update s.calls c (some call') } := by
  have hreleased : ∀ d, s.Released d →
      Session.Released { s with inner := inner, calls := Function.update s.calls c (some call') }
        d := by
    rintro d ⟨⟨callD, hcallD, hpast⟩, hgone⟩
    refine ⟨?_, fun e he => hgone e (hpending e he)⟩
    by_cases hd : d = c
    · subst hd
      rw [hcall, Option.some.injEq] at hcallD
      subst hcallD
      exact ⟨call', Function.update_self .., hinserted hpast⟩
    · exact ⟨callD, by rw [← hcallD]; exact Function.update_of_ne hd .., hpast⟩
  refine ⟨fun e he => ?_, fun d hd => hreleased d (hs.sent d (hinbox d hd)),
    fun d hd => hreleased d (hs.held d hd), hs.declared_update hdeclared⟩
  rcases hs.owned e (hpending e he) with ⟨callE, hcallE, hid, hmay⟩
  by_cases htx : e.2.tx = c
  · rw [htx, hcall, Option.some.injEq] at hcallE
    subst hcallE
    rcases hown e he htx hid hmay with ⟨hid', hmay'⟩
    exact ⟨call', by rw [htx]; exact Function.update_self .., hid', hmay'⟩
  · exact ⟨callE, by rw [← hcallE]; exact Function.update_of_ne htx .., hid, hmay⟩

/-- A call that ends with none of its entries left. -/
theorem of_finish (hs : Slots s) {result : Except DuplexError Frame} (hcall : s.calls c = some call)
    (hpending : ∀ e ∈ inner.pending, e ∈ s.inner.pending)
    (hinbox : ∀ d, inner.inbox d ≠ [] → s.inner.inbox d ≠ [])
    (hgone : ∀ e ∈ inner.pending, e.2.tx = c → call.id ≠ e.1) :
    Slots { s with inner := inner, calls := Function.update s.calls c (some (call.finish result)) } :=
  hs.of_call hcall hpending hinbox (fun _ => trivial) (fun h => by cases h)
    fun e he htx hid _ => absurd hid (hgone e he htx)

/-- The insertion of an entry. -/
theorem of_insert (hs : Slots s) (hcall : s.calls c = some call) (hphase : call.phase = .locking) :
    Slots { s with
      inner := { s.inner with
        pending := (call.id, ⟨call.request.expectedTypes, c⟩) :: s.inner.pending }
      calls := Function.update s.calls c (some { call with phase := .framing }) } := by
  -- before its insertion nothing of the call is anywhere
  have hnew : ¬ call.Inserted := by
    unfold Call.Inserted
    rw [hphase]
    exact id
  have hother : ∀ d, s.Released d → d ≠ c := by
    rintro d ⟨⟨callD, hcallD, hpast⟩, -⟩ rfl
    rw [hcall, Option.some.injEq] at hcallD
    exact hnew (hcallD ▸ hpast)
  have hreleased : ∀ d, s.Released d → Session.Released
      { s with
        inner := { s.inner with
          pending := (call.id, ⟨call.request.expectedTypes, c⟩) :: s.inner.pending }
        calls := Function.update s.calls c (some { call with phase := .framing }) } d := by
    intro d hd
    have hne := hother d hd
    rcases hd with ⟨⟨callD, hcallD, hpast⟩, hgone⟩
    refine ⟨⟨callD, by rw [← hcallD]; exact Function.update_of_ne hne .., hpast⟩, ?_⟩
    intro e he
    rcases List.mem_cons.mp he with rfl | he
    · exact hne.symm
    · exact hgone e he
  refine ⟨fun e he => ?_, fun d hd => hreleased d (hs.sent d hd),
    fun d hd => hreleased d (hs.held d hd), hs.declared_update fun h => by cases h⟩
  rcases List.mem_cons.mp he with rfl | he
  · exact ⟨_, Function.update_self .., rfl, trivial, hs.declared c call hcall hphase,
      fun _ h => by cases h⟩
  · rcases hs.owned e he with ⟨callE, hcallE, hid, hmay⟩
    have htx : e.2.tx ≠ c := by
      intro htx
      rw [htx, hcall, Option.some.injEq] at hcallE
      subst hcallE
      exact hnew hmay.inserted
    exact ⟨callE, by rw [← hcallE]; exact Function.update_of_ne htx .., hid, hmay⟩

end Slots

/-! ## Actions -/

/-- A call that waits with nobody left to answer has no entry. -/
theorem Session.not_mem_of_disconnected {s : Session} {c : Nat} {e : UInt64 × PendingRequest}
    (h : s.connected c = false) (he : e ∈ s.inner.pending) : e.2.tx ≠ c := by
  intro htx
  have hany : s.inner.pending.any (fun e => e.2.tx = c) = true :=
    List.any_eq_true.mpr ⟨e, he, decide_eq_true htx⟩
  rw [Session.connected, hany, Bool.true_or] at h
  cases h

namespace Slots

variable {s : Session} {inner : Inner}

theorem callMove (hs : Slots s) {c : Nat} {call call' : Call} (hcall : s.calls c = some call)
    (h : CallMove s.inner c (s.connected c) call inner call') :
    Slots { s with inner := inner, calls := Function.update s.calls c (some call') } := by
  cases h with
  | before hbefore _ hdeclared =>
    exact hs.of_call hcall (fun e he => he) (fun d hd => hd) (fun h => absurd h hbefore) hdeclared
      fun e _ _ _ hmay => absurd hmay.inserted hbefore
  | insert hphase => exact hs.of_insert hcall hphase
  | @goOn phase _ _ hinserted' _ hleft =>
    refine hs.of_call hcall (fun e he => he) (fun d hd => hd) (fun _ => hinserted') ?_ ?_
    · rintro rfl
      exact hinserted'.elim
    · intro e he htx hid hmay
      refine ⟨hid, hinserted', hmay.declared, fun result hphase => ?_⟩
      rcases hleft result hphase with hlarge | hdisconnected
      · exact hlarge
      · exact absurd htx (Session.not_mem_of_disconnected hdisconnected he)
  | giveUp =>
    exact hs.of_finish hcall (fun e he => (Inner.mem_remove.mp he).1) (fun d hd => hd)
      fun e he _ hid => (Inner.mem_remove.mp he).2 hid.symm
  | @receive message rest _ _ hinbox =>
    -- what was sent to the call was sent after its entry had left the table
    have hgone := (hs.sent c (by rw [hinbox]; exact List.cons_ne_nil _ _)).2
    refine hs.of_finish hcall (fun e he => he) (fun d hd => ?_) fun e he htx _ => hgone e he htx
    by_cases hdc : d = c
    · rw [hdc, hinbox]
      exact List.cons_ne_nil _ _
    · simpa only [Function.update_of_ne hdc] using hd

variable {reader : ReaderPhase}

/-- An action of the reader that adds no entry.  What it sends or holds is released. -/
theorem of_reader (hs : Slots s) (hpending : ∀ e ∈ inner.pending, e ∈ s.inner.pending)
    (hinbox : ∀ c, inner.inbox c ≠ [] → s.inner.inbox c ≠ [] ∨
      Session.Released { s with inner := inner, reader := reader } c)
    (hholds : ∀ c, reader.holds = some c →
      Session.Released { s with inner := inner, reader := reader } c) :
    Slots { s with inner := inner, reader := reader } := by
  refine ⟨fun e he => hs.owned e (hpending e he), fun c hc => ?_, hholds, hs.declared⟩
  rcases hinbox c hc with hold | hnew
  · rcases hs.sent c hold with ⟨hpast, hgone⟩
    exact ⟨hpast, fun e he => hgone e (hpending e he)⟩
  · exact hnew

variable {waiter : PendingRequest}

/-- The reader takes an entry from the table. -/
theorem of_route (hs : Slots s) {w : Window} {f : Frame}
    (hget : s.inner.get f.requestId = some waiter) :
    Slots { s with inner := s.inner.remove f.requestId, reader := .delivering w waiter f } := by
  refine hs.of_reader (fun e he => (Inner.mem_remove.mp he).1) (fun c hc => Or.inl hc) ?_
  intro c hc
  cases hc
  rcases hs.owned _ (Inner.mem_of_get hget) with ⟨call, hcall, hid, hmay⟩
  refine ⟨⟨call, hcall, hmay.inserted⟩, fun e he htx => ?_⟩
  -- all entries of one call have its identifier
  rcases Inner.mem_remove.mp he with ⟨he, hne⟩
  rcases hs.owned e he with ⟨callE, hcallE, hidE, -⟩
  rw [htx, hcall, Option.some.injEq] at hcallE
  subst hcallE
  exact hne (hidE.symm.trans hid)

theorem of_deliver (hs : Slots s) {w : Window} {f : Frame}
    (hphase : s.reader = .delivering w waiter f) (message : PendingResult) :
    Slots { s with inner := s.inner.send waiter.tx message, reader := .reading w } := by
  refine hs.of_reader (fun e he => he) ?_ (fun c hc => by cases hc)
  intro c hc
  by_cases htx : c = waiter.tx
  · right
    rw [htx]
    exact hs.held waiter.tx (by rw [hphase]; rfl)
  · left
    simp only [Inner.send, Function.update_of_ne htx] at hc
    exact hc

end Slots

/-- What a drained table sends. -/
theorem Inner.inbox_foldl_send (entries : List (UInt64 × PendingRequest)) (reason : String)
    (s : Inner) (c : Nat)
    (h : (entries.foldl (fun s e => s.send e.2.tx (.error reason)) s).inbox c ≠ []) :
    s.inbox c ≠ [] ∨ ∃ e ∈ entries, e.2.tx = c := by
  induction entries generalizing s with
  | nil => exact Or.inl h
  | cons e entries ih =>
    rcases ih (s.send e.2.tx (.error reason)) h with hsent | ⟨e', he', htx⟩
    · by_cases htx : c = e.2.tx
      · exact Or.inr ⟨e, List.mem_cons_self, htx.symm⟩
      · simp only [Inner.send, Function.update_of_ne htx] at hsent
        exact Or.inl hsent
    · exact Or.inr ⟨e', List.mem_cons_of_mem e he', htx⟩

namespace Slots

variable {s : Session}

theorem of_drain (hs : Slots s) (reason : String) :
    Slots { s with inner := s.inner.drain reason, reader := .stopped } := by
  refine hs.of_reader (fun e he => absurd he List.not_mem_nil) ?_ (fun c hc => by cases hc)
  intro c hc
  rcases Inner.inbox_foldl_send s.inner.pending reason s.inner c hc with hold | ⟨e, he, rfl⟩
  · exact Or.inl hold
  · right
    rcases hs.owned e he with ⟨call, hcall, -, hmay⟩
    exact ⟨⟨call, hcall, hmay.inserted⟩, fun e he => absurd he List.not_mem_nil⟩

theorem readerMove (hs : Slots s) {inner : Inner} {reader : ReaderPhase} {event : ReaderEvent}
    (h : ReaderMove s.inner s.reader event inner reader) :
    Slots { s with inner := inner, reader := reader } := by
  cases h with
  | goOn _ _ hholds =>
    refine hs.of_reader (fun e he => he) (fun c hc => .inl hc) fun c hc => ?_
    rw [hholds] at hc
    cases hc
  | route _ hget => exact hs.of_route hget
  | deliver hphase => exact hs.of_deliver hphase _
  | drain => exact hs.of_drain _

/-- A new call has no entry. -/
theorem enter (hs : Slots s) {c : Nat} {call : Call} (hnone : s.calls c = none)
    (hphase : call.phase ≠ .locking) :
    Slots { s with calls := Function.update s.calls c (some call) } := by
  have hkept : ∀ d callD, s.calls d = some callD →
      Function.update s.calls c (some call) d = some callD := by
    intro d callD hd
    have hne : d ≠ c := by
      rintro rfl
      rw [hnone] at hd
      cases hd
    rw [← hd]
    exact Function.update_of_ne hne ..
  have hreleased : ∀ d, s.Released d →
      Session.Released { s with calls := Function.update s.calls c (some call) } d := by
    rintro d ⟨⟨callD, hcallD, hpast⟩, hgone⟩
    exact ⟨⟨callD, hkept d callD hcallD, hpast⟩, hgone⟩
  refine ⟨fun e he => ?_, fun d hd => hreleased d (hs.sent d hd),
    fun d hd => hreleased d (hs.held d hd), hs.declared_update fun h => absurd h hphase⟩
  rcases hs.owned e he with ⟨callE, hcallE, hid, hmay⟩
  exact ⟨callE, hkept _ callE hcallE, hid, hmay⟩

/-- Every action keeps what the entries of the table stand for. -/
theorem step (hs : Slots s) {s' : Session} {action : Action} (h : s.step action = some s') :
    Slots s' := by
  have hmove := Session.move_of_step h
  cases hmove with
  | enter hnone _ hphase => exact hs.enter hnone hphase
  | call hcall hmove => exact hs.callMove hcall hmove
  | reader hmove => exact hs.readerMove hmove
  | other => exact ⟨hs.owned, hs.sent, hs.held, hs.declared⟩

end Slots

/-! ## A request that does not fit -/

variable {c : Nat} {event : CallEvent}

/-- The next action of a call that does not wait. -/
theorem Session.step_call {inner inner' : Inner} {reader : ReaderPhase} {calls : Nat → Option Call} {call call' : Call}
    (h : ∀ connected, call.step inner c connected event = some (inner', call')) :
    Session.step ⟨inner, reader, Function.update calls c (some call)⟩ (.call c event) =
      some ⟨inner', reader, Function.update calls c (some call')⟩ := by
  simp only [Session.step, Function.update_self, Option.bind_eq_bind, Option.bind_some, h,
    Function.update_idem]

/-- The call of a request that does not fit, up to its return. -/
def leakSchedule (c : Nat) (id : UInt64) (r : Request) : List Action :=
  [.requestWithId c id r, .call c .proceed, .call c .proceed, .call c .proceed]

/-- A session after the call. -/
def Session.leaked (s : Session) (c : Nat) (id : UInt64) (r : Request) : Session :=
  { s with
    inner := { s.inner with pending := (id, ⟨r.expectedTypes, c⟩) :: s.inner.pending }
    calls := Function.update s.calls c
      (some ⟨r, id, .returned (.error (.p2p .payloadTooLarge))⟩) }

theorem Session.calls_leaked_self (s : Session) (c : Nat) (id : UInt64) (r : Request) :
    (s.leaked c id r).calls c = some ⟨r, id, .returned (.error (.p2p .payloadTooLarge))⟩ := by
  simp only [Session.leaked, Function.update_self]

theorem Session.calls_leaked_of_ne (s : Session) {d : Nat} (id : UInt64) (r : Request) (h : d ≠ c) :
    (s.leaked c id r).calls d = s.calls d := by
  simp only [Session.leaked, Function.update_of_ne h]

/-- Whatever else is going on, such a call returns and leaves its entry. -/
theorem run_leakSchedule (s : Session) (c : Nat) (id : UInt64) {r : Request}
    (hnew : s.calls c = none) (hopen : s.inner.closed = false) (hid : s.inner.get id = none)
    (hroom : s.inner.pending.length < s.inner.limits.maxPendingRequests)
    (htypes : r.expectedTypes ≠ []) (hlarge : maxP2pPayload < r.payload.length) :
    Machine.run Session.step s (leakSchedule c id r) = some (s.leaked c id r) := by
  have hinsert : s.inner.insertPending id ⟨r.expectedTypes, c⟩ = .ok (s.leaked c id r).inner :=
    Inner.insertPending_eq_ok.mpr ⟨hid, hroom, rfl⟩
  have hframe : Frame.new (s.leaked c id r).inner.magic r.messageType id r.payload =
      .error .payloadTooLarge := by
    rw [Frame.new, reject_of hlarge]
    rfl
  have henter : s.step (.requestWithId c id r) =
      some { s with calls := Function.update s.calls c (some ⟨r, id, .entering⟩) } := by
    simp only [Session.step, Session.enter, hnew]
  have hchecked : ∀ connected, Call.step s.inner c connected ⟨r, id, .entering⟩ .proceed =
      some (s.inner, ⟨r, id, .locking⟩) := fun _ => by simp [Call.step, htypes, hopen]
  have hinserted : ∀ connected, Call.step s.inner c connected ⟨r, id, .locking⟩ .proceed =
      some ((s.leaked c id r).inner, ⟨r, id, .framing⟩) := fun _ => by
    simp only [Call.step, hinsert]
  have hreturned : ∀ connected,
      Call.step (s.leaked c id r).inner c connected ⟨r, id, .framing⟩ .proceed =
        some ((s.leaked c id r).inner, ⟨r, id, .returned (.error (.p2p .payloadTooLarge))⟩) :=
    fun _ => by
      simp only [Call.step, hframe, Call.finish]
  rw [leakSchedule, Machine.run_cons, henter, Option.bind_some, Machine.run_cons,
    Session.step_call hchecked, Option.bind_some, Machine.run_cons,
    Session.step_call hinserted, Option.bind_some, Machine.run_cons,
    Session.step_call hreturned, Option.bind_some, Machine.run_nil]
  rfl

/-! ## Runs -/

/-- A request whose payload fits in a frame, or that is refused before it is framed. -/
def Request.Fits (r : Request) : Prop := r.payload.length ≤ maxP2pPayload ∨ r.expectedTypes = []

/-- No call with the request that has returned left an entry in the table. -/
def Session.Clears (s : Session) (r : Request) : Prop :=
  ∀ c call result, s.calls c = some call → call.request = r → call.phase = .returned result →
    ∀ e ∈ s.inner.pending, e.2.tx ≠ c

/-- No call is in progress. -/
def Session.Quiet (s : Session) : Prop :=
  ∀ c call, s.calls c = some call → ∃ result, call.phase = .returned result

variable {limits : DuplexLimits}

theorem fromAuthenticatedStreamWithLimits_eq_ok {magic : UInt32} {lane : Bool} {start : Session}
    (h : fromAuthenticatedStreamWithLimits magic lane limits = .ok start) :
    limits.maxPendingRequests ≠ 0 ∧ start =
      { inner :=
          { magic, pending := [], unsolicited := [], limits, closed := false
            nextRequestId := if lane then laneBit else 1
            laneHighBit := lane, inbox := fun _ => [] }
        reader := .reading ⟨0, 0⟩
        calls := fun _ => none } := by
  simp only [fromAuthenticatedStreamWithLimits, ok_rules, not_or] at h
  rcases h with ⟨_, ⟨hpending, -⟩, rfl⟩
  exact ⟨hpending, rfl⟩

section Runs

variable {magic : UInt32} {lane : Bool} {limits : DuplexLimits} {start s : Session}

theorem Slots.reachable (hstart : fromAuthenticatedStreamWithLimits magic lane limits = .ok start)
    (h : Machine.Reachable Session.step start s) : Slots s ∧ s.inner.limits = limits := by
  rcases fromAuthenticatedStreamWithLimits_eq_ok hstart with ⟨-, rfl⟩
  refine h.invariant (P := fun s => Slots s ∧ s.inner.limits = limits) ⟨⟨?_, ?_, ?_, ?_⟩, rfl⟩ ?_
  · exact fun e he => absurd he List.not_mem_nil
  · exact fun c hc => absurd rfl hc
  · intro c hc
    cases hc
  · intro c call hcall
    cases hcall
  · intro s action s' hs hstep
    exact ⟨hs.1.step hstep, (Session.move_of_step hstep).limits.trans hs.2⟩

/-- A call that fits leaves no entry. -/
theorem Slots.clears (hs : Slots s) {r : Request} (hr : r.Fits) : s.Clears r := by
  intro c call result hcall hrequest hphase e he htx
  rcases hs.owned e he with ⟨callE, hcallE, -, hmay⟩
  rw [htx, hcall, Option.some.injEq] at hcallE
  subst hcallE
  have hlarge := hmay.large result hphase
  rw [hrequest] at hlarge
  rcases hr with hfits | hnone
  · omega
  · exact hmay.declared (hrequest ▸ hnone)

/-- If all requests fit, then between calls the table is empty. -/
theorem Slots.pending_eq_nil (hs : Slots s) (hquiet : s.Quiet)
    (hfits : ∀ c call, s.calls c = some call → call.request.Fits) : s.inner.pending = [] := by
  rw [List.eq_nil_iff_forall_not_mem]
  intro e he
  rcases hs.owned e he with ⟨call, hcall, -, -⟩
  rcases hquiet _ call hcall with ⟨result, hphase⟩
  exact hs.clears (hfits _ call hcall) _ call result hcall rfl hphase e he rfl

/-- Over every interleaving: the calls with a request leave no entry after they have
returned exactly if its payload fits in a frame; and if all requests of a run fit, then
whenever no call is in progress the table is empty and the next request is not refused
for its size. -/
theorem pending_released (hstart : fromAuthenticatedStreamWithLimits magic lane limits = .ok start) :
    (∀ r : Request, (∀ s, Machine.Reachable Session.step start s → s.Clears r) ↔ r.Fits) ∧
      ∀ s, Machine.Reachable Session.step start s → s.Quiet →
        (∀ c call, s.calls c = some call → call.request.Fits) →
          s.inner.pending = [] ∧
            ∀ id request reason, s.inner.insertPending id request ≠ .error (.resourceLimit reason) := by
  refine ⟨fun r => ⟨fun hclears => ?_, fun hr s h => (Slots.reachable hstart h).1.clears hr⟩, ?_⟩
  · by_contra hlarge
    rw [Request.Fits, not_or, not_le] at hlarge
    rcases fromAuthenticatedStreamWithLimits_eq_ok hstart with ⟨hroom, hfresh⟩
    have hrun := run_leakSchedule start 0 1 (by rw [hfresh]) (by rw [hfresh]) (by rw [hfresh]; rfl)
      (by rw [hfresh]; exact Nat.pos_of_ne_zero hroom) hlarge.2 hlarge.1
    exact hclears _ ⟨_, hrun⟩ 0 _ _ (start.calls_leaked_self 0 1 r) rfl rfl _ List.mem_cons_self rfl
  · intro s h hquiet hfits
    rcases Slots.reachable hstart h with ⟨hs, hlimits⟩
    have hempty := hs.pending_eq_nil hquiet hfits
    refine ⟨hempty, fun id request reason hrefused => ?_⟩
    have hroom := (fromAuthenticatedStreamWithLimits_eq_ok hstart).1
    have hok : s.inner.insertPending id request =
        .ok { s.inner with pending := (id, request) :: s.inner.pending } := by
      refine Inner.insertPending_eq_ok.mpr ⟨?_, ?_, rfl⟩
      · rw [Inner.get, hempty]
        rfl
      · rw [hempty, hlimits]
        exact Nat.pos_of_ne_zero hroom
    rw [hok] at hrefused
    cases hrefused

end Runs

/-! ## The table of a session fills up -/

/-- Payloads one byte over the limit. -/
def oversized : Request where
  messageType := 4
  payload := List.replicate (maxP2pPayload + 1) 0
  expectedTypes := [5]

/-- Calls that do not fit fill the table one by one. -/
theorem exists_leaks {magic : UInt32} {lane : Bool} {start : Session}
    (hstart : fromAuthenticatedStreamWithLimits magic lane limits = .ok start) (n : Nat)
    (hn : n ≤ limits.maxPendingRequests) (hword : n < 2 ^ 64) :
    ∃ s, Machine.Reachable Session.step start s ∧ s.inner.closed = false ∧ s.Quiet ∧
      s.inner.pending.length = n ∧ (∀ c, n ≤ c → s.calls c = none) ∧
      ∀ e ∈ s.inner.pending, e.1.toNat < n := by
  induction n with
  | zero =>
    rcases fromAuthenticatedStreamWithLimits_eq_ok hstart with ⟨-, rfl⟩
    exact ⟨_, ⟨[], rfl⟩, rfl, fun c call h => (by cases h), rfl, fun c _ => rfl,
      fun e he => absurd he List.not_mem_nil⟩
  | succ n ih =>
    rcases ih (by omega) (by omega) with ⟨s, hreach, hopen, hquiet, hlength, hnone, hids⟩
    have hid : (UInt64.ofNat n).toNat = n := UInt64.toNat_ofNat_of_lt' (Nat.lt_of_succ_lt hword)
    have hnew : s.inner.get (UInt64.ofNat n) = none := by
      cases hget : s.inner.get (UInt64.ofNat n) with
      | none => rfl
      | some request =>
        have hlt := hids _ (Inner.mem_of_get hget)
        rw [hid] at hlt
        omega
    have hlimits := (Slots.reachable hstart hreach).2
    have hrun := run_leakSchedule s n (UInt64.ofNat n) (r := oversized) (hnone n le_rfl) hopen hnew
      (by rw [hlength, hlimits]; omega) (List.cons_ne_nil _ _)
      (by rw [oversized, List.length_replicate]; exact Nat.lt_succ_self _)
    rcases hreach with ⟨schedule, hschedule⟩
    refine ⟨s.leaked n (UInt64.ofNat n) oversized,
      ⟨schedule ++ leakSchedule n (UInt64.ofNat n) oversized, ?_⟩, hopen, ?_, ?_, ?_, ?_⟩
    · rw [Machine.run_append, hschedule, Option.bind_some, hrun]
    · intro c call hcall
      by_cases hc : c = n
      · rw [hc, Session.calls_leaked_self, Option.some.injEq] at hcall
        exact ⟨_, by rw [← hcall]⟩
      · rw [Session.calls_leaked_of_ne _ _ _ hc] at hcall
        exact hquiet c call hcall
    · exact congrArg (· + 1) hlength
    · intro c hc
      rw [Session.calls_leaked_of_ne _ _ _ (by omega)]
      exact hnone c (by omega)
    · intro e he
      rcases List.mem_cons.mp he with rfl | he
      · rw [hid]
        exact Nat.lt_succ_self n
      · exact (hids e he).trans (Nat.lt_succ_self n)

/-- The magic number of the Devnet. -/
def p2pMagicDevnet : UInt32 := 0x4D555444

/-- After 64 calls that do not fit, an open session on which nothing is in progress
refuses every request. -/
theorem leaked_slots_refuse :
    ∃ start s, fromAuthenticatedStreamWithLimits p2pMagicDevnet false defaultLimits = .ok start ∧
      Machine.Reachable Session.step start s ∧ s.inner.closed = false ∧ s.Quiet ∧
      s.inner.pending.length = 64 ∧
      s.inner.insertPending 64 ⟨[5], 64⟩ =
        .error (.resourceLimit "pending request cap 64 reached") := by
  have hstart : ∃ start, fromAuthenticatedStreamWithLimits p2pMagicDevnet false defaultLimits =
      .ok start := ⟨_, rfl⟩
  rcases hstart with ⟨start, hstart⟩
  rcases exists_leaks hstart 64 le_rfl (by decide) with
    ⟨s, hreach, hopen, hquiet, hlength, -, hids⟩
  refine ⟨start, s, hstart, hreach, hopen, hquiet, hlength, ?_⟩
  have hlimits := (Slots.reachable hstart hreach).2
  have hnew : s.inner.get 64 = none := by
    cases hget : s.inner.get 64 with
    | none => rfl
    | some request => exact absurd (hids _ (Inner.mem_of_get hget)) (by decide : ¬ (64 : UInt64).toNat < 64)
  rw [Inner.insertPending, hnew, hlength, hlimits]
  rfl

/-- Requests that fit, on a session with the limits of the node. -/
theorem pending_released_default :
    ∃ start, fromAuthenticatedStreamWithLimits p2pMagicDevnet false defaultLimits = .ok start ∧
      ∀ s, Machine.Reachable Session.step start s → s.Clears ⟨4, [1, 2, 3], [5]⟩ := by
  have hstart : ∃ start, fromAuthenticatedStreamWithLimits p2pMagicDevnet false defaultLimits =
      .ok start := ⟨_, rfl⟩
  rcases hstart with ⟨start, hstart⟩
  exact ⟨start, hstart, ((pending_released hstart).1 ⟨4, [1, 2, 3], [5]⟩).mpr (Or.inl (by decide))⟩

end Mutiny.Duplex
