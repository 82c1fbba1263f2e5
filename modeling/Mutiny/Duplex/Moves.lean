import Mutiny.Duplex.Session

/-!
# What an action of a duplex session can do

The callers and the reader of a session take turns in any order.  All that an action of one
of them can do to the table of pending requests, to the channels of the callers and to the
phases is said here once; what holds over every interleaving is derived from it.
-/

namespace Mutiny.Duplex

open Result

/-! ## The table -/

variable {s : Inner} {id : UInt64} {e : UInt64 × PendingRequest}

theorem Inner.mem_remove :
    e ∈ (s.remove id).pending ↔ e ∈ s.pending ∧ e.1 ≠ id := by
  simp [Inner.remove]

variable {request : PendingRequest}

theorem Inner.mem_of_get (h : s.get id = some request) :
    (id, request) ∈ s.pending := by
  rw [Inner.get, Option.map_eq_some_iff] at h
  rcases h with ⟨e, hfind, rfl⟩
  have hkey : e.1 = id := by simpa using List.find?_some hfind
  rw [← hkey]
  exact List.mem_of_find?_eq_some hfind

theorem Inner.insertPending_eq_ok {s' : Inner} :
    s.insertPending id request = .ok s' ↔
      s.get id = none ∧ s.pending.length < s.limits.maxPendingRequests ∧
        s' = { s with pending := (id, request) :: s.pending } := by
  simp only [Inner.insertPending, ok_rules, Bool.not_eq_true, Option.isSome_eq_false_iff,
    Option.isNone_iff_eq_none, Nat.not_le]
  constructor
  · rintro ⟨_, hnew, _, hroom, rfl⟩
    exact ⟨hnew, hroom, rfl⟩
  · rintro ⟨hnew, hroom, rfl⟩
    exact ⟨(), hnew, (), hroom, rfl⟩

theorem Inner.get_eq_none :
    s.get id = none ↔ ∀ e ∈ s.pending, e.1 ≠ id := by
  rw [Inner.get, Option.map_eq_none_iff, List.find?_eq_none]
  simp

/-! ## Callers -/

/-- The call is past its insertion. -/
def Call.Inserted (call : Call) : Prop :=
  match call.phase with
  | .opening | .allocating | .entering | .locking => False
  | _ => True

/-- The call has not returned. -/
def Call.Running (call : Call) : Prop := ∀ result, call.phase ≠ .returned result

/-- All that an action of call {lit}`c` can do, whose channel is connected or not. -/
inductive CallMove (s : Inner) (c : Nat) (connected : Bool) (call : Call) : Inner → Call → Prop
  /-- It goes on before its insertion, or is refused. -/
  | before {next : UInt64} {call' : Call} (hbefore : ¬ call.Inserted)
      (hnext : ¬ call'.Inserted ∨ ∃ e, call'.phase = .returned (.error e))
      (hdeclared : call'.phase = .locking → call'.request.expectedTypes ≠ []) :
      CallMove s c connected call { s with nextRequestId := next } call'
  /-- It enters the table. -/
  | insert (hphase : call.phase = .locking) (hnew : s.get call.id = none)
      (hroom : s.pending.length < s.limits.maxPendingRequests) :
      CallMove s c connected call
        { s with pending := (call.id, ⟨call.request.expectedTypes, c⟩) :: s.pending }
        { call with phase := .framing }
  /-- It goes on after its insertion, or gives up and leaves its entry. -/
  | goOn {phase : Phase} (hinserted : call.Inserted) (hrunning : call.Running)
      (hinserted' : Call.Inserted { call with phase := phase })
      (hok : ∀ f, phase ≠ .returned (.ok f))
      (hleft : ∀ result, phase = .returned result →
        maxP2pPayload < call.request.payload.length ∨ connected = false) :
      CallMove s c connected call s { call with phase := phase }
  /-- It gives up and clears the table under its identifier. -/
  | giveUp {e : DuplexError} (hinserted : call.Inserted) (hrunning : call.Running) :
      CallMove s c connected call (s.remove call.id) (call.finish (.error e))
  /-- It returns with what was sent to it. -/
  | receive {message : PendingResult} {rest : List PendingResult} (hinserted : call.Inserted)
      (hrunning : call.Running) (hinbox : s.inbox c = message :: rest) :
      CallMove s c connected call { s with inbox := Function.update s.inbox c rest }
        (call.finish (message.mapError .readerStopped))

/-- Another phase after the insertion that is no return. -/
theorem CallMove.to_phase {s : Inner} {c : Nat} {connected : Bool} {call : Call} (phase : Phase)
    (hinserted : call.Inserted) (hrunning : call.Running)
    (hinserted' : Call.Inserted { call with phase := phase })
    (hrunning' : Call.Running { call with phase := phase }) :
    CallMove s c connected call s { call with phase := phase } :=
  .goOn hinserted hrunning hinserted' (fun f => hrunning' (.ok f))
    fun result hphase => absurd hphase (hrunning' result)

/-- Every step of a call is a move. -/
theorem Call.move_of_step {s inner : Inner} {c : Nat} {connected : Bool} {call call' : Call}
    {event : CallEvent} (h : call.step s c connected event = some (inner, call')) :
    CallMove s c connected call inner call' := by
  rcases call with ⟨request, id, phase⟩
  cases phase with
  | opening =>
    simp only [Call.step, Option.some.injEq, Prod.mk.injEq] at h
    rcases h with ⟨rfl, rfl⟩
    cases s.closed
    · exact .before (fun h => h) (.inl fun h => h) (by simp)
    · exact .before (fun h => h) (.inr ⟨_, rfl⟩) (by simp [Call.finish])
  | allocating =>
    simp only [Call.step, Option.some.injEq, Prod.mk.injEq] at h
    rcases h with ⟨rfl, rfl⟩
    refine .before (fun h => h) (.inl ?_) ?_
    · split <;> exact fun h => h
    · split <;> intro h <;> cases h
  | entering =>
    simp only [Call.step, Option.some.injEq, Prod.mk.injEq] at h
    rcases h with ⟨rfl, rfl⟩
    by_cases htypes : request.expectedTypes = []
    · rw [if_pos htypes]
      exact .before (fun h => h) (.inr ⟨_, rfl⟩) (by simp [Call.finish])
    rw [if_neg htypes]
    cases s.closed
    · exact .before (fun h => h) (.inl fun h => h) fun _ => htypes
    · exact .before (fun h => h) (.inr ⟨_, rfl⟩) (by simp [Call.finish])
  | locking =>
    cases hinsert : s.insertPending id ⟨request.expectedTypes, c⟩ with
    | error e =>
      simp only [Call.step, hinsert, Option.some.injEq, Prod.mk.injEq] at h
      rcases h with ⟨rfl, rfl⟩
      exact .before (fun h => h) (.inr ⟨_, rfl⟩) (by simp [Call.finish])
    | ok inserted =>
      simp only [Call.step, hinsert, Option.some.injEq, Prod.mk.injEq] at h
      rcases h with ⟨rfl, rfl⟩
      rcases Inner.insertPending_eq_ok.mp hinsert with ⟨hnew, hroom, rfl⟩
      exact .insert rfl hnew hroom
  | framing =>
    cases hframe : Frame.new s.magic request.messageType id request.payload with
    | error e =>
      simp only [Call.step, hframe, Option.some.injEq, Prod.mk.injEq] at h
      rcases h with ⟨rfl, rfl⟩
      -- the entry stays, and the payload is too large
      have hlarge : maxP2pPayload < request.payload.length := by
        by_contra hfits
        rw [Frame.new, reject_of_not hfits] at hframe
        cases hframe
      exact .goOn trivial (by simp [Call.Running]) trivial (by simp) fun _ _ => .inl hlarge
    | ok frame =>
      simp only [Call.step, hframe, Option.some.injEq, Prod.mk.injEq] at h
      rcases h with ⟨rfl, rfl⟩
      exact .to_phase (.sending frame) trivial (by simp [Call.Running]) trivial
        (by simp [Call.Running])
  | sending frame =>
    simp only [Call.step, Option.some.injEq, Prod.mk.injEq] at h
    rcases h with ⟨rfl, rfl⟩
    cases s.closed <;>
      exact .to_phase _ trivial (by simp [Call.Running]) trivial (by simp [Call.Running])
  | writing frame =>
    cases event <;> simp only [Call.step, Option.some.injEq, Prod.mk.injEq] at h <;>
      rcases h with ⟨rfl, rfl⟩ <;>
      exact .to_phase _ trivial (by simp [Call.Running]) trivial (by simp [Call.Running])
  | cancelling e =>
    simp only [Call.step, Option.some.injEq, Prod.mk.injEq] at h
    rcases h with ⟨rfl, rfl⟩
    exact .giveUp trivial (by simp [Call.Running])
  | waiting =>
    have hinserted : Call.Inserted ⟨request, id, .waiting⟩ := trivial
    have hrunning : Call.Running ⟨request, id, .waiting⟩ := by simp [Call.Running]
    cases hmessages : s.inbox c with
    | cons message rest =>
      have hmove : CallMove s c connected _ _ _ := .receive hinserted hrunning hmessages
      cases message <;>
        simp only [Call.step, hmessages, Option.some.injEq, Prod.mk.injEq] at h <;>
        rcases h with ⟨rfl, rfl⟩ <;> exact hmove
    | nil =>
      cases event <;> cases connected <;> simp [Call.step, hmessages] at h
      all_goals rcases h with ⟨rfl, rfl⟩
      -- nobody is left to answer, or the time is up
      · exact .goOn hinserted hrunning trivial (by simp) fun _ _ => .inr rfl
      · exact .goOn hinserted hrunning trivial (by simp) fun _ _ => .inr rfl
      · exact .to_phase .expiring hinserted hrunning trivial (by simp [Call.Running])
  | expiring =>
    simp only [Call.step, Option.some.injEq, Prod.mk.injEq] at h
    rcases h with ⟨rfl, rfl⟩
    exact .giveUp trivial (by simp [Call.Running])
  | returned result => cases h

/-! ## The reader -/

/-- The frame the reader has received and not yet passed on. -/
def ReaderPhase.carries : ReaderPhase → Option Frame
  | .routing _ f | .delivering _ _ f | .forwarding _ f => some f
  | _ => none

/-- The frame that an action of the reader receives. -/
def ReaderPhase.receives : ReaderPhase → ReaderEvent → List Frame
  | .reading _, .frame f _ => [f]
  | _, _ => []

/-- All that an action of the reader can do. -/
inductive ReaderMove (s : Inner) (phase : ReaderPhase) (event : ReaderEvent) :
    Inner → ReaderPhase → Prop
  /-- It goes on without touching the table or a channel. -/
  | goOn {closed : Bool} {unsolicited : List Frame} {next : ReaderPhase}
      (hclosed : s.closed = true → closed = true)
      (hdraining : ∀ reason, next = .draining reason → closed = true)
      (hholds : next.holds = none)
      (hcarries : ∀ f, next.carries = some f →
        phase.carries = some f ∧ phase.receives event = [] ∨ phase.receives event = [f]) :
      ReaderMove s phase event { s with closed := closed, unsolicited := unsolicited } next
  /-- It takes the entry that a frame answers. -/
  | route {w : Window} {waiter : PendingRequest} {f : Frame} (hphase : phase = .routing w f)
      (hget : s.get f.requestId = some waiter) (htype : f.messageType ∈ waiter.expectedTypes) :
      ReaderMove s phase event (s.remove f.requestId) (.delivering w waiter f)
  /-- It sends a frame to the caller whose entry it took. -/
  | deliver {w : Window} {waiter : PendingRequest} {f : Frame}
      (hphase : phase = .delivering w waiter f) :
      ReaderMove s phase event (s.send waiter.tx (.ok f)) (.reading w)
  /-- It ends and tells all callers. -/
  | drain {reason : String} (hphase : phase = .draining reason) :
      ReaderMove s phase event (s.drain reason) .stopped

/-- Every step of the reader is a move. -/
theorem ReaderMove.of_step {s inner : Inner} {phase next : ReaderPhase} {event : ReaderEvent}
    (h : readerStep s phase event = some (inner, next)) : ReaderMove s phase event inner next := by
  cases phase with
  | reading w =>
    cases event with
    | failure reason =>
      cases h
      exact .goOn (fun _ => rfl) (fun _ _ => rfl) rfl (by simp [ReaderPhase.carries])
    | proceed => cases h
    | frame f elapsed =>
      simp only [readerStep, Option.ite_none_right_eq_some] at h
      rcases h with ⟨-, h⟩
      split at h <;> cases h
      · exact .goOn (fun _ => rfl) (fun _ _ => rfl) rfl (by simp [ReaderPhase.carries])
      · refine .goOn (fun h => h) (by simp) rfl ?_
        intro g hg
        cases hg
        exact .inr rfl
  | routing w f =>
    simp only [readerStep] at h
    cases hget : s.get f.requestId with
    | none =>
      simp only [hget, Option.some.injEq, Prod.mk.injEq] at h
      rcases h with ⟨rfl, rfl⟩
      exact .goOn (fun h => h) (by simp) rfl fun g hg => .inl ⟨hg, rfl⟩
    | some waiter =>
      simp only [hget] at h
      by_cases htype : f.messageType ∈ waiter.expectedTypes
      · rw [if_pos htype, Option.some.injEq, Prod.mk.injEq] at h
        rcases h with ⟨rfl, rfl⟩
        exact .route rfl hget htype
      · rw [if_neg htype, Option.some.injEq, Prod.mk.injEq] at h
        rcases h with ⟨rfl, rfl⟩
        exact .goOn (fun h => h) (by simp) rfl fun g hg => .inl ⟨hg, rfl⟩
  | delivering w waiter f =>
    cases h
    exact .deliver rfl
  | forwarding w f =>
    simp only [readerStep] at h
    split at h <;> cases h
    · exact .goOn (fun h => h) (by simp) rfl (by simp [ReaderPhase.carries])
    · exact .goOn (fun _ => rfl) (fun _ _ => rfl) rfl (by simp [ReaderPhase.carries])
  | draining reason =>
    cases h
    exact .drain rfl
  | stopped => cases h

/-! ## Sessions -/

/-- The call that an action belongs to. -/
def Action.caller : Action → Option Nat
  | .request c _ | .requestWithId c _ _ | .call c _ => some c
  | .reader _ | .recvUnsolicited | .close => none

/-- All that an action can do to a session. -/
inductive Move (s : Session) : Action → Session → Prop
  /-- A call begins. -/
  | enter {action : Action} {c : Nat} {call : Call} (hnone : s.calls c = none)
      (hbefore : ¬ call.Inserted) (hphase : call.phase ≠ .locking)
      (hcaller : action.caller = some c) :
      Move s action { s with calls := Function.update s.calls c (some call) }
  | call {c : Nat} {event : CallEvent} {call call' : Call} {inner : Inner}
      (hcall : s.calls c = some call)
      (hmove : CallMove s.inner c (s.connected c) call inner call') :
      Move s (.call c event)
        { s with inner := inner, calls := Function.update s.calls c (some call') }
  | reader {event : ReaderEvent} {inner : Inner} {reader : ReaderPhase}
      (hmove : ReaderMove s.inner s.reader event inner reader) :
      Move s (.reader event) { s with inner := inner, reader := reader }
  /-- Something outside of the table and the channels changes. -/
  | other {action : Action} {closed : Bool} {unsolicited : List Frame}
      (hclosed : s.inner.closed = true → closed = true)
      (haction : ∀ event, action ≠ .reader event) :
      Move s action
        { s with inner := { s.inner with closed := closed, unsolicited := unsolicited } }

variable {s s' : Session} {action : Action}

theorem Session.move_of_step (h : s.step action = some s') : Move s action s' := by
  cases action with
  | request c r | requestWithId c id r =>
    simp only [Session.step, Session.enter] at h
    split at h <;> cases h
    exact .enter ‹_› (fun h => h) (by simp) rfl
  | call c event =>
    simp only [Session.step, Option.bind_eq_bind, Option.bind_eq_some_iff, Option.some.injEq] at h
    rcases h with ⟨call, hcall, ⟨inner, call'⟩, hstep, rfl⟩
    exact .call hcall (Call.move_of_step hstep)
  | reader event =>
    simp only [Session.step, Option.bind_eq_bind, Option.bind_eq_some_iff, Option.some.injEq] at h
    rcases h with ⟨⟨inner, reader⟩, hstep, rfl⟩
    exact .reader (.of_step hstep)
  | recvUnsolicited =>
    cases h
    exact .other (fun h => h) (by simp)
  | close =>
    cases h
    exact .other (fun _ => rfl) (by simp)

/-- An action leaves the other calls alone. -/
theorem Move.calls_of_ne (h : Move s action s') {c : Nat} (hc : action.caller ≠ some c) :
    s'.calls c = s.calls c := by
  cases h with
  | @enter _ d _ _ _ _ hcaller =>
    have hne : c ≠ d := fun heq => hc (heq ▸ hcaller)
    exact Function.update_of_ne hne _ _
  | @call d _ _ _ _ _ _ =>
    have hne : c ≠ d := fun heq => hc (heq ▸ rfl)
    exact Function.update_of_ne hne _ _
  | reader => rfl
  | other => rfl

theorem Inner.limits_drain (s : Inner) (reason : String) : (s.drain reason).limits = s.limits := by
  have hfold : ∀ (entries : List (UInt64 × PendingRequest)) (s : Inner),
      (entries.foldl (fun s e => s.send e.2.tx (.error reason)) s).limits = s.limits := by
    intro entries
    induction entries with
    | nil => exact fun s => rfl
    | cons e entries ih => exact fun s => ih _
  exact hfold s.pending s

/-- The limits of a session are fixed. -/
theorem Move.limits (h : Move s action s') : s'.inner.limits = s.inner.limits := by
  cases h with
  | enter => rfl
  | call _ hmove => cases hmove <;> rfl
  | reader hmove =>
    cases hmove with
    | goOn => rfl
    | route => rfl
    | deliver => rfl
    | drain => exact Inner.limits_drain _ _
  | other => rfl

end Mutiny.Duplex
