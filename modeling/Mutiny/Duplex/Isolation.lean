import Mutiny.Duplex.PendingSlots

/-!
# Concurrent requests of a duplex session

Callers that share a session must not get in each other's way: a caller gets the answer to
its own request, no frame goes to two callers, the table keeps to its cap, and the entry of
a request is taken from the table by nobody but the reader, for an answer or at the end of
the session, and the caller itself.  A caller that gives up takes the entry under its
request identifier, whoever's it is: the last of these fails when an identifier is used
again before the caller that had it has returned.

Main result:

- Theorem {lit}`concurrent_requests_isolated`: the four properties, over every interleaving.
-/

namespace Mutiny.Duplex

open Result

variable {s s' : Session} {action : Action}

/-! ## Where the frames go -/

/-- Call {lit}`c` is past its insertion, under the identifier and for the types given. -/
def Session.Asked (s : Session) (c : Nat) (id : UInt64) (types : List UInt16) : Prop :=
  ∃ call, s.calls c = some call ∧ call.Inserted ∧ call.id = id ∧ call.request.expectedTypes = types

/-- The frame has the identifier of call {lit}`c` and one of the types it expects. -/
def Session.Answers (s : Session) (c : Nat) (f : Frame) : Prop :=
  ∃ types, s.Asked c f.requestId types ∧ f.messageType ∈ types

/-- The frame that an action receives. -/
def Session.receives (s : Session) : Action → List Frame
  | .reader event => s.reader.receives event
  | _ => []

/-- The call got the frame, which is the one numbered {lit}`source c` of those received. -/
def Session.Got (s : Session) (received : List Frame) (source : Nat → Option Nat) (c : Nat)
    (f : Frame) : Prop :=
  s.Answers c f ∧ ∃ i, source c = some i ∧ received[i]? = some f

/-- Where the frames received so far went: {lit}`source` numbers the one that went to each
call. -/
structure Routed (received : List Frame) (source : Nat → Option Nat) (s : Session) : Prop where
  entry : ∀ e ∈ s.inner.pending, s.Asked e.2.tx e.1 e.2.expectedTypes ∧ source e.2.tx = none
  held : ∀ w waiter f, s.reader = .delivering w waiter f →
    s.Answers waiter.tx f ∧ source waiter.tx = none
  carried : ∀ f, s.reader.carries = some f → received.getLast? = some f ∧
    ∀ c i, source c = some i → i + 1 < received.length
  sent : ∀ c f, .ok f ∈ s.inner.inbox c → s.Got received source c f
  returned : ∀ c call f, s.calls c = some call → call.phase = .returned (.ok f) →
    s.Got received source c f
  bound : ∀ c i, source c = some i → i < received.length
  injective : ∀ c d i, source c = some i → source d = some i → c = d
  begun : ∀ c i, source c = some i → ∃ call, s.calls c = some call ∧ call.Inserted

theorem Session.receives_of_ne (h : ∀ event, action ≠ .reader event) : s.receives action = [] := by
  cases action with
  | reader event => exact absurd rfl (h event)
  | _ => rfl

/-- A call past its insertion keeps its identifier and its request. -/
theorem CallMove.kept {s inner : Inner} {c : Nat} {connected : Bool} {call call' : Call}
    (h : CallMove s c connected call inner call') (hinserted : call.Inserted) :
    call'.Inserted ∧ call'.id = call.id ∧ call'.request = call.request := by
  cases h with
  | before hbefore => exact absurd hinserted hbefore
  | insert => exact ⟨trivial, rfl, rfl⟩
  | goOn _ _ hinserted' => exact ⟨hinserted', rfl, rfl⟩
  | giveUp => exact ⟨trivial, rfl, rfl⟩
  | receive => exact ⟨trivial, rfl, rfl⟩

/-- What a call asked for, it asked for at all later times. -/
theorem Session.Asked.move {c : Nat} {id : UInt64} {types : List UInt16} (h : s.Asked c id types)
    (hmove : Move s action s') :
    s'.Asked c id types := by
  rcases h with ⟨call, hcall, hinserted, hid, htypes⟩
  cases hmove with
  | @enter _ c' _ hnone =>
    have hne : c ≠ c' := by
      rintro rfl
      rw [hnone] at hcall
      cases hcall
    exact ⟨call, (Function.update_of_ne hne ..).trans hcall, hinserted, hid, htypes⟩
  | @call c' _ old call' inner hold hstep =>
    by_cases hc : c = c'
    · subst hc
      rw [hcall, Option.some.injEq] at hold
      subst hold
      rcases hstep.kept hinserted with ⟨hinserted', hid', hrequest⟩
      exact ⟨call', Function.update_self .., hinserted', hid'.trans hid, hrequest ▸ htypes⟩
    · exact ⟨call, (Function.update_of_ne hc ..).trans hcall, hinserted, hid, htypes⟩
  | reader => exact ⟨call, hcall, hinserted, hid, htypes⟩
  | other => exact ⟨call, hcall, hinserted, hid, htypes⟩

theorem Session.Answers.move {c : Nat} {f : Frame} (h : s.Answers c f) (hmove : Move s action s') :
    s'.Answers c f := by
  rcases h with ⟨types, hasked, htype⟩
  exact ⟨types, hasked.move hmove, htype⟩

/-- What a call got, it got at all later times. -/
theorem Session.Got.move {received more : List Frame} {source : Nat → Option Nat} {c : Nat}
    {f : Frame} (h : s.Got received source c f) (hmove : Move s action s') :
    s'.Got (received ++ more) source c f := by
  rcases h with ⟨hanswers, i, hsource, hframe⟩
  refine ⟨hanswers.move hmove, i, hsource, ?_⟩
  have hi := (List.getElem?_eq_some_iff.mp hframe).1
  rw [List.getElem?_append_left hi, hframe]

/-- Draining the table sends no frame. -/
theorem Inner.ok_mem_drain {s : Inner} {reason : String} {c : Nat} {f : Frame}
    (h : .ok f ∈ (s.drain reason).inbox c) : .ok f ∈ s.inbox c := by
  have hfold : ∀ (entries : List (UInt64 × PendingRequest)) (s : Inner),
      .ok f ∈ (entries.foldl (fun s e => s.send e.2.tx (.error reason)) s).inbox c →
        .ok f ∈ s.inbox c := by
    intro entries
    induction entries with
    | nil => exact fun s h => h
    | cons e entries ih =>
      intro s h
      have hsent := ih _ h
      by_cases hc : c = e.2.tx
      · subst hc
        simpa [Inner.send] using hsent
      · simp only [Inner.send, Function.update_of_ne hc] at hsent
        exact hsent
  exact hfold s.pending s h

namespace Routed

variable {received : List Frame} {source : Nat → Option Nat} {s : Session}

/-- An action that passes no frame on. -/
theorem of_move (hr : Routed received source s) {s' : Session} {action : Action}
    (hmove : Move s action s')
    (hentry : ∀ e ∈ s'.inner.pending, e ∈ s.inner.pending ∨
      s'.Asked e.2.tx e.1 e.2.expectedTypes ∧ source e.2.tx = none)
    (hheld : ∀ w waiter f, s'.reader = .delivering w waiter f →
      s'.Answers waiter.tx f ∧ source waiter.tx = none)
    (hcarried : ∀ f, s'.reader.carries = some f →
      s.reader.carries = some f ∧ s.receives action = [] ∨ s.receives action = [f])
    (hsent : ∀ c f, .ok f ∈ s'.inner.inbox c → .ok f ∈ s.inner.inbox c)
    (hreturned : ∀ c call f, s'.calls c = some call → call.phase = .returned (.ok f) →
      s.calls c = some call ∨ .ok f ∈ s.inner.inbox c) :
    Routed (received ++ s.receives action) source s' where
  entry e he := by
    rcases hentry e he with hold | hnew
    · exact ⟨(hr.entry e hold).1.move hmove, (hr.entry e hold).2⟩
    · exact hnew
  held := hheld
  carried := by
    intro f hf
    rcases hcarried f hf with ⟨hold, hnone⟩ | hone
    · rw [hnone, List.append_nil]
      exact hr.carried f hold
    · rw [hone]
      refine ⟨by simp, fun c i hi => ?_⟩
      have := hr.bound c i hi
      simp only [List.length_append, List.length_singleton]
      omega
  sent c f hf := (hr.sent c f (hsent c f hf)).move hmove
  returned := by
    intro c call f hcall hphase
    rcases hreturned c call f hcall hphase with hold | hmessage
    · exact (hr.returned c call f hold hphase).move hmove
    · exact (hr.sent c f hmessage).move hmove
  bound c i hi := by
    have := hr.bound c i hi
    rw [List.length_append]
    omega
  injective := hr.injective
  begun := by
    intro c i hi
    rcases hr.begun c i hi with ⟨call, hcall, hinserted⟩
    rcases Session.Asked.move ⟨call, hcall, hinserted, rfl, rfl⟩ hmove with
      ⟨call', hcall', hinserted', -⟩
    exact ⟨call', hcall', hinserted'⟩

/-- An action of a call: only its entry may be new, and it may return only with what was sent
to it. -/
theorem of_call (hr : Routed received source s) {c : Nat} {call call' : Call} {inner : Inner}
    (hcall : s.calls c = some call)
    (hmove : CallMove s.inner c (s.connected c) call inner call') :
    Routed received source
      { s with inner := inner, calls := Function.update s.calls c (some call') } := by
  have hstep : Move s (.call c .proceed)
      { s with inner := inner, calls := Function.update s.calls c (some call') } :=
    .call hcall hmove
  -- a call before its insertion got nothing
  have hnothing : ¬ call.Inserted → source c = none := by
    intro hbefore
    cases hsource : source c with
    | none => rfl
    | some i =>
      rcases hr.begun c i hsource with ⟨callC, hcallC, hinserted⟩
      rw [hcall, Option.some.injEq] at hcallC
      exact absurd (hcallC ▸ hinserted) hbefore
  have hown : (∀ f, call'.phase = .returned (.ok f) → .ok f ∈ s.inner.inbox c) →
      ∀ d callD f, Function.update s.calls c (some call') d = some callD →
        callD.phase = .returned (.ok f) → s.calls d = some callD ∨ .ok f ∈ s.inner.inbox d := by
    intro hok d callD f hcallD hphase
    by_cases hd : d = c
    · subst hd
      rw [Function.update_self, Option.some.injEq] at hcallD
      subst hcallD
      exact .inr (hok f hphase)
    · rw [Function.update_of_ne hd] at hcallD
      exact .inl hcallD
  have hdone : (∀ e ∈ inner.pending, e ∈ s.inner.pending ∨
        Session.Asked { s with inner := inner, calls := Function.update s.calls c (some call') }
          e.2.tx e.1 e.2.expectedTypes ∧ source e.2.tx = none) →
      (∀ d f, .ok f ∈ inner.inbox d → .ok f ∈ s.inner.inbox d) →
      (∀ f, call'.phase = .returned (.ok f) → .ok f ∈ s.inner.inbox c) →
      Routed received source
        { s with inner := inner, calls := Function.update s.calls c (some call') } := by
    intro hentry hsent hok
    have hnext := hr.of_move hstep hentry
      (fun w waiter f hphase => ⟨(hr.held w waiter f hphase).1.move hstep,
        (hr.held w waiter f hphase).2⟩)
      (fun f hf => .inl ⟨hf, rfl⟩) hsent (hown hok)
    rwa [show s.receives (.call c .proceed) = [] from rfl, List.append_nil] at hnext
  cases hmove with
  | before hbefore hnext =>
    refine hdone (fun e he => .inl he) (fun d f hf => hf) ?_
    intro f hphase
    rcases hnext with hbefore' | ⟨e, herror⟩
    · exact absurd (by rw [Call.Inserted, hphase]; trivial) hbefore'
    · rw [hphase] at herror
      cases herror
  | insert hphase hnew hroom =>
    refine hdone ?_ (fun d f hf => hf) nofun
    intro e he
    rcases List.mem_cons.mp he with rfl | hold
    · refine .inr ⟨⟨_, Function.update_self .., trivial, rfl, rfl⟩, hnothing ?_⟩
      rw [Call.Inserted, hphase]
      exact fun h => h
    · exact .inl hold
  | goOn hinserted hrunning hinserted' hok =>
    exact hdone (fun e he => .inl he) (fun d f hf => hf) fun f hphase => absurd hphase (hok f)
  | giveUp =>
    exact hdone (fun e he => .inl (Inner.mem_remove.mp he).1) (fun d f hf => hf) nofun
  | @receive message rest hinserted hrunning hinbox =>
    refine hdone (fun e he => .inl he) ?_ ?_
    · intro d f hf
      by_cases hd : d = c
      · subst hd
        simp only [Function.update_self] at hf
        rw [hinbox]
        exact List.mem_cons_of_mem _ hf
      · simp only [Function.update_of_ne hd] at hf
        exact hf
    · intro f hphase
      cases message with
      | error reason => cases hphase
      | ok g =>
        cases hphase
        rw [hinbox]
        exact List.mem_cons_self

/-- The reader sends the frame it carries to the caller whose entry it took. -/
theorem of_deliver (hr : Routed received source s) (hs : Slots s) {w : Window}
    {waiter : PendingRequest} {f : Frame} (hphase : s.reader = .delivering w waiter f) :
    Routed received (Function.update source waiter.tx (some (received.length - 1)))
      { s with inner := s.inner.send waiter.tx (.ok f), reader := .reading w } := by
  have hheld := hr.held w waiter f hphase
  rcases hr.carried f (by rw [hphase]; rfl) with ⟨hlast, hbelow⟩
  have hlength : 0 < received.length := by
    cases received with
    | nil => cases hlast
    | cons g rest => exact Nat.succ_pos _
  -- the caller got nothing before
  have hother : ∀ c g, s.Got received source c g → c ≠ waiter.tx := by
    rintro c g ⟨-, i, hsource, -⟩ rfl
    rw [hheld.2] at hsource
    cases hsource
  have hgot : ∀ c g, s.Got received source c g → Session.Got
      { s with inner := s.inner.send waiter.tx (.ok f), reader := .reading w } received
      (Function.update source waiter.tx (some (received.length - 1))) c g := by
    intro c g h
    have hne := hother c g h
    rcases h with ⟨hanswers, i, hsource, hframe⟩
    exact ⟨hanswers, i, (Function.update_of_ne hne ..).trans hsource, hframe⟩
  have hnew : Session.Got
      { s with inner := s.inner.send waiter.tx (.ok f), reader := .reading w } received
      (Function.update source waiter.tx (some (received.length - 1))) waiter.tx f := by
    refine ⟨hheld.1, received.length - 1, Function.update_self .., ?_⟩
    rw [← List.getLast?_eq_getElem?, hlast]
  refine ⟨?_, nofun, nofun, ?_, ?_, ?_, ?_, ?_⟩
  · intro e he
    have hne : e.2.tx ≠ waiter.tx := (hs.held waiter.tx (by rw [hphase]; rfl)).2 e he
    exact ⟨(hr.entry e he).1, (Function.update_of_ne hne ..).trans (hr.entry e he).2⟩
  · intro c g hg
    by_cases hc : c = waiter.tx
    · subst hc
      simp only [Inner.send, Function.update_self, List.mem_append, List.mem_singleton,
        Except.ok.injEq] at hg
      rcases hg with hold | rfl
      · exact hgot _ _ (hr.sent _ _ hold)
      · exact hnew
    · simp only [Inner.send, Function.update_of_ne hc] at hg
      exact hgot c g (hr.sent c g hg)
  · intro c call g hcall hreturned
    exact hgot c g (hr.returned c call g hcall hreturned)
  · intro c i hi
    by_cases hc : c = waiter.tx
    · subst hc
      rw [Function.update_self, Option.some.injEq] at hi
      omega
    · rw [Function.update_of_ne hc] at hi
      exact hr.bound c i hi
  · intro c d i hi hj
    by_cases hc : c = waiter.tx <;> by_cases hd : d = waiter.tx
    · rw [hc, hd]
    · rw [hc, Function.update_self, Option.some.injEq] at hi
      rw [Function.update_of_ne hd] at hj
      have := hbelow d i hj
      omega
    · rw [hd, Function.update_self, Option.some.injEq] at hj
      rw [Function.update_of_ne hc] at hi
      have := hbelow c i hi
      omega
    · rw [Function.update_of_ne hc] at hi
      rw [Function.update_of_ne hd] at hj
      exact hr.injective c d i hi hj
  · intro c i hi
    by_cases hc : c = waiter.tx
    · rcases hheld.1 with ⟨types, ⟨call, hcall, hinserted, -⟩, -⟩
      exact ⟨call, hc ▸ hcall, hinserted⟩
    · rw [Function.update_of_ne hc] at hi
      exact hr.begun c i hi

/-- An action of the reader other than passing a frame on. -/
theorem of_reader (hr : Routed received source s) (hs : Slots s) {event : ReaderEvent}
    {inner : Inner} {reader : ReaderPhase}
    (hmove : ReaderMove s.inner s.reader event inner reader) :
    ∃ source', Routed (received ++ s.receives (.reader event)) source'
      { s with inner := inner, reader := reader } := by
  have hstep := Move.reader hmove
  have hkept : ∀ c call f, s.calls c = some call → call.phase = .returned (.ok f) →
      s.calls c = some call ∨ .ok f ∈ s.inner.inbox c := fun _ _ _ hcall _ => .inl hcall
  cases hmove with
  | goOn hclosed hdraining hholds hcarries =>
    refine ⟨source, hr.of_move hstep (fun e he => .inl he) ?_ hcarries (fun c f hf => hf) hkept⟩
    rintro w waiter f rfl
    cases hholds
  | @route w waiter f hphase hget htype =>
    refine ⟨source, hr.of_move hstep (fun e he => .inl (Inner.mem_remove.mp he).1) ?_ ?_
      (fun c f hf => hf) hkept⟩
    · intro w' waiter' f' heq
      cases heq
      rcases hr.entry _ (Inner.mem_of_get hget) with ⟨hasked, hsource⟩
      exact ⟨⟨waiter.expectedTypes, hasked, htype⟩, hsource⟩
    · intro g hg
      rw [Session.receives, hphase]
      exact .inl ⟨hg, rfl⟩
  | @deliver w waiter f hphase =>
    refine ⟨Function.update source waiter.tx (some (received.length - 1)), ?_⟩
    rw [Session.receives, hphase, show ReaderPhase.receives (.delivering w waiter f) event = []
      from rfl, List.append_nil]
    exact hr.of_deliver hs hphase
  | drain hphase =>
    exact ⟨source, hr.of_move hstep (fun e he => absurd he List.not_mem_nil) nofun nofun
      (fun c f hf => Inner.ok_mem_drain hf) hkept⟩

/-- Every action keeps where the frames went, and only the reader sends one somewhere. -/
theorem step (hr : Routed received source s) (hs : Slots s) {s' : Session} {action : Action}
    (h : s.step action = some s') :
    ∃ source', Routed (received ++ s.receives action) source' s' := by
  have hmove := Session.move_of_step h
  cases hmove with
  | @enter _ c call hnone hbefore hlocking hcaller =>
    have hmove := Session.move_of_step h
    have hreceives : s.receives action = [] := Session.receives_of_ne fun event heq => by
      rw [heq] at hcaller
      cases hcaller
    refine ⟨source, hr.of_move hmove (fun e he => .inl he) ?_ ?_ (fun c f hf => hf) ?_⟩
    · intro w waiter f hphase
      exact ⟨(hr.held w waiter f hphase).1.move hmove, (hr.held w waiter f hphase).2⟩
    · exact fun f hf => .inl ⟨hf, hreceives⟩
    · intro d callD f hcallD hphase
      by_cases hd : d = c
      · subst hd
        simp only [Function.update_self, Option.some.injEq] at hcallD
        subst hcallD
        exact absurd (by rw [Call.Inserted, hphase]; trivial) hbefore
      · simp only [Function.update_of_ne hd] at hcallD
        exact .inl hcallD
  | @call c event _ _ _ hcall hcallMove =>
    refine ⟨source, ?_⟩
    rw [show s.receives (.call c event) = [] from rfl, List.append_nil]
    exact hr.of_call hcall hcallMove
  | reader hreader => exact hr.of_reader hs hreader
  | other hclosed haction =>
    refine ⟨source, hr.of_move (.other hclosed haction) (fun e he => .inl he) hr.held ?_
      (fun c f hf => hf) fun _ _ _ hcall _ => .inl hcall⟩
    exact fun f hf => .inl ⟨hf, Session.receives_of_ne haction⟩

end Routed

/-! ## The table -/

/-- The reader only takes entries from the table. -/
theorem ReaderMove.pending {s inner : Inner} {phase next : ReaderPhase} {event : ReaderEvent}
    (h : ReaderMove s phase event inner next) : inner.pending.Sublist s.pending := by
  cases h with
  | goOn => exact .refl _
  | route => exact List.filter_sublist
  | deliver => exact .refl _
  | drain => exact List.nil_sublist _

/-- An action takes entries from the table or adds one. -/
theorem Move.pending (h : Move s action s') :
    s'.inner.pending.Sublist s.inner.pending ∨ ∃ id request, s.inner.get id = none ∧
      s.inner.pending.length < s.inner.limits.maxPendingRequests ∧
      s'.inner.pending = (id, request) :: s.inner.pending := by
  cases h with
  | enter => exact .inl (.refl _)
  | call hcall hmove =>
    cases hmove with
    | before => exact .inl (.refl _)
    | insert _ hnew hroom => exact .inr ⟨_, _, hnew, hroom, rfl⟩
    | goOn => exact .inl (.refl _)
    | giveUp => exact .inl List.filter_sublist
    | receive => exact .inl (.refl _)
  | reader hmove => exact .inl hmove.pending
  | other => exact .inl (.refl _)

/-- The table holds one entry under each identifier and keeps to its cap, and the reader that
is about to drain it has closed the session. -/
structure Table (s : Session) : Prop where
  keys : (s.inner.pending.map Prod.fst).Nodup
  cap : s.inner.pending.length ≤ s.inner.limits.maxPendingRequests
  closing : ∀ reason, s.reader = .draining reason → s.inner.closed = true

theorem Table.step (ht : Table s) (h : s.step action = some s') : Table s' := by
  have hmove := Session.move_of_step h
  have hlimits := hmove.limits
  have hclosing : ∀ reason, s'.reader = .draining reason → s'.inner.closed = true := by
    cases hmove with
    | enter => exact ht.closing
    | call hcall hcallMove =>
      intro reason hreader
      cases hcallMove <;> exact ht.closing reason hreader
    | reader hreader =>
      cases hreader with
      | goOn _ hdraining => exact hdraining
      | route => exact nofun
      | deliver => exact nofun
      | drain => exact nofun
    | other hclosed => exact fun reason hreader => hclosed (ht.closing reason hreader)
  rcases hmove.pending with hsub | ⟨id, request, hnew, hroom, hpending⟩
  · exact ⟨ht.keys.sublist (hsub.map _), by rw [hlimits]; exact hsub.length_le.trans ht.cap,
      hclosing⟩
  · refine ⟨?_, by rw [hlimits, hpending]; exact hroom, hclosing⟩
    rw [hpending, List.map_cons, List.nodup_cons]
    refine ⟨fun hmem => ?_, ht.keys⟩
    rcases List.mem_map.mp hmem with ⟨e, he, hkey⟩
    exact Inner.get_eq_none.mp hnew e he hkey

/-! ## Whose entry a caller that gives up finds -/

/-- The call that is about to enter the table uses the identifier of another one that entered
it and has not returned. -/
def Session.Reuses (s : Session) (action : Action) : Prop :=
  ∃ c event call d other, action = .call c event ∧ s.calls c = some call ∧
    call.phase = .locking ∧ d ≠ c ∧ s.calls d = some other ∧ other.Inserted ∧ other.Running ∧
    other.id = call.id

/-- The entry under the identifier of a call that has not returned is its own. -/
def Undisturbed (s : Session) : Prop :=
  ∀ e ∈ s.inner.pending, ∀ d call, s.calls d = some call → call.Inserted → call.Running →
    call.id = e.1 → d = e.2.tx

theorem Undisturbed.of_sublist (hu : Undisturbed s)
    (hpending : s'.inner.pending.Sublist s.inner.pending)
    (hcalls : ∀ d call, s'.calls d = some call → call.Inserted → call.Running →
      ∃ old, s.calls d = some old ∧ old.Inserted ∧ old.Running ∧ old.id = call.id) :
    Undisturbed s' := by
  intro e he d call hcall hinserted hrunning hid
  rcases hcalls d call hcall hinserted hrunning with ⟨old, hold, hinserted', hrunning', hid'⟩
  exact hu e (hpending.subset he) d old hold hinserted' hrunning' (hid'.trans hid)

theorem Undisturbed.step (hu : Undisturbed s) (hreuse : ¬ s.Reuses action)
    (h : s.step action = some s') : Undisturbed s' := by
  have hmove := Session.move_of_step h
  cases hmove with
  | @enter _ c new hnone hbefore =>
    refine hu.of_sublist (.refl _) fun d call hcall hinserted hrunning => ?_
    by_cases hd : d = c
    · subst hd
      simp only [Function.update_self, Option.some.injEq] at hcall
      exact absurd (hcall ▸ hinserted) hbefore
    · simp only [Function.update_of_ne hd] at hcall
      exact ⟨call, hcall, hinserted, hrunning, rfl⟩
  | @call c event call call' inner hcall hcallMove =>
    -- the other calls are as they were; what is left is the call itself
    have hcalls : (call'.Inserted → call'.Running →
          call.Inserted ∧ call.Running ∧ call.id = call'.id) →
        ∀ d callD, Function.update s.calls c (some call') d = some callD → callD.Inserted →
          callD.Running →
          ∃ old, s.calls d = some old ∧ old.Inserted ∧ old.Running ∧ old.id = callD.id := by
      intro hself d callD hcallD hinserted hrunning
      by_cases hd : d = c
      · subst hd
        rw [Function.update_self, Option.some.injEq] at hcallD
        subst hcallD
        exact ⟨call, hcall, hself hinserted hrunning⟩
      · rw [Function.update_of_ne hd] at hcallD
        exact ⟨callD, hcallD, hinserted, hrunning, rfl⟩
    cases hcallMove with
    | before hbefore hnext =>
      refine hu.of_sublist (.refl _) (hcalls fun hinserted hrunning => ?_)
      rcases hnext with hbefore' | ⟨e, herror⟩
      · exact absurd hinserted hbefore'
      · exact absurd herror (hrunning _)
    | insert hphase hnew hroom =>
      intro e he d callD hcallD hinserted hrunning hid
      by_cases hd : d = c
      · subst hd
        simp only [Function.update_self, Option.some.injEq] at hcallD
        subst hcallD
        rcases List.mem_cons.mp he with rfl | hold
        · rfl
        · exact absurd hid.symm (Inner.get_eq_none.mp hnew e hold)
      · simp only [Function.update_of_ne hd] at hcallD
        rcases List.mem_cons.mp he with rfl | hold
        · exact absurd ⟨c, event, call, d, callD, rfl, hcall, hphase, hd, hcallD, hinserted,
            hrunning, hid⟩ hreuse
        · exact hu e hold d callD hcallD hinserted hrunning hid
    | goOn hinserted hrunning =>
      exact hu.of_sublist (.refl _) (hcalls fun _ _ => ⟨hinserted, hrunning, rfl⟩)
    | giveUp =>
      exact hu.of_sublist List.filter_sublist (hcalls fun _ hrunning => absurd rfl (hrunning _))
    | receive =>
      exact hu.of_sublist (.refl _) (hcalls fun _ hrunning => absurd rfl (hrunning _))
  | reader hreader =>
    exact hu.of_sublist hreader.pending fun d call hcall hinserted hrunning =>
      ⟨call, hcall, hinserted, hrunning, rfl⟩
  | other =>
    exact hu.of_sublist (.refl _) fun d call hcall hinserted hrunning =>
      ⟨call, hcall, hinserted, hrunning, rfl⟩

/-- Who may take the entry of a call from the table. -/
inductive Removed (s : Session) (s' : Session) (e : UInt64 × PendingRequest) : Action → Prop
  /-- The reader, to deliver a frame to that call. -/
  | answered {event : ReaderEvent} {w : Window} {waiter : PendingRequest} {f : Frame}
      (hreader : s'.reader = .delivering w waiter f) (hcall : waiter.tx = e.2.tx) :
      Removed s s' e (.reader event)
  /-- The call itself. -/
  | caller {event : CallEvent} : Removed s s' e (.call e.2.tx event)
  /-- The reader, at the end of the session. -/
  | closing {event : ReaderEvent} {reason : String} (hreader : s.reader = .draining reason)
      (hclosed : s.inner.closed = true) : Removed s s' e (.reader event)

theorem Undisturbed.removed (hu : Undisturbed s) (ht : Table s) (h : s.step action = some s')
    {e : UInt64 × PendingRequest} (he : e ∈ s.inner.pending) (hgone : e ∉ s'.inner.pending) :
    Removed s s' e action := by
  have hmove := Session.move_of_step h
  cases hmove with
  | enter => exact absurd he hgone
  | @call c event call call' inner hcall hcallMove =>
    cases hcallMove with
    | before => exact absurd he hgone
    | insert => exact absurd (List.mem_cons_of_mem _ he) hgone
    | goOn => exact absurd he hgone
    | giveUp hinserted hrunning =>
      -- the entry is under the identifier of the call, so it is the call's own
      have hid : e.1 = call.id := by
        by_contra hne
        exact hgone (Inner.mem_remove.mpr ⟨he, hne⟩)
      rw [hu e he c call hcall hinserted hrunning hid.symm]
      exact .caller
    | receive => exact absurd he hgone
  | reader hreader =>
    cases hreader with
    | goOn => exact absurd he hgone
    | @route w waiter f hphase hget htype =>
      have hid : e.1 = f.requestId := by
        by_contra hne
        exact hgone (Inner.mem_remove.mpr ⟨he, hne⟩)
      have heq : e = (f.requestId, waiter) :=
        List.inj_on_of_nodup_map ht.keys he (Inner.mem_of_get hget) hid
      exact .answered rfl (by rw [heq])
    | deliver => exact absurd he hgone
    | drain hphase => exact .closing hphase (ht.closing _ hphase)
  | other => exact absurd he hgone

/-! ## Runs -/

/-- The sessions reached by allowed actions, with the frames received on the way. -/
inductive Session.Run (allowed : Session → Action → Prop) (start : Session) :
    List Frame → Session → Prop
  | start : Run allowed start [] start
  | step {received : List Frame} {s s' : Session} {action : Action}
      (hrun : Run allowed start received s) (hallowed : allowed s action)
      (hstep : s.step action = some s') : Run allowed start (received ++ s.receives action) s'

/-- Every interleaving. -/
def anyAction (_ : Session) (_ : Action) : Prop := True

/-- No call enters the table under the identifier of one that has not returned. -/
def freshIds (s : Session) (action : Action) : Prop := ¬ s.Reuses action

/-- The frame was sent to the call or returned by it. -/
def Session.Delivered (s : Session) (c : Nat) (f : Frame) : Prop :=
  .ok f ∈ s.inner.inbox c ∨ ∃ call, s.calls c = some call ∧ call.phase = .returned (.ok f)

section Runs

variable {magic : UInt32} {lane : Bool} {limits : DuplexLimits} {start s : Session}
  {allowed : Session → Action → Prop} {received : List Frame}

theorem Session.Run.reachable (h : Session.Run allowed start received s) :
    Machine.Reachable Session.step start s := by
  induction h with
  | start => exact ⟨[], rfl⟩
  | step _ _ hstep ih =>
    rcases ih with ⟨schedule, hschedule⟩
    exact ⟨schedule ++ [_], Machine.run_concat_eq_some.mpr ⟨_, hschedule, hstep⟩⟩

theorem Session.Run.of_schedule {schedule : List Action}
    (h : Machine.run Session.step start schedule = some s) :
    ∃ received, Session.Run anyAction start received s := by
  have hprefix : ∀ {received first}, Session.Run anyAction start received first →
      Machine.run Session.step first schedule = some s →
        ∃ received, Session.Run anyAction start received s := by
    clear h
    induction schedule with
    | nil =>
      intro received first hrun h
      cases h
      exact ⟨received, hrun⟩
    | cons action schedule ih =>
      intro received first hrun h
      rcases Machine.run_cons_eq_some.mp h with ⟨second, hstep, hrest⟩
      exact ih (hrun.step trivial hstep) hrest
  exact hprefix .start h

theorem Routed.of_run (hstart : fromAuthenticatedStreamWithLimits magic lane limits = .ok start)
    (h : Session.Run allowed start received s) : ∃ source, Routed received source s := by
  induction h with
  | start =>
    rcases fromAuthenticatedStreamWithLimits_eq_ok hstart with ⟨-, rfl⟩
    exact ⟨fun _ => none, fun e he => absurd he List.not_mem_nil, nofun, nofun,
      fun c f hf => absurd hf List.not_mem_nil, nofun, nofun, nofun, nofun⟩
  | step hrun _ hstep ih =>
    rcases ih with ⟨source, hr⟩
    exact hr.step (Slots.reachable hstart hrun.reachable).1 hstep

theorem Table.of_run (hstart : fromAuthenticatedStreamWithLimits magic lane limits = .ok start)
    (h : Session.Run allowed start received s) : Table s := by
  induction h with
  | start =>
    rcases fromAuthenticatedStreamWithLimits_eq_ok hstart with ⟨-, rfl⟩
    exact ⟨List.nodup_nil, Nat.zero_le _, nofun⟩
  | step _ _ hstep ih => exact ih.step hstep

theorem Undisturbed.of_run
    (hstart : fromAuthenticatedStreamWithLimits magic lane limits = .ok start)
    (h : Session.Run freshIds start received s) : Undisturbed s := by
  induction h with
  | start =>
    rcases fromAuthenticatedStreamWithLimits_eq_ok hstart with ⟨-, rfl⟩
    exact fun e he => absurd he List.not_mem_nil
  | step _ hfresh hstep ih => exact ih.step hfresh hstep

theorem Routed.got {source : Nat → Option Nat} (hr : Routed received source s) {c : Nat} {f : Frame}
    (h : s.Delivered c f) : s.Got received source c f := by
  rcases h with hsent | ⟨call, hcall, hphase⟩
  · exact hr.sent c f hsent
  · exact hr.returned c call f hcall hphase

/-- Over every interleaving a call returns only a frame with its own identifier and one of its
expected types, no received frame is delivered to two calls, and the table keeps to its cap.
As long as no call enters the table under the identifier of one that has not returned, an
entry is taken from the table only by the reader, for an answer to that call or at the end of
the session, or by that call. -/
theorem concurrent_requests_isolated
    (hstart : fromAuthenticatedStreamWithLimits magic lane limits = .ok start) :
    (∀ received s, Session.Run anyAction start received s →
      (∀ c call f, s.calls c = some call → call.phase = .returned (.ok f) →
        f.requestId = call.id ∧ f.messageType ∈ call.request.expectedTypes) ∧
      (∃ source : Nat → Option Nat,
        (∀ c f, s.Delivered c f → ∃ i, source c = some i ∧ received[i]? = some f) ∧
        ∀ c d i, source c = some i → source d = some i → c = d) ∧
      s.inner.pending.length ≤ limits.maxPendingRequests) ∧
    ∀ received s, Session.Run freshIds start received s →
      ∀ action s', s.step action = some s' →
        ∀ e ∈ s.inner.pending, e ∉ s'.inner.pending → Removed s s' e action := by
  refine ⟨fun received s hrun => ?_, fun received s hrun action s' hstep e he hgone => ?_⟩
  · rcases Routed.of_run hstart hrun with ⟨source, hr⟩
    refine ⟨?_, ⟨source, fun c f h => (hr.got h).2, hr.injective⟩, ?_⟩
    · intro c call f hcall hphase
      rcases (hr.returned c call f hcall hphase).1 with
        ⟨types, ⟨call', hcall', -, hid, htypes⟩, htype⟩
      rw [hcall, Option.some.injEq] at hcall'
      subst hcall'
      exact ⟨hid.symm, htypes ▸ htype⟩
    · rw [← (Slots.reachable hstart hrun.reachable).2]
      exact (Table.of_run hstart hrun).cap
  · exact (Undisturbed.of_run hstart hrun).removed (Table.of_run hstart hrun) hstep he hgone

end Runs

/-! ## An identifier used again -/

/-- A session as it is made with the default limits. -/
def defaultSession : Session where
  inner :=
    { magic := 0, pending := [], unsolicited := [], limits := defaultLimits, closed := false
      nextRequestId := 1, laneHighBit := false, inbox := fun _ => [] }
  reader := .reading ⟨0, 0⟩
  calls := fun _ => none

theorem fromAuthenticatedStream_default :
    fromAuthenticatedStreamWithLimits 0 false defaultLimits = .ok defaultSession := rfl

/-- Test that the call of an action shares its identifier with none of the first {lit}`n`. -/
def Session.ownId (s : Session) (n : Nat) : Action → Bool
  | .call c _ => ((List.range n).filter (· != c)).all fun d =>
      (s.calls d).map (·.id) != (s.calls c).map (·.id)
  | _ => true

/-- A run of the first {lit}`n` calls, while each has an identifier of its own. -/
def Session.runOwnIds (n : Nat) (s : Session) : List Action → Option Session
  | [] => some s
  | action :: schedule =>
    if s.ownId n action && action.caller.all (· < n) then
      (s.step action).bind fun s' => s'.runOwnIds n schedule
    else none

theorem Session.Run.of_runOwnIds {start s s' : Session} {received : List Frame} {n : Nat}
    {schedule : List Action} (hrun : Session.Run freshIds start received s)
    (hcalls : ∀ c, n ≤ c → s.calls c = none) (h : s.runOwnIds n schedule = some s') :
    ∃ received, Session.Run freshIds start received s' := by
  induction schedule generalizing s received with
  | nil =>
    cases h
    exact ⟨received, hrun⟩
  | cons action schedule ih =>
    rw [Session.runOwnIds, Option.ite_none_right_eq_some, Bool.and_eq_true,
      Option.bind_eq_some_iff] at h
    rcases h with ⟨⟨hown, hcaller⟩, s₁, hstep, hrest⟩
    have hfresh : freshIds s action := by
      rintro ⟨c, event, call, d, other, rfl, hcall, -, hne, hother, -, -, hid⟩
      have hd : d < n := by
        by_contra hle
        rw [hcalls d (Nat.le_of_not_lt hle)] at hother
        cases hother
      have hdiffer := List.all_eq_true.mp hown d (by simp [hd, hne])
      simp [hcall, hother, hid] at hdiffer
    refine ih (hrun.step hfresh hstep) (fun c hc => ?_) hrest
    rw [(Session.move_of_step hstep).calls_of_ne, hcalls c hc]
    intro heq
    rw [heq, Option.all_some, decide_eq_true_eq] at hcaller
    omega

def pingRequest : Request where
  messageType := 4
  payload := []
  expectedTypes := [5]

def pongFrame : Frame where
  magic := 0
  version := p2pVersion
  messageType := 5
  flags := 0
  requestId := 7
  payload := []

/-- Two calls are in the table when a frame for the first one comes. -/
def answerSchedule : List Action :=
  [.requestWithId 0 7 pingRequest, .requestWithId 1 8 pingRequest, .call 0 .proceed,
    .call 1 .proceed, .call 0 .proceed, .call 1 .proceed, .reader (.frame pongFrame false)]

theorem run_answerSchedule :
    (defaultSession.runOwnIds 2 answerSchedule).map (·.inner.pending) =
        some [(8, ⟨[5], 1⟩), (7, ⟨[5], 0⟩)] ∧
      ((defaultSession.runOwnIds 2 answerSchedule).bind (·.step (.reader .proceed))).map
        (·.inner.pending) = some [(8, ⟨[5], 1⟩)] := by
  decide +kernel

/-- The table of a default session keeps to its 64 entries; in a run of two calls, the entry
of the first is taken from it for the answer to that call and the other stays. -/
theorem default_session_isolated :
    fromAuthenticatedStreamWithLimits 0 false defaultLimits = .ok defaultSession ∧
      (∀ received s, Session.Run anyAction defaultSession received s →
        s.inner.pending.length ≤ 64) ∧
      ∃ received s s', Session.Run freshIds defaultSession received s ∧
        s.inner.pending = [(8, ⟨[5], 1⟩), (7, ⟨[5], 0⟩)] ∧
        s.step (.reader .proceed) = some s' ∧ s'.inner.pending = [(8, ⟨[5], 1⟩)] ∧
        Removed s s' (7, ⟨[5], 0⟩) (.reader .proceed) := by
  rcases concurrent_requests_isolated fromAuthenticatedStream_default with ⟨hany, hfresh⟩
  refine ⟨rfl, fun received s hrun => (hany received s hrun).2.2, ?_⟩
  rcases run_answerSchedule with ⟨hbefore, hafter⟩
  rcases Option.map_eq_some_iff.mp hafter with ⟨s', hlast, hleft⟩
  rcases Option.bind_eq_some_iff.mp hlast with ⟨s, hschedule, hstep⟩
  rw [hschedule, Option.map_some, Option.some.injEq] at hbefore
  rcases Session.Run.of_runOwnIds .start (fun _ _ => rfl) hschedule with ⟨received, hrun⟩
  exact ⟨received, s, s', hrun, hbefore, hstep, hleft,
    hfresh received s hrun _ s' hstep _ (by simp [hbefore]) (by simp [hleft])⟩

/-- The reader has taken the entry of the first call for an answer when that call times out;
before it clears the table, a second call enters under the same identifier. -/
def reuseSchedule : List Action :=
  [.requestWithId 0 7 pingRequest, .call 0 .proceed, .call 0 .proceed, .call 0 .proceed,
    .call 0 .proceed, .call 0 .proceed, .reader (.frame pongFrame false), .reader .proceed,
    .call 0 .timeout, .requestWithId 1 7 pingRequest, .call 1 .proceed, .call 1 .proceed]

theorem run_reuseSchedule :
    ((Machine.run Session.step defaultSession reuseSchedule).map (·.inner.pending)) =
        some [(7, ⟨[5], 1⟩)] ∧
      ((Machine.run Session.step defaultSession (reuseSchedule ++ [.call 0 .proceed])).map
        (·.inner.pending)) = some [] := by
  decide +kernel

/-- The timeout of the first call takes the entry of the second one. -/
theorem timeout_takes_reused_entry :
    ∃ received s s', Session.Run anyAction defaultSession received s ∧
      s.step (.call 0 .proceed) = some s' ∧ ∃ e ∈ s.inner.pending, e ∉ s'.inner.pending ∧
        ¬ Removed s s' e (.call 0 .proceed) := by
  rcases run_reuseSchedule with ⟨hbefore, hafter⟩
  rcases Option.map_eq_some_iff.mp hafter with ⟨s', hrun', hgone⟩
  rcases Machine.run_concat_eq_some.mp hrun' with ⟨s, hrun, hstep⟩
  rw [hrun, Option.map_some, Option.some.injEq] at hbefore
  rcases Session.Run.of_schedule hrun with ⟨received, hreached⟩
  refine ⟨received, s, s', hreached, hstep, (7, ⟨[5], 1⟩), by simp [hbefore], by simp [hgone], ?_⟩
  generalize haction : Action.call 0 .proceed = action
  intro hremoved
  cases hremoved with
  | answered => cases haction
  | caller =>
    injection haction with hcall
    cases hcall
  | closing => cases haction

end Mutiny.Duplex
