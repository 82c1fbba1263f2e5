import Mathlib.Logic.Function.Basic
import Mutiny.Lib.Checked
import Mutiny.Lib.Machine
import Mutiny.P2p.Frame

/-!
# Duplex sessions

A duplex session is one authenticated connection.  A reader thread routes the frames
that come in: to the caller whose request they answer, or to a bounded queue.  Any
number of callers send requests and wait for the answer.  What happens under one lock,
and every access to an atomic variable, is one action of the machine; a schedule is any
interleaving of the callers and the reader, with failures of the connection and timeouts
at any moment.

Main definitions:

- {lit}`Call.step`: the actions of {lit}`request` and {lit}`request_with_id`.
- {lit}`readerStep`: the actions of the reader.
- {lit}`Session.step`: one action of a session.
-/

namespace Mutiny

open Result

namespace Duplex

/-! ## Shared state -/

/-- Times are in nanoseconds. -/
structure DuplexLimits where
  maxPendingRequests : Nat
  maxUnsolicitedFrames : Nat
  maxFramesPerWindow : UInt64
  maxBytesPerWindow : UInt64
  rateWindow : Nat
deriving DecidableEq, Repr

def defaultLimits : DuplexLimits where
  maxPendingRequests := 64
  maxUnsolicitedFrames := 128
  maxFramesPerWindow := 512
  maxBytesPerWindow := 16777216
  rateWindow := 10000000000

/-- Why a call fails. -/
inductive DuplexError
  | closed
  | duplicateRequestId (id : UInt64)
  | timeout (id : UInt64)
  | readerStopped (reason : String)
  | protocol (reason : String)
  | resourceLimit (reason : String)
  | p2p (e : P2pError)
  | io (reason : String)
deriving DecidableEq, Repr

/-- What a call is sent. -/
abbrev PendingResult := Except String Frame

/-- A waiting request.  The channel to its caller is named by the number of the call. -/
structure PendingRequest where
  expectedTypes : List UInt16
  tx : Nat
deriving DecidableEq, Repr

/-- What the threads of a session share.  The table of pending requests is an
association list; {lit}`inbox` holds what was sent to each caller and not yet received. -/
structure Inner where
  magic : UInt32
  pending : List (UInt64 × PendingRequest)
  unsolicited : List Frame
  limits : DuplexLimits
  closed : Bool
  nextRequestId : UInt64
  laneHighBit : Bool
  inbox : Nat → List PendingResult

/-- The entry of an identifier. -/
def Inner.get (s : Inner) (id : UInt64) : Option PendingRequest :=
  (s.pending.find? fun e => e.1 == id).map (·.2)

/-- The entry is taken out. -/
def Inner.remove (s : Inner) (id : UInt64) : Inner :=
  { s with pending := s.pending.filter fun e => e.1 ≠ id }

/-- A message to a call. -/
def Inner.send (s : Inner) (tx : Nat) (message : PendingResult) : Inner :=
  { s with inbox := Function.update s.inbox tx (s.inbox tx ++ [message]) }

/-- All waiting requests get the reason and leave the table. -/
def Inner.drain (s : Inner) (reason : String) : Inner :=
  { s.pending.foldl (fun s e => s.send e.2.tx (.error reason)) s with pending := [] }

/-- The part of a request under the lock of the table. -/
def Inner.insertPending (s : Inner) (id : UInt64) (request : PendingRequest) :
    Except DuplexError Inner := do
  reject ((s.get id).isSome = true) (.duplicateRequestId id)
  reject (s.limits.maxPendingRequests ≤ s.pending.length) (.resourceLimit
    ("pending request cap " ++ toString s.limits.maxPendingRequests ++ " reached"))
  .ok { s with pending := (id, request) :: s.pending }

def laneBit : UInt64 := 9223372036854775808

/-- An identifier with the bit of this end. -/
def Inner.normalized (s : Inner) (id : UInt64) : UInt64 :=
  if s.laneHighBit then id ||| laneBit else id &&& ~~~laneBit

/-! ## Callers -/

/-- A request to the peer. -/
structure Request where
  messageType : UInt16
  payload : Bytes
  expectedTypes : List UInt16
deriving DecidableEq, Repr

/-- Where a caller is: before the action the phase is named for. -/
inductive Phase
  | opening
  | allocating
  | entering
  | locking
  | framing
  | sending (frame : Frame)
  | writing (frame : Frame)
  | cancelling (e : DuplexError)
  | waiting
  | expiring
  | returned (result : Except DuplexError Frame)

/-- A call of {lit}`request` or {lit}`request_with_id`; the identifier of a
{lit}`request` is 0 until it is allocated. -/
structure Call where
  request : Request
  id : UInt64
  phase : Phase

/-- The call returns. -/
def Call.finish (call : Call) (result : Except DuplexError Frame) : Call :=
  { call with phase := .returned result }

/-- What the connection and the clock do to a caller. -/
inductive CallEvent
  | proceed
  | writeFails (reason : String)
  | timeout
deriving DecidableEq, Repr

/-- One action of call {lit}`c`.  The channel of a waiting call is connected as long as
somebody holds its sender. -/
def Call.step (s : Inner) (c : Nat) (connected : Bool) (call : Call) (event : CallEvent) :
    Option (Inner × Call) :=
  match call.phase with
  | .opening => some (s, if s.closed then call.finish (.error .closed)
      else { call with phase := .allocating })
  | .allocating =>
    let id := s.normalized s.nextRequestId
    let s := { s with nextRequestId := s.nextRequestId + 1 }
    -- the loop of the allocation runs again on the identifier 0
    some (s, if id ≠ 0 then { call with id, phase := .entering } else call)
  | .entering => some (s,
      if call.request.expectedTypes = [] then call.finish
        (.error (.protocol "request must declare at least one expected response type"))
      else if s.closed then call.finish (.error .closed)
      else { call with phase := .locking })
  | .locking =>
    match s.insertPending call.id ⟨call.request.expectedTypes, c⟩ with
    | .error e => some (s, call.finish (.error e))
    | .ok s => some (s, { call with phase := .framing })
  | .framing =>
    match Frame.new s.magic call.request.messageType call.id call.request.payload with
    | .error e => some (s, call.finish (.error (.p2p e)))
    | .ok frame => some (s, { call with phase := .sending frame })
  | .sending frame =>
    some (s, { call with phase := if s.closed then .cancelling .closed else .writing frame })
  | .writing _ =>
    match event with
    | .writeFails reason => some (s, { call with phase := .cancelling (.p2p (.io reason)) })
    | _ => some (s, { call with phase := .waiting })
  | .cancelling e => some (s.remove call.id, call.finish (.error e))
  | .waiting =>
    match s.inbox c, event with
    | message :: rest, _ =>
      let s := { s with inbox := Function.update s.inbox c rest }
      match message with
      | .ok frame => some (s, call.finish (.ok frame))
      | .error reason => some (s, call.finish (.error (.readerStopped reason)))
    | [], .timeout => if connected then some (s, { call with phase := .expiring }) else none
    | [], _ =>
      if connected then none
      else some (s, call.finish (.error (.readerStopped "response router disconnected")))
  | .expiring => some (s.remove call.id, call.finish (.error (.timeout call.id)))
  | .returned _ => none

/-! ## The reader -/

/-- The receive budget: frames and bytes of the current window. -/
structure Window where
  frames : UInt64
  bytes : UInt64
deriving DecidableEq, Repr

/-- Where the reader stands. -/
inductive ReaderPhase
  | reading (window : Window)
  | routing (window : Window) (frame : Frame)
  | delivering (window : Window) (waiter : PendingRequest) (frame : Frame)
  | forwarding (window : Window) (frame : Frame)
  | draining (reason : String)
  | stopped
deriving DecidableEq, Repr

/-- What the connection and the clock do to the reader: a failure, or a frame that comes
before or after the end of the window. -/
inductive ReaderEvent
  | failure (reason : String)
  | frame (f : Frame) (elapsed : Bool)
  | proceed
deriving DecidableEq, Repr

/-- A frame is counted. -/
def Window.admit (w : Window) (elapsed : Bool) (f : Frame) : Window :=
  let w := if elapsed then ⟨0, 0⟩ else w
  ⟨w.frames.saturatingAdd 1, w.bytes.saturatingAdd (UInt64.ofNat (26 + f.payload.length))⟩

/-- One action of the reader. -/
def readerStep (s : Inner) (phase : ReaderPhase) (event : ReaderEvent) :
    Option (Inner × ReaderPhase) :=
  match phase, event with
  | .reading _, .failure reason => some ({ s with closed := true }, .draining reason)
  | .reading w, .frame f elapsed =>
    if f.Received s.magic then
      let w := w.admit elapsed f
      if s.limits.maxFramesPerWindow < w.frames ∨ s.limits.maxBytesPerWindow < w.bytes then
        some ({ s with closed := true }, .draining "peer exceeded duplex receive budget")
      else some (s, .routing w f)
    else none
  | .reading _, .proceed => none
  | .routing w f, _ =>
    match s.get f.requestId with
    | some waiter =>
      if f.messageType ∈ waiter.expectedTypes then
        some (s.remove f.requestId, .delivering w waiter f)
      else some (s, .forwarding w f)
    | none => some (s, .forwarding w f)
  | .delivering w waiter f, _ => some (s.send waiter.tx (.ok f), .reading w)
  | .forwarding w f, _ =>
    if s.unsolicited.length < s.limits.maxUnsolicitedFrames then
      some ({ s with unsolicited := s.unsolicited ++ [f] }, .reading w)
    else some ({ s with closed := true }, .draining "peer overflowed bounded unsolicited queue")
  | .draining reason, _ => some (s.drain reason, .stopped)
  | .stopped, _ => none

/-- The sender the reader holds between the table and the channel. -/
def ReaderPhase.holds : ReaderPhase → Option Nat
  | .delivering _ waiter _ => some waiter.tx
  | _ => none

/-! ## Sessions -/

/-- A session with its reader and its calls. -/
structure Session where
  inner : Inner
  reader : ReaderPhase
  calls : Nat → Option Call

/-- A new session on an authenticated stream. -/
def fromAuthenticatedStreamWithLimits (magic : UInt32) (laneHighBit : Bool)
    (limits : DuplexLimits) : Except DuplexError Session := do
  reject (limits.maxPendingRequests = 0 ∨ limits.maxUnsolicitedFrames = 0 ∨
    limits.maxFramesPerWindow = 0 ∨ limits.maxBytesPerWindow = 0 ∨ limits.rateWindow = 0)
    (.protocol "duplex limits must all be non-zero")
  .ok
    { inner :=
        { magic, pending := [], unsolicited := [], limits, closed := false
          nextRequestId := if laneHighBit then laneBit else 1
          laneHighBit, inbox := fun _ => [] }
      reader := .reading ⟨0, 0⟩
      calls := fun _ => none }

/-- What can happen. -/
inductive Action
  | request (c : Nat) (r : Request)
  | requestWithId (c : Nat) (id : UInt64) (r : Request)
  | call (c : Nat) (event : CallEvent)
  | reader (event : ReaderEvent)
  | recvUnsolicited
  | close

/-- Somebody holds the sender of the channel to call {lit}`c`. -/
def Session.connected (s : Session) (c : Nat) : Bool :=
  s.inner.pending.any (fun e => e.2.tx = c) || s.reader.holds = some c

/-- Enter a call under a number that no call had before. -/
def Session.enter (s : Session) (c : Nat) (call : Call) : Option Session :=
  match s.calls c with
  | some _ => none
  | none => some { s with calls := Function.update s.calls c (some call) }

/-- One action of a session. -/
def Session.step (s : Session) : Action → Option Session
  | .request c r => s.enter c ⟨r, 0, .opening⟩
  | .requestWithId c id r => s.enter c ⟨r, id, .entering⟩
  | .call c event => do
    let call ← s.calls c
    let (inner, call) ← call.step s.inner c (s.connected c) event
    some { s with inner, calls := Function.update s.calls c (some call) }
  | .reader event => do
    let (inner, reader) ← readerStep s.inner s.reader event
    some { s with inner, reader }
  | .recvUnsolicited =>
    some { s with inner := { s.inner with unsolicited := s.inner.unsolicited.tail } }
  | .close => some { s with inner := { s.inner with closed := true } }

end Duplex

end Mutiny
